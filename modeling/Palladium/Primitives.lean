import Mathlib
import Palladium.Uint256

/-!
# Blocks, headers, transactions and the merge-mining proof

The data of `primitives/block.h` and the transactions a block holds. `primitives/transaction.h`
and `serialize.h` are not among the sources: the transaction fields and `SerializeTransaction`
are written here after them, and the byte writers of the field types are a parameter, a
`Writer`. A header's hash is `Hash` of its serialization, a transaction's that of its
serialization without witnesses, with `Hash` (double SHA-256) a parameter too.
-/

namespace Palladium

structure COutPoint where
  hash : Uint256
  n : UInt32
  deriving DecidableEq

structure CTxIn where
  prevout : COutPoint
  scriptSig : List UInt8
  nSequence : UInt32
  scriptWitness : List (List UInt8)
  deriving DecidableEq

/-- `CTxOut`; the `CAmount` is kept as its 64 bits. -/
structure CTxOut where
  nValue : BitVec 64
  scriptPubKey : List UInt8
  deriving DecidableEq

structure CTransaction where
  nVersion : BitVec 32
  vin : List CTxIn
  vout : List CTxOut
  nLockTime : UInt32
  deriving DecidableEq

/-- `CBlockHeader`; the `int32_t` version is kept as its 32 bits. -/
structure CBlockHeader where
  nVersion : BitVec 32
  hashPrevBlock : Uint256
  hashMerkleRoot : Uint256
  nTime : UInt32
  nBits : UInt32
  nNonce : UInt32
  deriving DecidableEq

def auxpowVersionBit : BitVec 32 := 1 <<< 8

/-- `CAuxPow`. `coinbaseTx` is a `CTransactionRef`, null after `SetNull`. -/
structure CAuxPow where
  coinbaseTx : Option CTransaction
  hashBlock : Uint256
  vMerkleBranch : List Uint256
  nIndex : BitVec 32
  vChainMerkleBranch : List Uint256
  nChainIndex : BitVec 32
  parentBlock : CBlockHeader
  deriving DecidableEq

/-- `CBlock`: the header, the transactions and the optional merge-mining proof
(`fChecked` is memory only and read by no modelled function). -/
structure CBlock extends CBlockHeader where
  vtx : List CTransaction
  m_auxpow : Option CAuxPow
  deriving DecidableEq

/-- The byte writers of `serialize.h` for the field types a block holds. -/
structure Writer where
  int32 : BitVec 32 → List UInt8
  uint32 : UInt32 → List UInt8
  int64 : BitVec 64 → List UInt8
  uint256 : Uint256 → List UInt8
  compactSize : Nat → List UInt8

def hasWitness (vin : List CTxIn) : Bool := vin.any fun txin => !txin.scriptWitness.isEmpty

section Writing

variable {α : Type} (compactSize : Nat → List UInt8)

def writeVector (write : α → List UInt8) (v : List α) : List UInt8 :=
  compactSize v.length ++ v.flatMap write

def writeBytes (v : List UInt8) : List UInt8 := writeVector compactSize (fun b => [b]) v

end Writing

section Hashing

variable (w : Writer) (Hash : List UInt8 → Uint256)

def CTxIn.serialize (txin : CTxIn) : List UInt8 :=
  w.uint256 txin.prevout.hash ++ w.uint32 txin.prevout.n ++ writeBytes w.compactSize txin.scriptSig ++
    w.uint32 txin.nSequence

def CTxOut.serialize (txout : CTxOut) : List UInt8 :=
  w.int64 txout.nValue ++ writeBytes w.compactSize txout.scriptPubKey

/-- `SerializeTransaction`. `flags` is 1 exactly when witnesses are allowed and an input has
one; the extended format then writes the empty `vinDummy` and the flag byte before the inputs,
and each input's witness stack after the outputs. -/
def CTransaction.serialize (fAllowWitness : Bool) (tx : CTransaction) : List UInt8 :=
  let witness := fAllowWitness && hasWitness tx.vin
  w.int32 tx.nVersion ++ (if witness then w.compactSize 0 ++ [1] else []) ++
    writeVector w.compactSize (CTxIn.serialize w) tx.vin ++
    writeVector w.compactSize (CTxOut.serialize w) tx.vout ++
    (if witness then
      tx.vin.flatMap fun txin => writeVector w.compactSize (writeBytes w.compactSize) txin.scriptWitness
    else []) ++
    w.uint32 tx.nLockTime

namespace CBlockHeader

def getBlockTime (h : CBlockHeader) : Int := h.nTime.toNat

def isAuxpow (h : CBlockHeader) : Bool := h.nVersion &&& auxpowVersionBit != 0

def serialize (h : CBlockHeader) : List UInt8 :=
  w.int32 h.nVersion ++ w.uint256 h.hashPrevBlock ++ w.uint256 h.hashMerkleRoot ++
    w.uint32 h.nTime ++ w.uint32 h.nBits ++ w.uint32 h.nNonce

/-- `GetHash()`: `SerializeHash(*this)`, whatever the version bits. -/
def getHash (h : CBlockHeader) : Uint256 := Hash (h.serialize w)

end CBlockHeader

def CTransaction.getHash (tx : CTransaction) : Uint256 := Hash (tx.serialize w false)

def CAuxPow.getParentBlockHash (aux : CAuxPow) : Uint256 := aux.parentBlock.getHash w Hash

/-- `CBlock::GetPoWHash()`: the parent header's hash for a block with the AuxPoW bit and a
proof, the block's own hash otherwise. -/
def CBlock.getPoWHash (block : CBlock) : Uint256 :=
  if block.isAuxpow then
    match block.m_auxpow with
    | some auxpow => auxpow.getParentBlockHash w Hash
    | none => block.toCBlockHeader.getHash w Hash
  else block.toCBlockHeader.getHash w Hash

end Hashing

end Palladium
