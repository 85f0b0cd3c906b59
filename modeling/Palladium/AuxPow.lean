import Mathlib
import Palladium.Merkle
import Palladium.Pow
import Palladium.Primitives
import Palladium.Serialize

/-!
# Checking a merge-mined block

`CheckAuxPowProofOfWork` accepts a block whose version carries the AuxPoW bit when the parent
header's hash meets the block's target, the proven transaction links to the parent's Merkle
root, and the bytes after the magic `70 6c 6d 01` in that transaction's first input script,
reversed, are the hash of the block's header with the bit cleared. A block built the way a
merge miner builds it is accepted. Two things the check does not do are shown here: it never
asks that the proven transaction is the parent's coinbase (index 0), and it reads `vin[0]`
of a transaction that may have no inputs.
-/

namespace Palladium

def pchAuxPowHeader : List UInt8 := [0x70, 0x6c, 0x6d, 0x01]

/-- `std::search(hay.begin(), hay.end(), needle...)`: the rest of `hay` from the first
occurrence of `needle` on, or `none` where the code gets `end()`. -/
def search (needle : List UInt8) : List UInt8 → Option (List UInt8)
  | [] => if needle = [] then some [] else none
  | b :: bs => if needle.isPrefixOf (b :: bs) then some (b :: bs) else search needle bs

theorem search_append {needle : List UInt8} (hne : needle ≠ []) {p : List UInt8}
    (hfirst : ¬ needle <:+: p ++ needle.dropLast) (rest : List UInt8) :
    search needle (p ++ (needle ++ rest)) = some (needle ++ rest) := by
  induction p with
  | nil =>
    obtain ⟨b, bs, rfl⟩ := List.exists_cons_of_ne_nil hne
    simp [search, List.isPrefixOf_iff_prefix]
  | cons a p ih =>
    have hlen : 0 < needle.length := List.length_pos.mpr hne
    have hpre : a :: p ++ needle.dropLast <+: a :: (p ++ (needle ++ rest)) := by
      rw [← List.cons_append]
      exact (List.prefix_append_right_inj _).mpr
        ((List.dropLast_prefix needle).trans (List.prefix_append needle rest))
    have hnot : ¬ needle <+: a :: (p ++ (needle ++ rest)) := fun h =>
      hfirst (List.prefix_of_prefix_length_le h hpre (by simp; omega)).isInfix
    rw [List.cons_append, search,
      if_neg (by rwa [List.isPrefixOf_iff_prefix]), ih (fun h => hfirst (List.infix_cons h))]

theorem search_eq_some {needle hay pc : List UInt8} (h : search needle hay = some pc) :
    ∃ p, hay = p ++ pc ∧ needle <+: pc := by
  induction hay with
  | nil =>
    unfold search at h
    split_ifs at h with hn
    cases h
    exact ⟨[], rfl, by simp [hn]⟩
  | cons b bs ih =>
    unfold search at h
    split_ifs at h with hp
    · cases h
      exact ⟨[], rfl, List.isPrefixOf_iff_prefix.mp hp⟩
    · obtain ⟨p, rfl, hpc⟩ := ih h
      exact ⟨b :: p, rfl, hpc⟩

/-- The `return error(...)` sites of `CheckAuxPowProofOfWork`, in the order the code reaches
them. -/
inductive AuxPowError
  | notAuxpow
  | noAuxPowData
  | parentPowFails
  | merkleBranchFails
  | magicNotFound
  | commitmentTooShort
  | commitmentMismatch
  | duplicateParent
  deriving DecidableEq, Repr

/-- What `CheckAuxPowProofOfWork` does with a block: return `true`, return `false` at one of
its errors, or reach an operation the C++ leaves undefined (a null `coinbaseTx`, `vin[0]`
of an empty input list). -/
inductive AuxPowResult
  | accepted
  | rejected (e : AuxPowError)
  | undefined
  deriving DecidableEq, Repr

def CBlockHeader.clearAuxpow (h : CBlockHeader) : CBlockHeader :=
  { h with nVersion := h.nVersion &&& ~~~auxpowVersionBit }

/-- The first 32 bytes of a commitment, reversed: `uint256(vch.begin(), vch.begin() + 32)`
followed by `std::reverse`. -/
def commitHash (vchCommitment : List UInt8) (h : 32 ≤ vchCommitment.length) : Uint256 :=
  ⟨(vchCommitment.take 32).reverse, by simp; omega⟩

theorem commitHash_reverse_append (hash : Uint256) (s : List UInt8)
    (h : 32 ≤ (hash.data.reverse ++ s).length) : commitHash (hash.data.reverse ++ s) h = hash := by
  obtain ⟨data, hdata⟩ := hash
  simp [commitHash, List.take_left' (by simpa using hdata : data.reverse.length = 32)]

theorem eq_of_commitHash_eq {vchCommitment : List UInt8} {h : 32 ≤ vchCommitment.length}
    {hash : Uint256} (heq : commitHash vchCommitment h = hash) :
    vchCommitment = hash.data.reverse ++ vchCommitment.drop 32 := by
  have htake : vchCommitment.take 32 = hash.data.reverse := by
    rw [← heq]
    simp [commitHash]
  rw [← htake, List.take_append_drop]

/-- The block with header `h` whose proof shows `coinbaseTx` at `nIndex` of `parentBlock`'s
Merkle tree under `vMerkleBranch`. -/
def mergeMinedBlock (h : CBlockHeader) (coinbaseTx : CTransaction) (vMerkleBranch : List Uint256)
    (nIndex : BitVec 32) (parentBlock : CBlockHeader) : CBlock where
  toCBlockHeader := h
  vtx := []
  m_auxpow := some ⟨some coinbaseTx, Uint256.zero, vMerkleBranch, nIndex, [], 0, parentBlock⟩

section Check

variable (w : Writer) (Hash : List UInt8 → Uint256)

/-- `CheckAuxPowProofOfWork`, against the parent hashes `setAuxPowScannedParentHashes` holds
when it runs. -/
def checkAuxPowProofOfWork (setAuxPowScannedParentHashes : List Uint256) (block : CBlock)
    (params : ConsensusParams) : AuxPowResult :=
  if !block.isAuxpow then .rejected .notAuxpow
  else
    match block.m_auxpow with
    | none => .rejected .noAuxPowData
    | some auxpow =>
      if !checkProofOfWork (auxpow.getParentBlockHash w Hash) block.nBits params then
        .rejected .parentPowFails
      else
        match auxpow.coinbaseTx with
        | none => .undefined
        | some coinbaseTx =>
          let hashCoinbase := coinbaseTx.getHash w Hash
          let calculatedMerkleRoot :=
            computeMerkleRootFromBranch Hash hashCoinbase auxpow.vMerkleBranch auxpow.nIndex.toInt
          if auxpow.parentBlock.hashMerkleRoot ≠ calculatedMerkleRoot then
            .rejected .merkleBranchFails
          else
            match coinbaseTx.vin with
            | [] => .undefined
            | txin :: _ =>
              match search pchAuxPowHeader txin.scriptSig with
              | none => .rejected .magicNotFound
              | some pc =>
                let vchCommitment := pc.drop pchAuxPowHeader.length
                if h : vchCommitment.length < 32 then .rejected .commitmentTooShort
                else
                  let hashAuxBlockExpected := block.toCBlockHeader.clearAuxpow.getHash w Hash
                  if commitHash vchCommitment (by omega) ≠ hashAuxBlockExpected then
                    .rejected .commitmentMismatch
                  else if auxpow.getParentBlockHash w Hash ∈ setAuxPowScannedParentHashes then
                    .rejected .duplicateParent
                  else .accepted

theorem checkAuxPowProofOfWork_eq_accepted {S : List Uint256} {block : CBlock}
    {params : ConsensusParams} {auxpow : CAuxPow} {coinbaseTx : CTransaction} {txin : CTxIn}
    {vin : List CTxIn} {p s : List UInt8}
    (hbit : block.isAuxpow = true) (haux : block.m_auxpow = some auxpow)
    (hpow : checkProofOfWork (auxpow.getParentBlockHash w Hash) block.nBits params = true)
    (htx : auxpow.coinbaseTx = some coinbaseTx)
    (hroot : auxpow.parentBlock.hashMerkleRoot = computeMerkleRootFromBranch Hash
      (coinbaseTx.getHash w Hash) auxpow.vMerkleBranch auxpow.nIndex.toInt)
    (hvin : coinbaseTx.vin = txin :: vin)
    (hscript : txin.scriptSig = p ++ pchAuxPowHeader ++
      ((block.toCBlockHeader.clearAuxpow.getHash w Hash).data.reverse ++ s))
    (hfirst : ¬ pchAuxPowHeader <:+: p ++ pchAuxPowHeader.dropLast)
    (hS : auxpow.getParentBlockHash w Hash ∉ S) :
    checkAuxPowProofOfWork w Hash S block params = .accepted := by
  have hsearch := search_append (by decide) hfirst
    ((block.toCBlockHeader.clearAuxpow.getHash w Hash).data.reverse ++ s)
  simp [checkAuxPowProofOfWork, hbit, haux, hpow, htx, hroot, hvin, hscript, hsearch,
    commitHash_reverse_append, Uint256.length_data, hS]

theorem checkAuxPowProofOfWork_sound {S : List Uint256} {block : CBlock}
    {params : ConsensusParams} (h : checkAuxPowProofOfWork w Hash S block params = .accepted) :
    checkProofOfWork (block.getPoWHash w Hash) block.nBits params = true ∧
    ∃ auxpow coinbaseTx txin vin p s,
      block.m_auxpow = some auxpow ∧ auxpow.coinbaseTx = some coinbaseTx ∧
      auxpow.parentBlock.hashMerkleRoot = computeMerkleRootFromBranch Hash
        (coinbaseTx.getHash w Hash) auxpow.vMerkleBranch auxpow.nIndex.toInt ∧
      coinbaseTx.vin = txin :: vin ∧
      txin.scriptSig = p ++ pchAuxPowHeader ++
        ((block.toCBlockHeader.clearAuxpow.getHash w Hash).data.reverse ++ s) ∧
      auxpow.getParentBlockHash w Hash ∉ S := by
  unfold checkAuxPowProofOfWork at h
  dsimp only at h
  -- one split per test of the code; each failing branch returns a rejection or `.undefined`
  iterate 10
    split at h
    · cases h
  rename_i hbit _ auxpow haux hpow _ coinbaseTx htx hroot _ txin vin hvin _ pc hpc _ hcommit hS
  obtain ⟨p, hscript, hprefix⟩ := search_eq_some hpc
  have hpc' := (List.prefix_iff_eq_append.mp hprefix).symm
  rw [eq_of_commitHash_eq (not_not.mp hcommit)] at hpc'
  refine ⟨?_, auxpow, coinbaseTx, txin, vin, p, _, haux, htx, not_not.mp hroot, hvin,
    by rw [hscript, hpc', List.append_assoc], hS⟩
  have hb : block.isAuxpow = true := by simpa using hbit
  simpa [CBlock.getPoWHash, haux, hb] using hpow

/-- A proof whose coinbase has no inputs, once its parent's work and Merkle link pass, reaches
`coinbaseTx->vin[0]`: an out-of-range read. -/
theorem checkAuxPowProofOfWork_empty_vin_undefined {S : List Uint256} {block : CBlock}
    {params : ConsensusParams} {auxpow : CAuxPow} {coinbaseTx : CTransaction}
    (hbit : block.isAuxpow = true) (haux : block.m_auxpow = some auxpow)
    (hpow : checkProofOfWork (auxpow.getParentBlockHash w Hash) block.nBits params = true)
    (htx : auxpow.coinbaseTx = some coinbaseTx)
    (hroot : auxpow.parentBlock.hashMerkleRoot = computeMerkleRootFromBranch Hash
      (coinbaseTx.getHash w Hash) auxpow.vMerkleBranch auxpow.nIndex.toInt)
    (hvin : coinbaseTx.vin = []) :
    checkAuxPowProofOfWork w Hash S block params = .undefined := by
  simp [checkAuxPowProofOfWork, hbit, haux, hpow, htx, hroot, hvin]

theorem checkAuxPowProofOfWork_accepts_mergeMined {S : List Uint256} {block : CBlock}
    {params : ConsensusParams} {auxpow : CAuxPow} {coinbaseTx : CTransaction} {txin : CTxIn}
    {vin : List CTxIn} {p s : List UInt8} {txs : List CTransaction} {i : Nat}
    (hbit : block.isAuxpow = true) (hbits : rangeOk params block.nBits = true)
    (haux : block.m_auxpow = some auxpow) (htx : auxpow.coinbaseTx = some coinbaseTx)
    (hvin : coinbaseTx.vin = txin :: vin)
    (hscript : txin.scriptSig = p ++ pchAuxPowHeader ++
      ((block.toCBlockHeader.clearAuxpow.getHash w Hash).data.reverse ++ s))
    (hfirst : ¬ pchAuxPowHeader <:+: p ++ pchAuxPowHeader.dropLast)
    (hleaf : txs[i]? = some coinbaseTx)
    (hroot : auxpow.parentBlock.hashMerkleRoot =
      merkleRoot Hash (txs.map (CTransaction.getHash w Hash)))
    (hbranch : auxpow.vMerkleBranch = merkleBranch Hash (txs.map (CTransaction.getHash w Hash)) i)
    (hindex : auxpow.nIndex.toInt = i)
    (hpow : uintToArith256 (auxpow.getParentBlockHash w Hash) ≤
      (setCompact Arith.machine block.nBits).value)
    (hS : auxpow.getParentBlockHash w Hash ∉ S) :
    checkAuxPowProofOfWork w Hash S block params = .accepted := by
  have hi : i < (txs.map (CTransaction.getHash w Hash)).length := by
    simpa using (List.getElem?_eq_some_iff.mp hleaf).1
  have hgetD : (txs.map (CTransaction.getHash w Hash)).getD i Uint256.zero =
      coinbaseTx.getHash w Hash := by
    simp [List.getD_eq_getElem?_getD, hleaf]
  refine checkAuxPowProofOfWork_eq_accepted w Hash hbit haux
    (checkProofOfWork_eq_true_iff.mpr ⟨hbits, hpow⟩) htx ?_ hvin hscript hfirst hS
  rw [hroot, hbranch, hindex, ← hgetD, computeMerkleRootFromBranch_getD Hash _ i hi]

def commitmentTx (h : CBlockHeader) : CTransaction :=
  inputTx (pchAuxPowHeader ++ (h.clearAuxpow.getHash w Hash).data.reverse)

/-- Two transactions of one parent block, each committing to its own header, each proven at
its own index against the same Merkle root, both pass the check with the same parent header:
nothing asks that the proven transaction is the coinbase, at index 0. -/
theorem checkAuxPowProofOfWork_accepts_sibling_commitments {S : List Uint256}
    {params : ConsensusParams} {h₁ h₂ parent : CBlockHeader}
    (hbit₁ : h₁.isAuxpow = true) (hbit₂ : h₂.isAuxpow = true)
    (hroot : parent.hashMerkleRoot = hashPair Hash ((commitmentTx w Hash h₁).getHash w Hash)
      ((commitmentTx w Hash h₂).getHash w Hash))
    (hpow₁ : checkProofOfWork (parent.getHash w Hash) h₁.nBits params = true)
    (hpow₂ : checkProofOfWork (parent.getHash w Hash) h₂.nBits params = true)
    (hS : parent.getHash w Hash ∉ S) :
    checkAuxPowProofOfWork w Hash S (mergeMinedBlock h₁ (commitmentTx w Hash h₁)
      [(commitmentTx w Hash h₂).getHash w Hash] 0 parent) params = .accepted ∧
    checkAuxPowProofOfWork w Hash S (mergeMinedBlock h₂ (commitmentTx w Hash h₂)
      [(commitmentTx w Hash h₁).getHash w Hash] 1 parent) params = .accepted := by
  have hfirst : ¬ pchAuxPowHeader <:+: [] ++ pchAuxPowHeader.dropLast := by decide
  constructor
  · refine checkAuxPowProofOfWork_eq_accepted w Hash (s := []) hbit₁ rfl hpow₁ rfl ?_ rfl
      (by simp [commitmentTx, inputTx, mergeMinedBlock]) hfirst hS
    rw [hroot]
    rfl
  · refine checkAuxPowProofOfWork_eq_accepted w Hash (s := []) hbit₂ rfl hpow₂ rfl ?_ rfl
      (by simp [commitmentTx, inputTx, mergeMinedBlock]) hfirst hS
    rw [hroot]
    rfl

end Check

/-! ## One parent block credited to two headers -/

def siblingHeader (nNonce : UInt32) : CBlockHeader :=
  ⟨0x107, Uint256.zero, Uint256.zero, 1231006505, 0x1d00ffff, nNonce⟩

def siblingParent : CBlockHeader :=
  ⟨0x20000000, Uint256.zero, tableValue 5, 1231006505, 0x1d00ffff, 0⟩

/-- The strings the two checks hash, in the table's order: the two headers with the AuxPoW bit
cleared, the two transactions committing to them, the Merkle pair, the parent header. -/
def siblingTable : List (List UInt8) :=
  [(siblingHeader 1).clearAuxpow.serialize leCodec.toWriter,
    (siblingHeader 2).clearAuxpow.serialize leCodec.toWriter,
    (inputTx (pchAuxPowHeader ++ (tableValue 1).data.reverse)).serialize leCodec.toWriter false,
    (inputTx (pchAuxPowHeader ++ (tableValue 2).data.reverse)).serialize leCodec.toWriter false,
    (tableValue 3).data ++ (tableValue 4).data,
    siblingParent.serialize leCodec.toWriter]

def siblingHash : List UInt8 → Uint256 := tableHash siblingTable

set_option maxRecDepth 1000 in
theorem checkAuxPowProofOfWork_accepts_sibling_commitments_main :
    (checkAuxPowProofOfWork leCodec.toWriter siblingHash [] (mergeMinedBlock (siblingHeader 1)
        (commitmentTx leCodec.toWriter siblingHash (siblingHeader 1))
        [(commitmentTx leCodec.toWriter siblingHash (siblingHeader 2)).getHash leCodec.toWriter
          siblingHash] 0 siblingParent) mainParams = .accepted ∧
      checkAuxPowProofOfWork leCodec.toWriter siblingHash [] (mergeMinedBlock (siblingHeader 2)
        (commitmentTx leCodec.toWriter siblingHash (siblingHeader 2))
        [(commitmentTx leCodec.toWriter siblingHash (siblingHeader 1)).getHash leCodec.toWriter
          siblingHash] 1 siblingParent) mainParams = .accepted) ∧
    (siblingHeader 1).clearAuxpow ≠ (siblingHeader 2).clearAuxpow ∧
    siblingTable =
      [(siblingHeader 1).clearAuxpow.serialize leCodec.toWriter,
        (siblingHeader 2).clearAuxpow.serialize leCodec.toWriter,
        (commitmentTx leCodec.toWriter siblingHash (siblingHeader 1)).serialize leCodec.toWriter false,
        (commitmentTx leCodec.toWriter siblingHash (siblingHeader 2)).serialize leCodec.toWriter false,
        ((commitmentTx leCodec.toWriter siblingHash (siblingHeader 1)).getHash leCodec.toWriter
          siblingHash).data ++
        ((commitmentTx leCodec.toWriter siblingHash (siblingHeader 2)).getHash leCodec.toWriter
          siblingHash).data,
        siblingParent.serialize leCodec.toWriter] ∧
    Set.InjOn siblingHash {bs | bs ∈ siblingTable} :=
  ⟨checkAuxPowProofOfWork_accepts_sibling_commitments _ _ (by decide) (by decide) (by decide)
      (by decide) (by decide) (by decide),
    by decide, by decide, tableHash_injOn siblingTable (by decide)⟩

set_option maxRecDepth 1000 in
theorem checkAuxPowProofOfWork_accepts_mergeMined_main :
    checkAuxPowProofOfWork leCodec.toWriter siblingHash [] (mergeMinedBlock (siblingHeader 1)
        (commitmentTx leCodec.toWriter siblingHash (siblingHeader 1))
        [(commitmentTx leCodec.toWriter siblingHash (siblingHeader 2)).getHash leCodec.toWriter
          siblingHash] 0 siblingParent) mainParams = .accepted :=
  @checkAuxPowProofOfWork_accepts_mergeMined leCodec.toWriter siblingHash [] _ mainParams _ _ _ _
    [] [] [commitmentTx leCodec.toWriter siblingHash (siblingHeader 1),
      commitmentTx leCodec.toWriter siblingHash (siblingHeader 2)] 0
    (by decide) (by decide) rfl rfl rfl (by simp [commitmentTx, inputTx, mergeMinedBlock]) (by decide) rfl
    (by simp only [List.map, merkleRoot, merkleLevel]; decide)
    (by simp only [List.map, merkleBranch, merkleLevel, merkleSibling]; decide) rfl
    (by decide) (List.not_mem_nil _)

theorem checkAuxPowProofOfWork_empty_vin_undefined_main :
    checkAuxPowProofOfWork leCodec.toWriter (fun _ => Uint256.zero) []
      (mergeMinedBlock (siblingHeader 1) ⟨1, [], [], 0⟩ [] 0
        { siblingParent with hashMerkleRoot := Uint256.zero }) mainParams = .undefined :=
  checkAuxPowProofOfWork_empty_vin_undefined _ _ (by decide) rfl (by decide) rfl rfl rfl

theorem checkAuxPowProofOfWork_sound_main :
    checkProofOfWork ((mergeMinedBlock (siblingHeader 1)
        (inputTx (pchAuxPowHeader ++ Uint256.zero.data.reverse)) [] 0
        { siblingParent with hashMerkleRoot := Uint256.zero }).getPoWHash leCodec.toWriter
        fun _ => Uint256.zero) 0x1d00ffff mainParams = true :=
  (checkAuxPowProofOfWork_sound leCodec.toWriter (fun _ => Uint256.zero) (S := []) (by decide)).1

end Palladium
