import Mathlib
import Palladium.Serialize
import Palladium.BlockTemplate

/-!
# Submitting blocks and headers

`submitblock` decodes a block from hex, takes the height it would have from its parent's index
entry, and answers without touching the chain when the AuxPoW version bit disagrees with that
height, when a due proof is missing, when the first transaction is not a coinbase, or when the
block is known already as valid or as failed. Only a block past all of these reaches
`ProcessNewBlock`, and the reply then comes from the validation state it reports.
`submitheader` hands a header on only below `nAuxpowStartHeight`.

Every block that reaches `ProcessNewBlock` has its proof exactly when its version carries the
AuxPoW bit, since decoding drops the proof where the bit is clear or the proof's parent header
hashes to null; so it serializes, and reads back to itself.

The block index, `ProcessNewBlock`, `ProcessNewBlockHeaders` and `CTransaction::IsCoinBase`
are not among the sources and are fields of `SubmitNode`; `DecodeHexBlk` and
`DecodeHexBlockHeader` are modelled from the spec.
-/

namespace Palladium

section Decode

variable (c : Codec) (Hash : List UInt8 → Uint256)

/-- Modelled from the spec: `DecodeHexBlk(block, strHexBlk)`, the hex read as bytes and a
block read from their front. -/
def decodeHexBlk (strHexBlk : List Char) : Option CBlock := do
  let bytes ← hexBytes strHexBlk
  let (block, _) ← CBlock.deserialize c Hash bytes
  pure block

/-- Modelled from the spec: `DecodeHexBlockHeader(header, hex_header)`. -/
def decodeHexBlockHeader (hexHeader : List Char) : Option CBlockHeader := do
  let bytes ← hexBytes hexHeader
  let (header, _) ← CBlockHeader.deserialize c bytes
  pure header

theorem decodeHexBlk_m_auxpow {strHexBlk : List Char} {block : CBlock}
    (h : decodeHexBlk c Hash strHexBlk = some block) :
    (block.isAuxpow = false → block.m_auxpow = none) ∧
      (∀ auxpow ∈ block.m_auxpow, auxpow.coinbaseTx.isSome ∧
        (auxpow.getParentBlockHash c.toWriter Hash).isNull = false) ∧ block.Readable c.maxSize := by
  unfold decodeHexBlk at h
  obtain ⟨bytes, -, h⟩ := Option.bind_eq_some.mp h
  obtain ⟨⟨block', rest⟩, hd, h⟩ := Option.bind_eq_some.mp h
  cases h
  obtain ⟨hread, hmem⟩ := CBlock.deserialize_spec c Hash hd
  exact ⟨CBlock.deserialize_m_auxpow c Hash hd, hmem, hread⟩

end Decode

/-! ## Validation states -/

/-- Modelled from the code that reads it: the mode of a `BlockValidationState`. -/
inductive ModeState
  | mValid
  | mInvalid
  | mError
  deriving DecidableEq

/-- Modelled from the code that reads it: the results of a `BlockValidationState` that
`BIP22ValidationResult` tells apart, `other` for the rest. -/
inductive BlockValidationResult
  | blockHeaderDuplicate
  | blockInvalidHeader
  | blockInvalidPrev
  | other
  deriving DecidableEq

structure BlockValidationState where
  mode : ModeState
  result : BlockValidationResult
  rejectReason : String
  text : String

/-- `BIP22ValidationResult(state)`: `.ok none` for `NullUniValue`, `.ok (some str)` for a
string, `.error` with the text it throws. -/
def bip22ValidationResult (state : BlockValidationState) : Except String (Option String) :=
  if state.mode = .mValid then .ok none
  else if state.mode = .mError then .error state.text
  else if state.mode = .mInvalid then
    let strRejectReason := state.rejectReason
    if strRejectReason = "" then .ok (some "rejected")
    else if (state.result = .blockHeaderDuplicate ∨ state.result = .blockInvalidHeader) ∧
        strRejectReason = "duplicate" then .ok (some "duplicate")
    else if (state.result = .blockHeaderDuplicate ∨ state.result = .blockInvalidHeader) ∧
        strRejectReason = "duplicate-invalid" then .ok (some "duplicate-invalid")
    else if state.result = .blockInvalidPrev then .ok (some "inconclusive-not-best-prevblk")
    else .ok (some strRejectReason)
  else .ok (some "valid?")

theorem bip22ValidationResult_eq (state : BlockValidationState) :
    bip22ValidationResult state =
      match state.mode with
      | .mValid => .ok none
      | .mError => .error state.text
      | .mInvalid =>
        if state.rejectReason = "" then .ok (some "rejected")
        else if state.result = .blockInvalidPrev then .ok (some "inconclusive-not-best-prevblk")
        else .ok (some state.rejectReason) := by
  obtain ⟨mode, result, reason, text⟩ := state
  cases mode <;> simp only [bip22ValidationResult, reduceCtorEq, if_true, if_false]
  split_ifs <;> simp_all

/-! ## The node -/

/-- What the submission calls read of a `CBlockIndex`: `nHeight`,
`IsValid(BLOCK_VALID_SCRIPTS)`, and whether `nStatus & BLOCK_FAILED_MASK` is set. -/
structure CBlockIndexStatus where
  nHeight : Int
  validScripts : Bool
  failed : Bool

/-- The node behind the submission calls, in the state `σ`: `LookupBlockIndex`,
`CTransaction::IsCoinBase`, `ProcessNewBlock` (the next state, whether it accepted the block,
`new_block`, and the state `BlockChecked` reported for the block's hash if it was called),
`ProcessNewBlockHeaders` (the next state, its result and its state), and the network's
`hashGenesisBlock` and `nAuxpowStartHeight`. -/
structure SubmitNode (σ : Type) where
  lookupBlockIndex : σ → Uint256 → Option CBlockIndexStatus
  isCoinBase : CTransaction → Bool
  processNewBlock : σ → CBlock → σ × Bool × Bool × Option BlockValidationState
  processNewBlockHeaders : σ → CBlockHeader → σ × Bool × BlockValidationState
  hashGenesisBlock : Uint256
  nAuxpowStartHeight : Int

section Submit

variable (c : Codec) (Hash : List UInt8 → Uint256) {σ : Type} (node : SubmitNode σ)

/-- The height `submitblock` and `submitheader` give a block or header: one above its parent's
index entry, 0 for the genesis hash, and otherwise the error each throws. -/
def heightFromParent (s : σ) (hashPrevBlock hash : Uint256) (strError : String) :
    Except String Int :=
  match node.lookupBlockIndex s hashPrevBlock with
  | some pindexPrev => .ok (pindexPrev.nHeight + 1)
  | none => if hash = node.hashGenesisBlock then .ok 0 else .error strError

def submitblockChecks (s : σ) (hexdata : List Char) :
    Except (Except String (Option String)) CBlock :=
  match decodeHexBlk c Hash hexdata with
  | none => .error (.error "Block decode failed")
  | some block =>
    let fBlockHasAuxPow := block.isAuxpow
    let hash := block.getHash c.toWriter Hash
    match heightFromParent node s block.hashPrevBlock hash
        "Block rejected: previous block not known" with
    | .error e => .error (.error e)
    | .ok nHeight =>
      let fShouldHaveAuxPow := decide (nHeight ≥ node.nAuxpowStartHeight)
      if fShouldHaveAuxPow && !fBlockHasAuxPow then
        .error (.ok (some "rejected: bad-auxpow-version-missing"))
      else if !fShouldHaveAuxPow && fBlockHasAuxPow then
        .error (.ok (some "rejected: bad-auxpow-unexpected"))
      else if fShouldHaveAuxPow && block.m_auxpow.isNone then
        .error (.ok (some "rejected: bad-auxpow-data-missing"))
      else if !(block.vtx.head?.any node.isCoinBase) then
        .error (.ok (some "rejected: bad-cb-missing"))
      else if (node.lookupBlockIndex s hash).any (·.validScripts) then
        .error (.ok (some "duplicate"))
      else if (node.lookupBlockIndex s hash).any (·.failed) then
        .error (.ok (some "duplicate-invalid"))
      else if (node.lookupBlockIndex s block.hashPrevBlock).isNone then
        .error (.ok (some "inconclusive - not-best-prevblk"))
      else .ok block

/-- `submitblock(hexdata)` on the node state `s`: the next state and the reply, `.ok none` for
`NullUniValue` and `.error` for what it throws. -/
def submitblock (s : σ) (hexdata : List Char) : σ × Except String (Option String) :=
  match submitblockChecks c Hash node s hexdata with
  | .error reply => (s, reply)
  | .ok block =>
    let (s, accepted, newBlock, found) := node.processNewBlock s block
    match found with
    | some state => (s, bip22ValidationResult state)
    | none =>
      if !accepted then (s, .ok (some "rejected"))
      else if !newBlock then (s, .ok (some "duplicate"))
      else (s, .ok none)

def submitheader (s : σ) (hexdata : List Char) : σ × Except String Unit :=
  match decodeHexBlockHeader c hexdata with
  | none => (s, .error "Block header decode failed")
  | some h =>
    match heightFromParent node s h.hashPrevBlock (h.getHash c.toWriter Hash)
        "Submitheader rejected: previous block not known" with
    | .error e => (s, .error e)
    | .ok nHeight =>
      if nHeight ≥ node.nAuxpowStartHeight then
        (s, .error "Submitheader is incompatible with active AuxPoW")
      else
        let (s, accepted, state) := node.processNewBlockHeaders s h
        if !accepted && decide (state.mode = .mInvalid) then (s, .error state.text)
        else (s, .ok ())

/-! ## What reaches block processing -/

theorem auxpowChecks_pass (fShouldHaveAuxPow fBlockHasAuxPow : Bool) (m_auxpow : Option CAuxPow) :
    (fShouldHaveAuxPow && !fBlockHasAuxPow) = false ∧ (!fShouldHaveAuxPow && fBlockHasAuxPow) = false ∧
        (fShouldHaveAuxPow && m_auxpow.isNone) = false ↔
      fBlockHasAuxPow = fShouldHaveAuxPow ∧ (fBlockHasAuxPow = true → m_auxpow.isSome) := by
  cases fShouldHaveAuxPow <;> cases fBlockHasAuxPow <;> cases m_auxpow <;> simp

theorem ite_error_eq_ok {ε α : Type} {c : Prop} [Decidable c] {r : ε} {x : Except ε α} {a : α} :
    (if c then .error r else x) = .ok a ↔ ¬c ∧ x = .ok a := by
  split_ifs with hc <;> simp [hc]

theorem submitblockChecks_ok_spec {s : σ} {hexdata : List Char} {block : CBlock}
    (h : submitblockChecks c Hash node s hexdata = .ok block) :
      decodeHexBlk c Hash hexdata = some block ∧
      ∃ pindexPrev, node.lookupBlockIndex s block.hashPrevBlock = some pindexPrev ∧
        block.isAuxpow = decide (pindexPrev.nHeight + 1 ≥ node.nAuxpowStartHeight) ∧
        (block.isAuxpow = true → block.m_auxpow.isSome) ∧
        block.vtx.head?.any node.isCoinBase = true ∧
        ∀ pindex, node.lookupBlockIndex s (block.getHash c.toWriter Hash) = some pindex →
          pindex.validScripts = false ∧ pindex.failed = false := by
  unfold submitblockChecks at h
  rcases hd : decodeHexBlk c Hash hexdata with _ | b <;> simp only [hd] at h
  · cases h
  rcases hp : node.lookupBlockIndex s b.hashPrevBlock with _ | p <;>
    simp only [heightFromParent, hp, Option.isNone_none, ite_error_eq_ok] at h
  · split at h
    · cases h
    · simp only [ite_error_eq_ok] at h
      exact (h.2.2.2.2.2.2.1 trivial).elim
  obtain ⟨h1, h2, h3, h4, h5, h6, -, hb⟩ := h
  cases hb
  obtain ⟨hbit, hproof⟩ := (auxpowChecks_pass _ _ _).mp
    ⟨Bool.eq_false_iff.mpr h1, Bool.eq_false_iff.mpr h2, Bool.eq_false_iff.mpr h3⟩
  refine ⟨rfl, p, hp, hbit, hproof, by simpa using h4, fun pindex hl => ?_⟩
  rw [hl] at h5 h6
  exact ⟨by simpa using h5, by simpa using h6⟩

theorem submitblockChecks_eq_ok {s : σ} {hexdata : List Char} {block : CBlock} :
    submitblockChecks c Hash node s hexdata = .ok block ↔
      decodeHexBlk c Hash hexdata = some block ∧
      ∃ pindexPrev, node.lookupBlockIndex s block.hashPrevBlock = some pindexPrev ∧
        block.isAuxpow = decide (pindexPrev.nHeight + 1 ≥ node.nAuxpowStartHeight) ∧
        (block.isAuxpow = true → block.m_auxpow.isSome) ∧
        block.vtx.head?.any node.isCoinBase = true ∧
        ∀ pindex, node.lookupBlockIndex s (block.getHash c.toWriter Hash) = some pindex →
          pindex.validScripts = false ∧ pindex.failed = false := by
  refine ⟨submitblockChecks_ok_spec c Hash node, ?_⟩
  rintro ⟨hd, p, hp, hbit, hproof, hcb, hdup⟩
  obtain ⟨h1, h2, h3⟩ := (auxpowChecks_pass _ _ _).mpr ⟨hbit, hproof⟩
  have h5 : (node.lookupBlockIndex s (block.getHash c.toWriter Hash)).any (·.validScripts) = false ∧
      (node.lookupBlockIndex s (block.getHash c.toWriter Hash)).any (·.failed) = false := by
    cases hl : node.lookupBlockIndex s (block.getHash c.toWriter Hash) with
    | none => exact ⟨rfl, rfl⟩
    | some pindex => simpa using hdup pindex hl
  simp only [submitblockChecks, hd, heightFromParent, hp, h1, h2, h3, hcb, h5.1, h5.2,
    Option.isNone_some, Bool.not_true, Bool.false_eq_true, if_false]

theorem submitheader_state (s : σ) (hexdata : List Char) :
    (submitheader c Hash node s hexdata).1 = s ∨
      ∃ h nHeight, decodeHexBlockHeader c hexdata = some h ∧
        heightFromParent node s h.hashPrevBlock (h.getHash c.toWriter Hash)
          "Submitheader rejected: previous block not known" = .ok nHeight ∧
        nHeight < node.nAuxpowStartHeight ∧
        (submitheader c Hash node s hexdata).1 = (node.processNewBlockHeaders s h).1 := by
  unfold submitheader
  cases hd : decodeHexBlockHeader c hexdata with
  | none => exact .inl rfl
  | some h =>
    cases hh : heightFromParent node s h.hashPrevBlock (h.getHash c.toWriter Hash)
      "Submitheader rejected: previous block not known" with
    | error e => exact .inl (by simp only [hh])
    | ok nHeight =>
      by_cases hstart : nHeight ≥ node.nAuxpowStartHeight
      · exact .inl (by simp only [hh, if_pos hstart])
      · refine .inr ⟨h, nHeight, rfl, hh, by omega, ?_⟩
        simp only [hh, if_neg hstart]
        split_ifs <;> rfl

/-! ## A merge-mined submission -/

def auxBlockHex : List Char := ((auxBlock.serialize leCodec.toWriter).getD []).flatMap hexByte

def oneHash (_ : List UInt8) : Uint256 := ⟨leBytes 32 1, length_leBytes 32 1⟩

def auxNode : SubmitNode Unit where
  lookupBlockIndex _ hash := if hash = Uint256.zero then some ⟨28999, false, false⟩ else none
  isCoinBase _ := true
  processNewBlock s _ := (s, true, true, none)
  processNewBlockHeaders s _ := (s, true, ⟨.mValid, .other, "", "Valid"⟩)
  hashGenesisBlock := Uint256.zero
  nAuxpowStartHeight := 29000

theorem submitblockChecks_roundTrip {s : σ} {hexdata : List Char} {block : CBlock}
    (h : submitblockChecks c Hash node s hexdata = .ok block) :
    block.m_auxpow.isSome = block.isAuxpow ∧
      ∃ bytes, block.serialize c.toWriter = some bytes ∧
        ∀ rest, CBlock.deserialize c Hash (bytes ++ rest) = some (block, rest) := by
  obtain ⟨hd, -, -, -, hproof, -⟩ := submitblockChecks_ok_spec c Hash node h
  obtain ⟨hclear, hmem, hread⟩ := decodeHexBlk_m_auxpow c Hash hd
  have hslot : block.m_auxpow.isSome = block.isAuxpow := by
    cases hb : block.isAuxpow
    · simp [hclear hb]
    · exact hproof hb
  obtain ⟨bytes, hbytes⟩ := Option.isSome_iff_exists.mp
    (CBlock.serialize_isSome c.toWriter hslot fun a ha => (hmem a ha).1)
  exact ⟨hslot, bytes, hbytes,
    CBlock.deserialize_of_serialize c Hash hslot (fun a ha => (hmem a ha).2) hread hbytes⟩

set_option maxRecDepth 4000 in
theorem auxBlock_submitblockChecks :
    submitblockChecks leCodec oneHash auxNode () auxBlockHex = .ok auxBlock ∧
      auxBlock.m_auxpow.isSome = auxBlock.isAuxpow ∧
      ∃ bytes, auxBlock.serialize leCodec.toWriter = some bytes ∧
        ∀ rest, CBlock.deserialize leCodec oneHash (bytes ++ rest) = some (auxBlock, rest) :=
  have h : submitblockChecks leCodec oneHash auxNode () auxBlockHex = .ok auxBlock := by rfl
  ⟨h, submitblockChecks_roundTrip leCodec oneHash auxNode h⟩

end Submit

end Palladium
