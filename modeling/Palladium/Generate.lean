import Mathlib
import Palladium.Pow
import Palladium.Primitives
import Palladium.UniValue

/-!
# The CPU miner of the generate RPCs

`generateBlocks` asks the block assembler for a template, sets its extra nonce, and tries
nonces upward from the template's until the header's hash meets its target, the tries run
out, the nonce reaches `0xffffffff` or a shutdown is requested. A solved block goes to
`ProcessNewBlock`; a template whose nonces ran out is dropped for a fresh one. All blocks of a
call share one budget of `nMaxTries` failed checks.

Every hash the loop returns is that of an accepted block carrying the first nonce, upward from
its template's, whose header meets the target. When templates start at nonce 0, as
`CreateNewBlock` makes them, the loop ends within `nGenerate + nMaxTries + 1` passes, and a
larger budget only adds blocks after the same ones. `generatetoaddress` checks its arguments,
the network, the address and the mempool first; the AuxPoW guard of the loop never fires from
it.
-/

namespace Palladium

def CBlock.withNonce (pblock : CBlock) (n : Nat) : CBlock := { pblock with nNonce := UInt32.ofNat n }

namespace CBlock

@[simp] theorem withNonce_self (pblock : CBlock) : pblock.withNonce pblock.nNonce.toNat = pblock := by
  have h : UInt32.ofNat pblock.nNonce.toNat = pblock.nNonce :=
    UInt32.ext (Nat.mod_eq_of_lt pblock.nNonce.toNat_lt)
  rw [withNonce, h]

@[simp] theorem withNonce_withNonce (pblock : CBlock) (n m : Nat) :
    (pblock.withNonce n).withNonce m = pblock.withNonce m := rfl

theorem toNat_withNonce {n : Nat} (h : n < 2 ^ 32) (pblock : CBlock) :
    (pblock.withNonce n).nNonce.toNat = n := Nat.mod_eq_of_lt h

theorem nonce_succ (pblock : CBlock) :
    { pblock with nNonce := pblock.nNonce + 1 } = pblock.withNonce (pblock.nNonce.toNat + 1) := by
  have h : pblock.nNonce + 1 = UInt32.ofNat (pblock.nNonce.toNat + 1) :=
    UInt32.ext (by rw [UInt32.toNat_add]; rfl)
  rw [withNonce, h]

end CBlock

section Miner

variable (w : Writer) (Hash : List UInt8 → Uint256) (params : ConsensusParams)

/-- `CheckProofOfWork(pblock->GetHash(), pblock->nBits, consensusParams)`: the block's own
header hash, whatever its version bits. -/
def solves (pblock : CBlock) : Bool :=
  checkProofOfWork (pblock.toCBlockHeader.getHash w Hash) pblock.nBits params

/-- The nonce loop of `generateBlocks` with `nMaxTries` tries left: the tries left and the block
when it stops. -/
def scanNonces (shutdown : Bool) : Nat → CBlock → Nat × CBlock
  | 0, pblock => (0, pblock)
  | nMaxTries + 1, pblock =>
    if pblock.nNonce < 0xffffffff ∧ shutdown = false then
      if solves w Hash params pblock then (nMaxTries + 1, pblock)
      else scanNonces shutdown nMaxTries { pblock with nNonce := pblock.nNonce + 1 }
    else (nMaxTries + 1, pblock)

theorem scanNonces_spec (shutdown : Bool) : ∀ (nMaxTries : Nat) (pblock : CBlock),
    ∃ k ≤ nMaxTries, pblock.nNonce.toNat + k ≤ 0xffffffff ∧
      scanNonces w Hash params shutdown nMaxTries pblock =
        (nMaxTries - k, pblock.withNonce (pblock.nNonce.toNat + k)) ∧
      (∀ i < k, solves w Hash params (pblock.withNonce (pblock.nNonce.toNat + i)) = false) ∧
      (k < nMaxTries → pblock.nNonce.toNat + k < 0xffffffff → shutdown = false →
        solves w Hash params (pblock.withNonce (pblock.nNonce.toNat + k)) = true)
  | 0, pblock => ⟨0, le_rfl, by have := pblock.nNonce.toNat_lt; omega, by simp [scanNonces],
      fun _ hi => absurd hi (Nat.not_lt_zero _), fun h => absurd h (Nat.lt_irrefl _)⟩
  | nMaxTries + 1, pblock => by
    have hlt := pblock.nNonce.toNat_lt
    by_cases hgo : pblock.nNonce < 0xffffffff ∧ shutdown = false
    · have hmax : pblock.nNonce.toNat < 0xffffffff := hgo.1
      by_cases hsolve : solves w Hash params pblock = true
      · refine ⟨0, by omega, by omega, ?_, fun _ hi => absurd hi (Nat.not_lt_zero _), fun _ _ _ => ?_⟩
        · simp [scanNonces, hgo, hsolve]
        · simpa using hsolve
      · obtain ⟨k, hk, hle, heq, hfail, hlast⟩ :=
          scanNonces_spec shutdown nMaxTries (pblock.withNonce (pblock.nNonce.toNat + 1))
        rw [CBlock.toNat_withNonce (by omega)] at hle heq hfail hlast
        refine ⟨k + 1, by omega, by omega, ?_, fun i hi => ?_, fun h₁ h₂ h₃ => ?_⟩
        · rw [scanNonces, if_pos hgo, if_neg hsolve, CBlock.nonce_succ, heq,
            CBlock.withNonce_withNonce]
          rw [Nat.add_assoc, Nat.add_comm 1 k, Nat.add_sub_add_right]
        · rcases i with _ | i
          · simpa using hsolve
          · simpa [Nat.add_assoc, Nat.add_comm 1] using hfail i (by omega)
        · simpa [Nat.add_assoc, Nat.add_comm 1] using hlast (by omega) (by omega) h₃
    · refine ⟨0, by omega, by omega, ?_, fun _ hi => absurd hi (Nat.not_lt_zero _),
        fun _ h₂ h₃ => absurd ⟨(by simpa using h₂ : pblock.nNonce.toNat < 0xffffffff), h₃⟩ hgo⟩
      simp [scanNonces, hgo]

/-- What `generateBlocks` asks of the node, in the state `σ`: `ChainActive().Height()`,
`BlockAssembler::CreateNewBlock` for the call's coinbase script (`none` where it throws,
`some none` for a null template), `IncrementExtraNonce` at the tip, and `ProcessNewBlock`
(`none` where it returns false); with the network's `nAuxpowStartHeight`, whether it is
regression testing, whether it runs a mempool, and `ShutdownRequested()`, taken as fixed for
the call. -/
structure MinerNode (σ : Type) where
  height : σ → Int
  createNewBlock : σ → Option (Option CBlock)
  incrementExtraNonce : σ → CBlock → Nat → CBlock × Nat
  processNewBlock : σ → CBlock → Option σ
  nAuxpowStartHeight : Int
  regtest : Bool
  mempool : Bool
  shutdownRequested : Bool

inductive GenerateStep (σ : Type)
  | done (result : Except String (List Uint256))
  | next (s : σ) (nHeight : Int) (nExtraNonce nMaxTries : Nat) (blockHashes : List Uint256)

variable {σ : Type} (node : MinerNode σ)

/-- One pass through the body of `generateBlocks`' `while` loop. The `UpdateTime` before
`continue` changes only the template the next pass replaces. -/
def generateRound (s : σ) (nHeight : Int) (nExtraNonce nMaxTries : Nat)
    (blockHashes : List Uint256) : GenerateStep σ :=
  if node.height s + 1 ≥ node.nAuxpowStartHeight ∧ node.regtest = false then
    .done (.error
      "Cannot generate blocks via RPC when AuxPoW is active on this network. Use an external miner.")
  else
    match node.createNewBlock s with
    | none => .done (.error "Could not create block template")
    | some none => .done (.error "Couldn\x27t create new block")
    | some (some pblock) =>
      let (pblock, nExtraNonce) := node.incrementExtraNonce s pblock nExtraNonce
      let (nMaxTries, pblock) := scanNonces w Hash params node.shutdownRequested nMaxTries pblock
      if nMaxTries = 0 ∨ node.shutdownRequested = true then .done (.ok blockHashes)
      else if pblock.nNonce = 0xffffffff then .next s nHeight nExtraNonce nMaxTries blockHashes
      else
        match node.processNewBlock s pblock with
        | none => .done (.error "ProcessNewBlock, block not accepted")
        | some s =>
          .next s (nHeight + 1) nExtraNonce nMaxTries (blockHashes ++ [pblock.getHash w Hash])

/-- The `while (nHeight < nHeightEnd && !ShutdownRequested())` loop, for at most `fuel`
passes; `none` where the passes run out. -/
def generateLoop (nHeightEnd : Int) : Nat → σ → Int → Nat → Nat → List Uint256 →
    Option (Except String (List Uint256))
  | 0, _, _, _, _, _ => none
  | fuel + 1, s, nHeight, nExtraNonce, nMaxTries, blockHashes =>
    if nHeight < nHeightEnd ∧ node.shutdownRequested = false then
      match generateRound w Hash params node s nHeight nExtraNonce nMaxTries blockHashes with
      | .done result => some result
      | .next s nHeight nExtraNonce nMaxTries blockHashes =>
        generateLoop nHeightEnd fuel s nHeight nExtraNonce nMaxTries blockHashes
    else some (.ok blockHashes)

def generateBlocks (fuel : Nat) (s : σ) (nGenerate : Int) (nMaxTries : Nat) :
    Option (Except String (List Uint256)) :=
  generateLoop w Hash params node (node.height s + nGenerate) fuel s (node.height s) 0 nMaxTries []

/-- `EnsureMemPool()`, not among the sources: it throws where the node runs without a mempool. -/
def ensureMemPool : Except String Unit :=
  rpcAssert node.mempool "Mempool disabled or instance not found"

def generatetoaddressHelp (helpText : String) : RPCHelpMan :=
  ⟨helpText, [⟨"nblocks", false⟩, ⟨"address", false⟩, ⟨"maxtries", true⟩]⟩

def maxTriesArg (maxtries : UniValue) : Except String Int :=
  if maxtries.isNull then .ok 1000000 else maxtries.getInt64

/-- `generatetoaddress` up to its call of `generateBlocks`: `nGenerate`, and `nMaxTries` as the
`uint64_t` the `int64_t` argument converts to. `isValidDestination` is
`IsValidDestination(DecodeDestination(·))`. -/
def generatetoaddressArgs (helpText : String) (isValidDestination : String → Bool)
    (request : JSONRPCRequest) : Except String (Int × Nat) := do
  (generatetoaddressHelp helpText).check request
  rpcAssert node.regtest "generatetoaddress can only be used on regtest."
  let nGenerate ← (request.param 0).getInt
  let nMaxTries ← maxTriesArg (request.param 2)
  let address ← (request.param 1).getStr
  rpcAssert (isValidDestination address) "Error: Invalid address"
  ensureMemPool node
  pure (nGenerate, (nMaxTries % 2 ^ 64).toNat)

def generatetoaddress (helpText : String) (isValidDestination : String → Bool) (fuel : Nat)
    (s : σ) (request : JSONRPCRequest) : Option (Except String (List Uint256)) :=
  match generatetoaddressArgs node helpText isValidDestination request with
  | .error e => some (.error e)
  | .ok (nGenerate, nMaxTries) => generateBlocks w Hash params node fuel s nGenerate nMaxTries

/-! ## A regression-test node -/

/-- A writer that puts each 32-bit field down as its low byte, so that a header's bytes end in
its nonce's. -/
def lowByteWriter : Writer where
  int32 _ := []
  uint32 n := [n.toUInt8]
  int64 _ := []
  uint256 _ := []
  compactSize _ := []

/-- A hash under every target for bytes that end in 3, above every target otherwise. -/
def nonceThreeHash (bytes : List UInt8) : Uint256 :=
  if bytes.getLast? = some 3 then Uint256.zero else ⟨List.replicate 32 0xff, rfl⟩

def regTestTemplate : CBlock where
  nVersion := 1
  hashPrevBlock := Uint256.zero
  hashMerkleRoot := Uint256.zero
  nTime := 1296688602
  nBits := 0x207fffff
  nNonce := 0
  vtx := []
  m_auxpow := none

def countingNode : MinerNode Nat where
  height n := n
  createNewBlock _ := some (some regTestTemplate)
  incrementExtraNonce _ pblock x := (pblock, x + 1)
  processNewBlock n _ := some (n + 1)
  nAuxpowStartHeight := 1000000
  regtest := true
  mempool := true
  shutdownRequested := false

/-! ## One pass of the loop -/

/-- `pblock` is a block `generateBlocks` mines at the node state `s`: the template assembled
there with its extra nonce set, carrying the first nonce upward from the template's whose header
meets its target, below `0xffffffff`; and `ProcessNewBlock` accepts it. -/
def MinedAt (s : σ) (pblock : CBlock) : Prop :=
  ∃ tmpl x start k, node.createNewBlock s = some (some tmpl) ∧
    (node.incrementExtraNonce s tmpl x).1 = start ∧ start.nNonce.toNat + k < 0xffffffff ∧
    pblock = start.withNonce (start.nNonce.toNat + k) ∧ solves w Hash params pblock = true ∧
    (∀ i < k, solves w Hash params (start.withNonce (start.nNonce.toNat + i)) = false) ∧
    (node.processNewBlock s pblock).isSome

theorem generateRound_next_cases {s s' : σ} {nHeight nHeight' : Int} {x x' t t' : Nat}
    {acc acc' : List Uint256}
    (h : generateRound w Hash params node s nHeight x t acc = .next s' nHeight' x' t' acc') :
    node.shutdownRequested = false ∧ t' ≠ 0 ∧ t' ≤ t ∧
      ((s' = s ∧ nHeight' = nHeight ∧ acc' = acc ∧ ∃ tmpl, node.createNewBlock s = some (some tmpl) ∧
          t' + (0xffffffff - (node.incrementExtraNonce s tmpl x).1.nNonce.toNat) = t) ∨
        (nHeight' = nHeight + 1 ∧ ∃ pblock, MinedAt w Hash params node s pblock ∧
          acc' = acc ++ [pblock.getHash w Hash])) := by
  unfold generateRound at h
  split_ifs at h
  split at h
  · cases h
  · cases h
  · rename_i tmpl hc
    rcases hinc : node.incrementExtraNonce s tmpl x with ⟨start, x₁⟩
    obtain ⟨k, hk, hle, hscan, hfail, hlast⟩ :=
      scanNonces_spec w Hash params node.shutdownRequested t start
    have hlt := start.nNonce.toNat_lt
    simp only [hinc, hscan] at h
    by_cases hstop : t - k = 0 ∨ node.shutdownRequested = true
    · rw [if_pos hstop] at h; cases h
    have hsd : node.shutdownRequested = false := Bool.eq_false_iff.mpr fun h => hstop (.inr h)
    have htk : t - k ≠ 0 := fun h => hstop (.inl h)
    rw [if_neg hstop] at h
    split_ifs at h with hmax
    · cases h
      have hk' : start.nNonce.toNat + k = 0xffffffff :=
        (CBlock.toNat_withNonce (by omega) start).symm.trans (congrArg UInt32.toNat hmax)
      refine ⟨hsd, htk, by omega, .inl ⟨rfl, rfl, rfl, tmpl, hc, ?_⟩⟩
      simp only [hinc]; omega
    · split at h
      · cases h
      · rename_i hps
        cases h
        have hk' : start.nNonce.toNat + k ≠ 0xffffffff := fun he =>
          hmax (UInt32.ext ((CBlock.toNat_withNonce (by omega) start).trans he))
        refine ⟨hsd, htk, by omega, .inr ⟨rfl, _, ⟨tmpl, x, start, k, hc, by rw [hinc], by omega,
          rfl, hlast (by omega) (by omega) hsd, hfail, by rw [hps]; rfl⟩, rfl⟩⟩

theorem generateRound_done_ok {s : σ} {nHeight : Int} {x t : Nat} {acc hashes : List Uint256}
    (h : generateRound w Hash params node s nHeight x t acc = .done (.ok hashes)) : hashes = acc := by
  unfold generateRound at h
  split_ifs at h
  · cases h
  split at h
  · cases h
  · cases h
  · simp only at h
    split_ifs at h
    · cases h; rfl
    · split at h <;> cases h

/-! ## Whole runs -/

theorem generateLoop_mined {nHeightEnd : Int} : ∀ {fuel : Nat} {s : σ} {nHeight : Int}
    {x t : Nat} {acc hashes : List Uint256},
    generateLoop w Hash params node nHeightEnd fuel s nHeight x t acc = some (.ok hashes) →
    ∃ mined, hashes = acc ++ mined ∧ mined.length ≤ (nHeightEnd - nHeight).toNat ∧
      ∀ hash ∈ mined, ∃ s pblock, MinedAt w Hash params node s pblock ∧ hash = pblock.getHash w Hash
  | 0, _, _, _, _, _, _, h => by cases h
  | fuel + 1, s, nHeight, x, t, acc, hashes, h => by
    rw [generateLoop] at h
    split_ifs at h with hgo
    · split at h
      · rename_i hr
        cases h
        exact ⟨[], by rw [generateRound_done_ok w Hash params node hr, List.append_nil], by simp,
          by simp⟩
      · rename_i hr
        obtain ⟨mined, rfl, hlen, hmined⟩ := generateLoop_mined h
        obtain ⟨-, -, -, ⟨rfl, rfl, rfl, -⟩ | ⟨rfl, pblock, hp, rfl⟩⟩ :=
          generateRound_next_cases w Hash params node hr
        · exact ⟨mined, rfl, hlen, hmined⟩
        · refine ⟨pblock.getHash w Hash :: mined, by simp, by simp only [List.length_cons]; omega, ?_⟩
          rintro hash (_ | ⟨_, hm⟩)
          · exact ⟨_, pblock, hp, rfl⟩
          · exact hmined hash hm
    · cases h
      exact ⟨[], by simp, by simp, by simp⟩

theorem generateBlocks_mined {fuel : Nat} {s : σ} {nGenerate : Int} {nMaxTries : Nat}
    {hashes : List Uint256}
    (h : generateBlocks w Hash params node fuel s nGenerate nMaxTries = some (.ok hashes)) :
    hashes.length ≤ nGenerate.toNat ∧
      ∀ hash ∈ hashes, ∃ s pblock, MinedAt w Hash params node s pblock ∧ hash = pblock.getHash w Hash := by
  obtain ⟨mined, rfl, hlen, hmined⟩ := generateLoop_mined w Hash params node h
  exact ⟨by omega, fun hash hm => hmined hash (by simpa using hm)⟩

theorem countingNode_mines_two :
    generateBlocks lowByteWriter nonceThreeHash regTestParams countingNode 3 0 2 10 =
        some (.ok [Uint256.zero, Uint256.zero]) ∧
      [Uint256.zero, Uint256.zero].length ≤ (2 : Int).toNat ∧
      ∀ hash ∈ [Uint256.zero, Uint256.zero], ∃ s pblock,
        MinedAt lowByteWriter nonceThreeHash regTestParams countingNode s pblock ∧
          hash = pblock.getHash lowByteWriter nonceThreeHash :=
  have h : generateBlocks lowByteWriter nonceThreeHash regTestParams countingNode 3 0 2 10 =
      some (.ok [Uint256.zero, Uint256.zero]) := by rfl
  ⟨h, generateBlocks_mined lowByteWriter nonceThreeHash regTestParams countingNode h⟩

theorem generateLoop_fuel_mono {nHeightEnd : Int} : ∀ {fuel fuel' : Nat} {s : σ} {nHeight : Int}
    {x t : Nat} {acc : List Uint256} {r : Except String (List Uint256)}, fuel ≤ fuel' →
    generateLoop w Hash params node nHeightEnd fuel s nHeight x t acc = some r →
    generateLoop w Hash params node nHeightEnd fuel' s nHeight x t acc = some r
  | 0, _, _, _, _, _, _, _, _, h => by cases h
  | fuel + 1, fuel', s, nHeight, x, t, acc, r, hle, h => by
    obtain ⟨f, rfl⟩ : ∃ f, fuel' = f + 1 := ⟨fuel' - 1, by omega⟩
    rw [generateLoop] at h ⊢
    split_ifs at h ⊢
    · rcases hr : generateRound w Hash params node s nHeight x t acc with _ | ⟨s', H', x', t', acc'⟩ <;>
        simp only [hr] at h ⊢
      · exact h
      · exact generateLoop_fuel_mono (by omega) h
    · exact h

/-! ## Termination -/

/-- The node assembles templates as `CreateNewBlock` does, at nonce 0, and `IncrementExtraNonce`
leaves the nonce alone. -/
def MinerNode.FreshTemplates (node : MinerNode σ) : Prop :=
  (∀ s tmpl, node.createNewBlock s = some (some tmpl) → tmpl.nNonce = 0) ∧
    ∀ s tmpl x, (node.incrementExtraNonce s tmpl x).1.nNonce = tmpl.nNonce

theorem countingNode_freshTemplates : countingNode.FreshTemplates :=
  ⟨fun _ _ h => by cases h; rfl, fun _ _ _ => rfl⟩

theorem generateLoop_returns (hfresh : node.FreshTemplates) {nHeightEnd : Int} :
    ∀ {fuel : Nat} {s : σ} {nHeight : Int} {x t : Nat} {acc : List Uint256},
    (nHeightEnd - nHeight).toNat + t < fuel →
    ∃ r, generateLoop w Hash params node nHeightEnd fuel s nHeight x t acc = some r
  | 0, _, _, _, _, _, hf => absurd hf (Nat.not_lt_zero _)
  | fuel + 1, s, nHeight, x, t, acc, hf => by
    rw [generateLoop]
    split_ifs with hgo
    · rcases hr : generateRound w Hash params node s nHeight x t acc with r | ⟨s', H', x', t', acc'⟩
      · exact ⟨r, rfl⟩
      · apply generateLoop_returns hfresh
        obtain ⟨-, -, htt, ⟨-, rfl, -, tmpl, hc, hused⟩ | ⟨rfl, -⟩⟩ :=
          generateRound_next_cases w Hash params node hr
        · rw [hfresh.2, hfresh.1 s tmpl hc] at hused
          have : (0 : UInt32).toNat = 0 := rfl
          omega
        · omega
    · exact ⟨_, rfl⟩

theorem generateBlocks_returns (hfresh : node.FreshTemplates) (s : σ) (nGenerate : Int)
    (nMaxTries : Nat) :
    ∃ r, ∀ fuel, nGenerate.toNat + nMaxTries < fuel →
      generateBlocks w Hash params node fuel s nGenerate nMaxTries = some r := by
  obtain ⟨r, hr⟩ : ∃ r, generateLoop w Hash params node (node.height s + nGenerate)
      (nGenerate.toNat + nMaxTries + 1) s (node.height s) 0 nMaxTries [] = some r :=
    generateLoop_returns w Hash params node hfresh (by omega)
  exact ⟨r, fun fuel hf => generateLoop_fuel_mono w Hash params node hf hr⟩

theorem countingNode_returns :
    countingNode.FreshTemplates ∧ ∃ r, ∀ fuel, (2 : Int).toNat + 10 < fuel →
      generateBlocks lowByteWriter nonceThreeHash regTestParams countingNode fuel 0 2 10 = some r :=
  ⟨countingNode_freshTemplates, generateBlocks_returns lowByteWriter nonceThreeHash regTestParams
    countingNode countingNode_freshTemplates 0 2 10⟩

/-! ## A larger budget -/

theorem scanNonces_add (shutdown : Bool) (d : Nat) : ∀ (nMaxTries : Nat) (pblock : CBlock),
    (scanNonces w Hash params shutdown nMaxTries pblock).1 ≠ 0 →
    scanNonces w Hash params shutdown (nMaxTries + d) pblock =
      ((scanNonces w Hash params shutdown nMaxTries pblock).1 + d,
        (scanNonces w Hash params shutdown nMaxTries pblock).2)
  | 0, _, h => absurd rfl h
  | nMaxTries + 1, pblock, h => by
    rw [Nat.add_right_comm]
    simp only [scanNonces] at h ⊢
    split_ifs at h ⊢
    · exact Prod.ext (Nat.add_right_comm _ _ _).symm rfl
    · exact scanNonces_add shutdown d nMaxTries _ h
    · exact Prod.ext (Nat.add_right_comm _ _ _).symm rfl

theorem generateRound_add_tries (d : Nat) {s s' : σ} {nHeight nHeight' : Int} {x x' t t' : Nat}
    {acc acc' : List Uint256}
    (h : generateRound w Hash params node s nHeight x t acc = .next s' nHeight' x' t' acc') :
    generateRound w Hash params node s nHeight x (t + d) acc = .next s' nHeight' x' (t' + d) acc' := by
  unfold generateRound at h ⊢
  split_ifs at h ⊢
  rcases hc : node.createNewBlock s with _ | _ | tmpl <;> simp only [hc] at h ⊢
  · cases h
  · cases h
  rcases hinc : node.incrementExtraNonce s tmpl x with ⟨start, x₁⟩
  rcases hscan : scanNonces w Hash params node.shutdownRequested t start with ⟨t₁, pblock⟩
  simp only [hinc, hscan] at h ⊢
  by_cases hstop : t₁ = 0 ∨ node.shutdownRequested = true
  · rw [if_pos hstop] at h; cases h
  have ht₁ : t₁ ≠ 0 := fun h => hstop (.inl h)
  rw [scanNonces_add w Hash params _ d t start (by rw [hscan]; exact ht₁), hscan]
  simp only
  rw [if_neg hstop] at h
  rw [if_neg fun h => h.elim (fun h => ht₁ (by omega)) (fun h => hstop (.inr h))]
  split_ifs at h ⊢
  · cases h; rfl
  · split at h
    · cases h
    · rename_i hps
      cases h
      simp only [hps]

theorem generateLoop_more_tries {nHeightEnd : Int} (d : Nat) : ∀ {fuel fuel' : Nat} {s : σ}
    {nHeight : Int} {x t : Nat} {acc hashes hashes' : List Uint256},
    generateLoop w Hash params node nHeightEnd fuel s nHeight x t acc = some (.ok hashes) →
    generateLoop w Hash params node nHeightEnd fuel' s nHeight x (t + d) acc = some (.ok hashes') →
    hashes <+: hashes'
  | 0, _, _, _, _, _, _, _, _, h, _ => by cases h
  | _ + 1, 0, _, _, _, _, _, _, _, _, h' => by cases h'
  | fuel + 1, fuel' + 1, s, nHeight, x, t, acc, hashes, hashes', h, h' => by
    rw [generateLoop] at h
    split_ifs at h with hgo
    · rcases hr : generateRound w Hash params node s nHeight x t acc with r | ⟨s₁, H₁, x₁, t₁, acc₁⟩ <;>
        simp only [hr] at h
      · cases h
        rw [generateRound_done_ok w Hash params node hr]
        obtain ⟨mined, rfl, -⟩ := generateLoop_mined w Hash params node h'
        exact List.prefix_append _ _
      · rw [generateLoop, if_pos hgo, generateRound_add_tries w Hash params node d hr] at h'
        exact generateLoop_more_tries d h h'
    · rw [generateLoop, if_neg hgo] at h'
      cases h; cases h'
      exact List.prefix_refl _

theorem generateBlocks_prefix_of_more_tries {fuel fuel' : Nat} {s : σ} {nGenerate : Int}
    {nMaxTries nMaxTries' : Nat} {hashes hashes' : List Uint256} (hle : nMaxTries ≤ nMaxTries')
    (h : generateBlocks w Hash params node fuel s nGenerate nMaxTries = some (.ok hashes))
    (h' : generateBlocks w Hash params node fuel' s nGenerate nMaxTries' = some (.ok hashes')) :
    hashes <+: hashes' := by
  obtain ⟨d, rfl⟩ := Nat.exists_eq_add_of_le hle
  exact generateLoop_more_tries w Hash params node d h h'

theorem countingNode_more_tries :
    5 ≤ 10 ∧
      generateBlocks lowByteWriter nonceThreeHash regTestParams countingNode 3 0 2 5 =
        some (.ok [Uint256.zero]) ∧
      generateBlocks lowByteWriter nonceThreeHash regTestParams countingNode 3 0 2 10 =
        some (.ok [Uint256.zero, Uint256.zero]) ∧
      [Uint256.zero] <+: [Uint256.zero, Uint256.zero] :=
  have h : generateBlocks lowByteWriter nonceThreeHash regTestParams countingNode 3 0 2 5 =
      some (.ok [Uint256.zero]) := by rfl
  have h' : generateBlocks lowByteWriter nonceThreeHash regTestParams countingNode 3 0 2 10 =
      some (.ok [Uint256.zero, Uint256.zero]) := by rfl
  ⟨by decide, h, h', generateBlocks_prefix_of_more_tries lowByteWriter nonceThreeHash regTestParams
    countingNode (by decide) h h'⟩

/-! ## The errors of `generatetoaddress` -/

theorem generateRound_error_of_regtest (hreg : node.regtest = true) {s : σ} {nHeight : Int}
    {x t : Nat} {acc : List Uint256} {e : String}
    (h : generateRound w Hash params node s nHeight x t acc = .done (.error e)) :
    e = "Could not create block template" ∨ e = "Couldn\x27t create new block" ∨
      e = "ProcessNewBlock, block not accepted" := by
  unfold generateRound at h
  split_ifs at h with hguard
  · exact absurd (hguard.2.symm.trans hreg) Bool.false_ne_true
  split at h
  · cases h; exact .inl rfl
  · cases h; exact .inr (.inl rfl)
  · simp only at h
    split_ifs at h
    · cases h
    · split at h
      · cases h; exact .inr (.inr rfl)
      · cases h

theorem generateLoop_error_of_regtest (hreg : node.regtest = true) {nHeightEnd : Int} :
    ∀ {fuel : Nat} {s : σ} {nHeight : Int} {x t : Nat} {acc : List Uint256} {e : String},
    generateLoop w Hash params node nHeightEnd fuel s nHeight x t acc = some (.error e) →
    e = "Could not create block template" ∨ e = "Couldn\x27t create new block" ∨
      e = "ProcessNewBlock, block not accepted"
  | 0, _, _, _, _, _, _, h => by cases h
  | fuel + 1, s, nHeight, x, t, acc, e, h => by
    rw [generateLoop] at h
    split_ifs at h
    · rcases hr : generateRound w Hash params node s nHeight x t acc with r | ⟨s', H', x', t', acc'⟩ <;>
        simp only [hr] at h
      · cases h
        exact generateRound_error_of_regtest w Hash params node hreg hr
      · exact generateLoop_error_of_regtest hreg h
    · cases h

theorem generatetoaddressArgs_throwsOnly (helpText : String) (isValidDestination : String → Bool)
    (request : JSONRPCRequest) :
    ThrowsOnly [helpText, "generatetoaddress can only be used on regtest.",
        "JSON value is not an integer as expected", "JSON integer out of range",
        "JSON value is not a string as expected", "Error: Invalid address",
        "Mempool disabled or instance not found"]
      (generatetoaddressArgs node helpText isValidDestination request) := by
  have hmax : ThrowsOnly ["JSON value is not an integer as expected", "JSON integer out of range"]
      (maxTriesArg (request.param 2)) := by
    unfold maxTriesArg
    split
    · exact throwsOnly_ok _
    · exact UniValue.getIntegral_throwsOnly _ _
  exact ((RPCHelpMan.check_throwsOnly _ _).mono (by simp [generatetoaddressHelp])).bind fun _ =>
    ((rpcAssert_throwsOnly _ _).mono (by simp)).bind fun _ =>
    ((UniValue.getIntegral_throwsOnly _ _).mono (by simp)).bind fun _ =>
    (hmax.mono (by simp)).bind fun _ =>
    ((UniValue.getStr_throwsOnly _).mono (by simp)).bind fun _ =>
    ((rpcAssert_throwsOnly _ _).mono (by simp)).bind fun _ =>
    ((rpcAssert_throwsOnly _ _).mono (by simp)).bind fun _ => throwsOnly_ok _

theorem generatetoaddressArgs_regtest {helpText : String} {isValidDestination : String → Bool}
    {request : JSONRPCRequest} {args : Int × Nat}
    (h : generatetoaddressArgs node helpText isValidDestination request = .ok args) :
    node.regtest = true := by
  obtain ⟨_, -, h⟩ := except_bind_eq_ok.mp h
  obtain ⟨_, hreg, -⟩ := except_bind_eq_ok.mp h
  exact rpcAssert_eq_ok.mp hreg

theorem generatetoaddress_errors {helpText : String} {isValidDestination : String → Bool}
    {fuel : Nat} {s : σ} {request : JSONRPCRequest} {e : String}
    (h : generatetoaddress w Hash params node helpText isValidDestination fuel s request =
      some (.error e)) :
    e ∈ [helpText, "generatetoaddress can only be used on regtest.",
      "JSON value is not an integer as expected", "JSON integer out of range",
      "JSON value is not a string as expected", "Error: Invalid address",
      "Mempool disabled or instance not found", "Could not create block template",
      "Couldn\x27t create new block", "ProcessNewBlock, block not accepted"] := by
  unfold generatetoaddress at h
  split at h
  · rename_i he
    cases h
    exact List.mem_append_left _
      (generatetoaddressArgs_throwsOnly node helpText isValidDestination request e he)
  · rename_i hargs
    rcases generateLoop_error_of_regtest w Hash params node
      (generatetoaddressArgs_regtest node hargs) h with rfl | rfl | rfl <;> simp

theorem failingAssembler_generatetoaddress :
    generatetoaddress lowByteWriter nonceThreeHash regTestParams
        { countingNode with createNewBlock := fun _ => none } "help" (fun _ => true) 3 0
        ⟨false, [.num ['2'], .str "address"]⟩ = some (.error "Could not create block template") ∧
      "Could not create block template" ∈ ["help", "generatetoaddress can only be used on regtest.",
        "JSON value is not an integer as expected", "JSON integer out of range",
        "JSON value is not a string as expected", "Error: Invalid address",
        "Mempool disabled or instance not found", "Could not create block template",
        "Couldn\x27t create new block", "ProcessNewBlock, block not accepted"] :=
  have h : generatetoaddress lowByteWriter nonceThreeHash regTestParams
      { countingNode with createNewBlock := fun _ => none } "help" (fun _ => true) 3 0
      ⟨false, [.num ['2'], .str "address"]⟩ = some (.error "Could not create block template") := by
    rfl
  ⟨h, generatetoaddress_errors lowByteWriter nonceThreeHash regTestParams _ h⟩

end Miner

end Palladium
