import Mathlib
import Palladium.Chain

/-!
# Estimating the network hash rate

`GetNetworkHashPS` walks back `lookup` blocks from a block of the active chain and divides the
work done by the time spanned. For `lookup ≤ 0` it walks back to the last retarget boundary,
found through `DifficultyAdjustmentInterval` at the next height. From height 29000 on, that
interval divides by `nPowTargetSpacingV2`, which the test network and regression testing
leave at 0. There `getnetworkhashps -1` divides by zero once the chain is 28999 blocks high.
The walk itself never steps past genesis. Where both intervals are positive, as on the main
network, the estimate is defined for every argument.
-/

namespace Palladium

namespace Chain

def atHeight (c : Chain) (height : Nat) : Option Chain :=
  c.blocks[height]?.map (⟨c.blocks.take height, ·⟩)

theorem atHeight_isSome {c : Chain} {height : Nat} (h : height ≤ c.nHeight) :
    ∃ pb, c.atHeight height = some pb ∧ pb.nHeight = height := by
  refine ⟨_, by rw [atHeight, List.getElem?_eq_getElem (by simp; omega)]; rfl, ?_⟩
  simp [nHeight] at h ⊢
  omega

theorem pprev_isSome {c : Chain} (h : 0 < c.nHeight) :
    ∃ p, c.pprev = some p ∧ p.nHeight = c.nHeight - 1 := by
  obtain ⟨last, hlast⟩ := List.getLast?_isSome.mpr (List.ne_nil_of_length_pos h) |>
    Option.isSome_iff_exists.mp
  exact ⟨_, by rw [pprev, hlast]; rfl, by simp [nHeight]⟩

end Chain

/-- The loop of `GetNetworkHashPS`: `n` steps to `pprev` from `pb0`, keeping the least and the
greatest block time seen; `none` where `pprev` is null. -/
def hashPSWalk : Nat → Chain → Int → Int → Option (Chain × Int × Int)
  | 0, pb0, minTime, maxTime => some (pb0, minTime, maxTime)
  | n + 1, pb0, minTime, maxTime =>
    match pb0.pprev with
    | none => none
    | some pb0 =>
      let time := pb0.tip.getBlockTime
      hashPSWalk n pb0 (min time minTime) (max time maxTime)

theorem hashPSWalk_isSome {n : Nat} {pb0 : Chain} (h : n ≤ pb0.nHeight) (minTime maxTime : Int) :
    (hashPSWalk n pb0 minTime maxTime).isSome := by
  induction n generalizing pb0 minTime maxTime with
  | zero => rfl
  | succ n ih =>
    obtain ⟨p, hp, hn⟩ := Chain.pprev_isSome (c := pb0) (by omega)
    simp only [hashPSWalk, hp]
    exact ih (by omega) _ _

/-- The block `GetNetworkHashPS` starts from: `chainActive[height]` for a height below the
tip's, else the tip. -/
def hashPSBlock (active : Chain) (height : Int) : Option Chain :=
  if 0 ≤ height ∧ height < active.nHeight then active.atHeight height.toNat else some active

/-- The number of blocks `GetNetworkHashPS` walks back from `pb`: for `lookup ≤ 0` those since
the last retarget boundary, `pb->nHeight % DifficultyAdjustmentInterval(pb->nHeight + 1) + 1`;
then at most `pb`'s height. `none` at a division by zero. -/
def hashPSLookup (params : ConsensusParams) (pb : Chain) (lookup : Int) : Option Int :=
  let lookup : Option Int :=
    if lookup ≤ 0 then
      match params.difficultyAdjustmentInterval (pb.nHeight + 1) with
      | none => none
      | some interval => (cmod pb.nHeight interval).map (· + 1)
    else some lookup
  lookup.map fun (lookup : Int) => if lookup > pb.nHeight then (pb.nHeight : Int) else lookup

/-- `GetNetworkHashPS(lookup, height)` on the active chain `active`. The result
`workDiff.getdouble() / timeDiff` is kept as the exact quotient; `none` is a division by zero
or a step past genesis. -/
def getNetworkHashPS (params : ConsensusParams) (active : Chain) (lookup height : Int) :
    Option ℚ :=
  match hashPSBlock active height with
  | none => none
  | some pb =>
    if pb.nHeight = 0 then some 0
    else
      match hashPSLookup params pb lookup with
      | none => none
      | some lookup =>
        match hashPSWalk lookup.toNat pb pb.tip.getBlockTime pb.tip.getBlockTime with
        | none => none
        | some (pb0, minTime, maxTime) =>
          if minTime = maxTime then some 0
          else
            let workDiff : Int := (pb.tip.nChainWork - pb0.tip.nChainWork : Int) % 2 ^ 256
            let timeDiff := maxTime - minTime
            some ((workDiff : ℚ) / timeDiff)

def getnetworkhashps (params : ConsensusParams) (active : Chain) (nblocks height : Option Int) :
    Option ℚ :=
  getNetworkHashPS params active (nblocks.getD 720) (height.getD (-1))

theorem hashPSBlock_isSome (active : Chain) (height : Int) :
    ∃ pb, hashPSBlock active height = some pb := by
  unfold hashPSBlock
  split
  · obtain ⟨pb, h, -⟩ :=
      Chain.atHeight_isSome (c := active) (show height.toNat ≤ active.nHeight by omega)
    exact ⟨pb, h⟩
  · exact ⟨_, rfl⟩

theorem hashPSLookup_isSome {params : ConsensusParams} {pb : Chain} {interval : Int}
    (hi : params.difficultyAdjustmentInterval (pb.nHeight + 1) = some interval)
    (hi0 : interval ≠ 0) (lookup : Int) :
    ∃ l, hashPSLookup params pb lookup = some l ∧ l ≤ pb.nHeight := by
  unfold hashPSLookup
  split_ifs
  · simp only [hi, cmod_of_ne hi0, Option.map_some']
    refine ⟨_, rfl, ?_⟩
    split_ifs <;> omega
  · refine ⟨_, rfl, ?_⟩
    dsimp only
    split_ifs <;> omega

theorem hashPSWalk_of_hashPSLookup {params : ConsensusParams} {pb : Chain} {lookup l : Int}
    (h : hashPSLookup params pb lookup = some l) (minTime maxTime : Int) :
    (hashPSWalk l.toNat pb minTime maxTime).isSome := by
  unfold hashPSLookup at h
  obtain ⟨l₀, -, rfl⟩ := Option.map_eq_some'.mp h
  exact hashPSWalk_isSome (by split_ifs <;> omega) _ _

theorem tdiv_pos_of_le {a b : Int} (hb : 0 < b) (hle : b ≤ a) : 0 < a.tdiv b := by
  have h1 : 1 ≤ a / b := Int.le_ediv_of_mul_le hb (by omega)
  rw [Int.tdiv_eq_ediv (by omega) hb.le]
  omega

theorem tdiv_le_of_pos {a b : Int} (hb : 0 < b) (hle : b ≤ a) : a.tdiv b ≤ a := by
  rw [Int.tdiv_eq_ediv (by omega) hb.le]
  exact Int.ediv_le_self _ (by omega)

theorem difficultyAdjustmentInterval_pos {params : ConsensusParams}
    (hS : 0 < params.nPowTargetSpacing) (hSle : params.nPowTargetSpacing ≤ params.nPowTargetTimespan)
    (hT : 0 < params.nPowTargetSpacingV2)
    (hTle : params.nPowTargetSpacingV2 ≤ params.nPowTargetTimespan)
    (hspan : params.nPowTargetTimespan < 2 ^ 31) (nHeight : Int) :
    ∃ interval, params.difficultyAdjustmentInterval nHeight = some interval ∧ 0 < interval := by
  have hcase : ∀ {s : Int}, 0 < s → s ≤ params.nPowTargetTimespan →
      ∃ interval, (cdiv params.nPowTargetTimespan s).map toCInt = some interval ∧ 0 < interval :=
    fun hs hle => ⟨_, by rw [cdiv_of_ne hs.ne', Option.map_some'], by
      rw [toCInt_of_mem (by linarith [tdiv_pos_of_le hs hle])
        (by linarith [tdiv_le_of_pos hs hle])]
      exact tdiv_pos_of_le hs hle⟩
  unfold ConsensusParams.difficultyAdjustmentInterval
  split_ifs
  · exact hcase hS hSle
  · exact hcase hT hTle

theorem getNetworkHashPS_isSome {params : ConsensusParams}
    (hS : 0 < params.nPowTargetSpacing) (hSle : params.nPowTargetSpacing ≤ params.nPowTargetTimespan)
    (hT : 0 < params.nPowTargetSpacingV2)
    (hTle : params.nPowTargetSpacingV2 ≤ params.nPowTargetTimespan)
    (hspan : params.nPowTargetTimespan < 2 ^ 31) (active : Chain) (lookup height : Int) :
    (getNetworkHashPS params active lookup height).isSome := by
  obtain ⟨pb, hpb⟩ := hashPSBlock_isSome active height
  obtain ⟨interval, hi, hi0⟩ :=
    difficultyAdjustmentInterval_pos hS hSle hT hTle hspan (pb.nHeight + 1)
  obtain ⟨l, hl, -⟩ := hashPSLookup_isSome hi hi0.ne' lookup
  obtain ⟨r, hr⟩ := Option.isSome_iff_exists.mp
    (hashPSWalk_of_hashPSLookup hl pb.tip.getBlockTime pb.tip.getBlockTime)
  simp only [getNetworkHashPS, hpb, hl, hr]
  split_ifs <;> rfl

theorem getNetworkHashPS_isSome_main :
    (getNetworkHashPS mainParams ⟨List.replicate 29000 ⟨1231006505, 0x1d00ffff, 0⟩,
      ⟨1231006505, 0x1d00ffff, 0⟩⟩ (-1) (-1)).isSome :=
  getNetworkHashPS_isSome (by decide) (by decide) (by decide) (by decide) (by decide) _ _ _

/-- Where `nPowTargetSpacingV2` is 0, as on the test network and in regression testing,
`getnetworkhashps` asked for the blocks since the last retarget (`lookup ≤ 0`) at a tip of
height 28999 or more divides by zero in `DifficultyAdjustmentInterval`. -/
theorem getNetworkHashPS_divides_by_zero {params : ConsensusParams}
    (hT : params.nPowTargetSpacingV2 = 0) {active : Chain} {lookup height : Int}
    (hn : 28999 ≤ active.nHeight) (hlookup : lookup ≤ 0)
    (hheight : height < 0 ∨ active.nHeight ≤ height) :
    params.difficultyAdjustmentInterval (active.nHeight + 1) = none ∧
      getNetworkHashPS params active lookup height = none := by
  have hi : params.difficultyAdjustmentInterval (active.nHeight + 1) = none := by
    rw [ConsensusParams.difficultyAdjustmentInterval, if_neg (by omega), cdiv, if_pos hT,
      Option.map_none']
  have hpb : hashPSBlock active height = some active := if_neg (by omega)
  refine ⟨hi, ?_⟩
  simp only [getNetworkHashPS, hpb, if_neg (show active.nHeight ≠ 0 by omega), hashPSLookup,
    if_pos hlookup, hi, Option.map_none']

theorem getNetworkHashPS_divides_by_zero_testNet :
    getnetworkhashps testNetParams ⟨List.replicate 28999 ⟨1296688602, 0x1d00ffff, 0⟩,
        ⟨1296688602, 0x1d00ffff, 0⟩⟩ (some (-1)) none = none :=
  (getNetworkHashPS_divides_by_zero rfl (by rw [Chain.nHeight, List.length_replicate]) (by decide)
    (Or.inl (by decide))).2

end Palladium
