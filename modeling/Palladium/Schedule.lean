import Mathlib
import Palladium.Reachable

/-!
# The legacy schedule along a branch

Below height 29000 `GetNextWorkRequired` keeps the previous `nBits` off a retarget boundary.
With `fPowAllowMinDifficultyBlocks` it instead hands out the limit to a candidate stamped more
than two target spacings after its parent, and otherwise walks back past the min-difficulty
blocks to the last real target. Followed along every branch a network grows:

* without the rule (the main network) a block off its boundary carries its parent's `nBits`;
* with it (testnet, regtest) a block off its boundary carries the limit exactly when it is
  stamped late, and otherwise the `nBits` of the nearest block at or below its parent that the
  walk-back does not skip;
* regtest, which never retargets and leaves `nPowTargetSpacingV2` at 0, carries
  `GetCompact(powLimit) = 0x207fffff` in every block;
* a network that leaves `nPowTargetSpacingV2` at 0 (testnet, regtest) carries the limit in every
  block from the reset window on.
-/

namespace Palladium

/-- `nHeight % params.DifficultyAdjustmentInterval(nHeight) != 0`: the remainder is defined and
not zero. -/
def offBoundary (difficultyAdjustmentInterval : Int → Option Int) (nHeight : Int) : Prop :=
  ∃ r ∈ (difficultyAdjustmentInterval nHeight).bind (cmod nHeight), r ≠ 0

instance (difficultyAdjustmentInterval : Int → Option Int) (nHeight : Int) :
    Decidable (offBoundary difficultyAdjustmentInterval nHeight) :=
  inferInstanceAs (Decidable (∃ r ∈ _, _))

theorem offBoundary_iff {interval : Int → Option Int} {nHeight : Int} :
    offBoundary interval nHeight ↔
      ∃ v r, interval nHeight = some v ∧ cmod nHeight v = some r ∧ r ≠ 0 := by
  simp only [offBoundary, Option.mem_def, Option.bind_eq_some]
  constructor
  · rintro ⟨r, ⟨v, hv, hr⟩, hr0⟩
    exact ⟨v, r, hv, hr, hr0⟩
  · rintro ⟨v, r, hv, hr, hr0⟩
    exact ⟨r, ⟨v, hv, hr⟩, hr0⟩

/-- A block the min-difficulty walk-back steps past: it has a `pprev`, sits off its retarget
boundary and carries the limit. -/
def SkipsMinDifficulty (difficultyAdjustmentInterval : Int → Option Int)
    (nProofOfWorkLimit : UInt32) (nHeight : Nat) (pindex : CBlockIndex) : Prop :=
  0 < nHeight ∧ offBoundary difficultyAdjustmentInterval nHeight ∧
    pindex.nBits = nProofOfWorkLimit

instance (difficultyAdjustmentInterval : Int → Option Int) (nProofOfWorkLimit : UInt32)
    (nHeight : Nat) (pindex : CBlockIndex) :
    Decidable (SkipsMinDifficulty difficultyAdjustmentInterval nProofOfWorkLimit nHeight pindex) :=
  inferInstanceAs (Decidable (_ ∧ _))

/-! ## The walk-back -/

/-- What the `while` loop of the min-difficulty rule returns: the `nBits` of the highest block at
or below the start that it does not skip, every block above that one up to the start being
skipped. -/
theorem lastNonMinDifficultyBits_eq_some {interval : Int → Option Int} {limit : UInt32}
    {blocks : List CBlockIndex} {b : UInt32} (n : Nat)
    (h : lastNonMinDifficultyBits interval limit blocks n = some b) :
    ∃ j ≤ n, ∃ hj : j < blocks.length, b = blocks[j].nBits ∧
      ¬SkipsMinDifficulty interval limit j blocks[j] ∧
      ∀ k (hk : k < blocks.length), j < k → k ≤ n → SkipsMinDifficulty interval limit k blocks[k] := by
  induction n with
  | zero =>
    obtain ⟨blk, hblk, rfl⟩ := Option.map_eq_some'.mp h
    obtain ⟨h0, rfl⟩ := List.getElem?_eq_some_iff.mp hblk
    exact ⟨0, le_rfl, h0, rfl, fun hs => (lt_irrefl 0) hs.1, fun k _ hk hk' => by omega⟩
  | succ n ih =>
    rw [lastNonMinDifficultyBits] at h
    split at h
    · cases h
    · cases h
    rename_i pindex v hp hv
    obtain ⟨hn, rfl⟩ := List.getElem?_eq_some_iff.mp hp
    split at h
    · cases h
    rename_i r hr
    have hskips : SkipsMinDifficulty interval limit (n + 1) blocks[n + 1] ↔
        r ≠ 0 ∧ blocks[n + 1].nBits = limit := by
      simp [SkipsMinDifficulty, offBoundary_iff, hv, hr]
    split_ifs at h with hskip
    · obtain ⟨j, hjn, hj, rfl, hns, hall⟩ := ih h
      refine ⟨j, by omega, hj, rfl, hns, fun k hk hjk hkn => ?_⟩
      rcases Nat.lt_or_ge k (n + 1) with hkn' | hkn'
      · exact hall k hk hjk (by omega)
      · obtain rfl : k = n + 1 := by omega
        exact hskips.mpr hskip
    · exact ⟨n + 1, le_rfl, hn, (Option.some.inj h).symm, fun hs => hskip (hskips.mp hs),
        fun k _ hk hk' => by omega⟩

/-! ## One block more -/

theorem getNextWorkRequired_of_offBoundary {A : Arith} {c : Chain} {pblock : CBlockHeader}
    {params : ConsensusParams} (hlow : c.nHeight < 28930)
    (hoff : offBoundary params.difficultyAdjustmentInterval ((c.nHeight : Int) + 1)) :
    getNextWorkRequired A c pblock params =
      if params.fPowAllowMinDifficultyBlocks then
        if pblock.getBlockTime >
            A.i64 (c.tip.getBlockTime + A.i64 (params.nPowTargetSpacing * 2)) then
          some (getCompact params.powLimit)
        else
          lastNonMinDifficultyBits params.difficultyAdjustmentInterval
            (getCompact params.powLimit) c.blocks c.nHeight
      else some c.tip.nBits := by
  obtain ⟨v, r, hv, hr, hr0⟩ := offBoundary_iff.mp hoff
  simp only [getNextWorkRequired]
  rw [if_neg (by omega), if_neg (by omega), hv]
  simp only [hr, if_pos hr0]

theorem getNextWorkRequired_of_spacing_zero {A : Arith} {c : Chain} {pblock : CBlockHeader}
    {params : ConsensusParams} (hT : params.nPowTargetSpacingV2 = 0) (hh : 28930 ≤ c.nHeight) :
    getNextWorkRequired A c pblock params = some (getCompact params.powLimit) := by
  simp only [getNextWorkRequired]
  by_cases hw : c.nHeight ≤ 28999
  · rw [if_pos ⟨hh, hw⟩]
  · rw [if_neg (by omega), if_pos (by omega)]
    exact lwmaCalculateNextWorkRequired_of_spacing_zero hT

theorem getNextWorkRequired_of_noRetargeting {A : Arith} {c : Chain} {pblock : CBlockHeader}
    {params : ConsensusParams} {b : UInt32} (hno : params.fPowNoRetargeting = true)
    (hT : params.nPowTargetSpacingV2 = 0) (h : getNextWorkRequired A c pblock params = some b) :
    b = getCompact params.powLimit ∨ ∃ blk ∈ c.blocks, blk.nBits = b := by
  rcases getNextWorkRequired_inv h with h | h | h | ⟨t, h⟩
  · exact .inl h
  · rw [lwmaCalculateNextWorkRequired_of_spacing_zero hT] at h
    exact .inl (Option.some.inj h).symm
  · exact .inr h
  · simp only [calculateNextWorkRequired, hno, if_true, Option.some.injEq] at h
    exact .inr ⟨c.tip, c.tip_mem_blocks, h⟩

/-! ## Along a branch -/

theorem Reachable.prefix {net : CChainParams} {c : Chain} (hc : Reachable net c) {j : Nat}
    (hj : j + 1 < c.blocks.length) :
    ∃ c', c'.blocks = c.blocks.take (j + 1) ∧ ∃ pblock : CBlockHeader,
      pblock.nTime = c.blocks[j + 1].nTime ∧
      getNextWorkRequired Arith.machine c' pblock net.consensus = some c.blocks[j + 1].nBits := by
  induction hc with
  | genesis w => simp [Chain.blocks] at hj
  | @push c pblock nBits w _ hg ih =>
    simp only [Chain.length_blocks, Chain.nHeight_push] at hj
    rcases Nat.lt_or_ge (j + 1) c.blocks.length with hlt | hge
    · obtain ⟨c', hb, pblock', ht, hg'⟩ := ih hlt
      refine ⟨c', ?_, pblock', ?_⟩
      · rw [hb, Chain.blocks_push, List.take_append_of_le_length (by omega)]
      · rw [Chain.getElem_blocks_push_of_lt hlt]
        exact ⟨ht, hg'⟩
    · obtain rfl : j = c.nHeight := by simp at hge; omega
      refine ⟨c, ?_, pblock, ?_⟩
      · rw [Chain.blocks_push, List.take_left' (by simp)]
      · simpa only [Chain.getElem_blocks_push_nHeight_succ, true_and] using hg

theorem Chain.nHeight_tip_of_blocks_eq_take {c c' : Chain} {j : Nat} (hj : j < c.blocks.length)
    (hb : c'.blocks = c.blocks.take (j + 1)) : c'.nHeight = j ∧ c'.tip = c.blocks[j] := by
  have hlen : c'.nHeight = j := by
    have := congrArg List.length hb
    rw [List.length_take, Chain.length_blocks] at this
    omega
  have htip : c'.blocks[j]? = some c'.tip := by
    rw [← hlen, ← Chain.getAncestor_natCast, Chain.getAncestor_nHeight]
  have h := congrArg (·[j]?) hb
  simp only [List.getElem?_take_of_lt (Nat.lt_succ_self j), List.getElem?_eq_getElem hj] at h
  exact ⟨hlen, Option.some.inj (htip.symm.trans h)⟩

theorem Reachable.nBits_eq_parent_of_offBoundary {net : CChainParams} {c : Chain}
    (hc : Reachable net c) (hmin : net.consensus.fPowAllowMinDifficultyBlocks = false) (j : Nat)
    (hj : j + 1 < c.blocks.length) (hlow : j < 28930)
    (hoff : offBoundary net.consensus.difficultyAdjustmentInterval (j + 1)) :
    c.blocks[j + 1].nBits = c.blocks[j].nBits := by
  obtain ⟨c', hb, pblock, -, hg⟩ := hc.prefix hj
  obtain ⟨hn, ht⟩ := Chain.nHeight_tip_of_blocks_eq_take (by omega) hb
  rw [getNextWorkRequired_of_offBoundary (by omega) (by rw [hn]; exact_mod_cast hoff), hmin,
    ht] at hg
  exact (Option.some.inj hg).symm

theorem descentChain_nBits_one :
    offBoundary mainParams.difficultyAdjustmentInterval 1 ∧
      (descentChain 2).blocks[1].nBits = (descentChain 2).blocks[0].nBits :=
  ⟨by decide, Reachable.nBits_eq_parent_of_offBoundary (reachable_descentChain 2 (by norm_num)) rfl
    0 (by decide) (by norm_num) (by decide)⟩

theorem ParamsFit.lateBlockTime {params : ConsensusParams} (hfit : ParamsFit params)
    (b : CBlockIndex) :
    Arith.machine.i64 (b.getBlockTime + Arith.machine.i64 (params.nPowTargetSpacing * 2)) =
      b.getBlockTime + 2 * params.nPowTargetSpacing := by
  have := hfit.spacing_pos
  have := hfit.spacing_le
  have := hfit.timespan_lt
  have := getBlockTime_lt b
  have := getBlockTime_nonneg b
  rw [Arith.machine_i64_of_mem (x := params.nPowTargetSpacing * 2) (by omega) (by omega),
    Arith.machine_i64_of_mem (by omega) (by omega)]
  ring

theorem Reachable.nBits_of_minDifficulty {net : CChainParams} {c : Chain}
    (hc : Reachable net c) (hfit : ParamsFit net.consensus)
    (hmin : net.consensus.fPowAllowMinDifficultyBlocks = true) (j : Nat)
    (hj : j + 1 < c.blocks.length) (hlow : j < 28930)
    (hoff : offBoundary net.consensus.difficultyAdjustmentInterval (j + 1)) :
    (c.blocks[j].getBlockTime + 2 * net.consensus.nPowTargetSpacing < c.blocks[j + 1].getBlockTime →
      c.blocks[j + 1].nBits = getCompact net.consensus.powLimit) ∧
    (c.blocks[j + 1].getBlockTime ≤ c.blocks[j].getBlockTime + 2 * net.consensus.nPowTargetSpacing →
      ∃ i, ∃ hi : i ≤ j, c.blocks[j + 1].nBits = c.blocks[i].nBits ∧
        ¬SkipsMinDifficulty net.consensus.difficultyAdjustmentInterval
          (getCompact net.consensus.powLimit) i c.blocks[i] ∧
        ∀ k, i < k → ∀ hkj : k ≤ j, SkipsMinDifficulty net.consensus.difficultyAdjustmentInterval
          (getCompact net.consensus.powLimit) k c.blocks[k]) := by
  obtain ⟨c', hb, pblock, htime, hg⟩ := hc.prefix hj
  obtain ⟨hn, ht⟩ := Chain.nHeight_tip_of_blocks_eq_take (by omega) hb
  have hpt : pblock.getBlockTime = c.blocks[j + 1].getBlockTime := by
    simp only [CBlockHeader.getBlockTime, CBlockIndex.getBlockTime, htime]
  rw [getNextWorkRequired_of_offBoundary (by omega) (by rw [hn]; exact_mod_cast hoff), hmin,
    if_pos rfl, ht, hfit.lateBlockTime, hpt, hb, hn] at hg
  split_ifs at hg with hgap
  · exact ⟨fun _ => (Option.some.inj hg).symm, fun hle => absurd hgap (by omega)⟩
  · refine ⟨fun hlt => absurd hlt hgap, fun _ => ?_⟩
    obtain ⟨i, hi, hil, hbi, hns, hall⟩ := lastNonMinDifficultyBits_eq_some j hg
    simp only [List.getElem_take] at hbi hns hall
    exact ⟨i, hi, hbi, hns, fun k hik hkj => hall k (by rw [List.length_take]; omega) hik hkj⟩

def testNetPair : Chain := (⟨[], ⟨1296688602, 0x1d00ffff, 0⟩⟩ : Chain).push ⟨1296688602, 0x1d00ffff, 0⟩

theorem reachable_testNetPair : Reachable testNetChainParams testNetPair :=
  @Reachable.push _ _ ⟨0, Uint256.zero, Uint256.zero, 1296688602, 0, 0⟩ _ 0 (.genesis 0) (by decide)

theorem testNetPair_nBits : testNetPair.blocks[1].nBits = testNetPair.blocks[0].nBits := by
  obtain ⟨i, hi, hb, -⟩ := (Reachable.nBits_of_minDifficulty reachable_testNetPair
    (networks_fit _ (by simp [networks])) rfl 0 (by decide) (by norm_num) (by decide)).2 (by decide)
  obtain rfl : i = 0 := by omega
  exact hb

theorem Reachable.nBits_eq_limit_of_noRetargeting {net : CChainParams} {c : Chain}
    (hc : Reachable net c) (hno : net.consensus.fPowNoRetargeting = true)
    (hT : net.consensus.nPowTargetSpacingV2 = 0)
    (hgen : net.genesisBits = getCompact net.consensus.powLimit) :
    ∀ b ∈ c.blocks, b.nBits = getCompact net.consensus.powLimit := by
  induction hc with
  | genesis w =>
    intro b hb
    rw [Chain.blocks, List.nil_append, List.mem_singleton] at hb
    subst hb
    exact hgen
  | push w _ hg ih =>
    intro b hb
    rcases Chain.mem_blocks_push.mp hb with hb | rfl
    · exact ih b hb
    · rcases getNextWorkRequired_of_noRetargeting hno hT hg with h | ⟨blk, hblk, rfl⟩
      · exact h
      · exact ih blk hblk

def regTestPair : Chain := (⟨[], ⟨1296688602, 0x207fffff, 0⟩⟩ : Chain).push ⟨1296689202, 0x207fffff, 0⟩

theorem reachable_regTestPair : Reachable regTestChainParams regTestPair :=
  @Reachable.push _ _ ⟨0, Uint256.zero, Uint256.zero, 1296689202, 0, 0⟩ _ 0 (.genesis 0) (by decide)

theorem regTestPair_nBits_eq_limit :
    regTestPair.blocks.all (·.nBits == getCompact regTestParams.powLimit) = true :=
  List.all_eq_true.mpr fun b hb => beq_iff_eq.mpr
    (Reachable.nBits_eq_limit_of_noRetargeting reachable_regTestPair rfl rfl (by decide) b hb)

theorem Reachable.nBits_eq_limit_of_spacing_zero {net : CChainParams} {c : Chain}
    (hc : Reachable net c) (hT : net.consensus.nPowTargetSpacingV2 = 0) :
    ∀ b ∈ c.blocks.drop 28931, b.nBits = getCompact net.consensus.powLimit := by
  induction hc with
  | genesis w => simp [Chain.blocks]
  | @push c pblock nBits w _ hg ih =>
    intro b hb
    rw [Chain.blocks_push, List.drop_append_eq_append_drop, List.mem_append] at hb
    rcases hb with hb | hb
    · exact ih b hb
    rcases Nat.lt_or_ge c.nHeight 28930 with hlt | hge
    · rw [List.drop_eq_nil_of_le (by simp; omega)] at hb
      cases hb
    · rw [Nat.sub_eq_zero_of_le (by simp; omega), List.drop_zero, List.mem_singleton] at hb
      subst hb
      rw [getNextWorkRequired_of_spacing_zero hT hge] at hg
      exact (Option.some.inj hg).symm

/-! ## A testnet branch stamped late -/

/-- Block `i` of `lateChain`: testnet's genesis `nBits`, stamped 241 seconds after the block
before, more than two target spacings. -/
def lateBlock (i : Nat) : CBlockIndex := ⟨UInt32.ofNat (1296688602 + 241 * i), 0x1d00ffff, 0⟩

def lateChain (n : Nat) : Chain := ⟨(List.range n).map lateBlock, lateBlock n⟩

def lateCandidate (i : Nat) : CBlockHeader :=
  ⟨0, Uint256.zero, Uint256.zero, UInt32.ofNat (1296688602 + 241 * i), 0, 0⟩

theorem lateBlock_getBlockTime {i : Nat} (hi : i < 100000) :
    (lateBlock i).getBlockTime = 1296688602 + 241 * i := by
  simp only [lateBlock, CBlockIndex.getBlockTime, uint32_toNat_ofNat]
  rw [Nat.mod_eq_of_lt (by omega)]
  push_cast
  ring

theorem lateChain_nHeight (n : Nat) : (lateChain n).nHeight = n := by
  simp [lateChain, Chain.nHeight]

theorem lateChain_succ (n : Nat) : lateChain (n + 1) = (lateChain n).push (lateBlock (n + 1)) := by
  simp only [lateChain, Chain.push, Chain.blocks, List.range_succ, List.map_append, List.map_cons,
    List.map_nil]

theorem lateChain_getAncestor {n i : Nat} (hi : i ≤ n) :
    (lateChain n).getAncestor i = some (lateBlock i) := by
  rw [Chain.getAncestor_natCast, show (lateChain n).blocks = (List.range (n + 1)).map lateBlock by
    rw [List.range_succ, List.map_append]; rfl, List.getElem?_map, List.getElem?_range (by omega)]
  rfl

theorem calculateNextWorkRequired_testNet_late {c : Chain} (htip : c.tip.nBits = 0x1d00ffff)
    {nFirstBlockTime : Int} (ht : c.tip.getBlockTime - nFirstBlockTime = 173279) :
    calculateNextWorkRequired Arith.machine c nFirstBlockTime testNetParams = some 0x1d00ffff := by
  simp only [calculateNextWorkRequired, ht, htip]
  decide

theorem getNextWorkRequired_lateChain {n : Nat} (hn : n < 99999) :
    getNextWorkRequired Arith.machine (lateChain n) (lateCandidate (n + 1)) testNetParams =
      some 0x1d00ffff := by
  have hfit : ParamsFit testNetParams := networks_fit testNetChainParams (by simp [networks])
  rcases Nat.lt_or_ge n 28930 with hlow | hhigh
  · have hi : testNetParams.difficultyAdjustmentInterval ((n : Int) + 1) = some 720 :=
      (hfit.difficultyAdjustmentInterval_of_lt (by omega)).trans rfl
    have hmod : ((n : Int) + 1).tmod 720 = ((n + 1) % 720 : Nat) := by
      rw [Int.tmod_eq_emod (by omega) (by omega)]
      omega
    by_cases hr : (n + 1) % 720 = 0
    · simp only [getNextWorkRequired, lateChain_nHeight]
      rw [if_neg (by omega), if_neg (by omega), hi]
      simp only [cmod_of_ne (by decide : (720 : Int) ≠ 0), hmod]
      rw [if_neg (by omega), if_neg (by omega),
        show (n : Int) - (720 - 1) = ((n - 719 : Nat) : Int) by omega,
        lateChain_getAncestor (by omega)]
      exact calculateNextWorkRequired_testNet_late rfl (by
        rw [show (lateChain n).tip = lateBlock n from rfl, lateBlock_getBlockTime (by omega),
          lateBlock_getBlockTime (by omega)]
        omega)
    · have hoff : offBoundary testNetParams.difficultyAdjustmentInterval ((lateChain n).nHeight + 1) :=
        offBoundary_iff.mpr ⟨720, _, by rw [lateChain_nHeight]; exact hi,
          cmod_of_ne (by decide), by rw [lateChain_nHeight, hmod]; omega⟩
      have hlate : (lateCandidate (n + 1)).getBlockTime >
          (lateChain n).tip.getBlockTime + 2 * testNetParams.nPowTargetSpacing := by
        rw [show (lateChain n).tip = lateBlock n from rfl, lateBlock_getBlockTime (by omega),
          show (lateCandidate (n + 1)).getBlockTime = (lateBlock (n + 1)).getBlockTime from rfl,
          lateBlock_getBlockTime (by omega)]
        show _ > _ + 2 * 120
        omega
      rw [getNextWorkRequired_of_offBoundary (by rw [lateChain_nHeight]; omega) hoff,
        hfit.lateBlockTime, if_pos hlate]
      rfl
  · rw [getNextWorkRequired_of_spacing_zero rfl (by rw [lateChain_nHeight]; omega)]
    rfl

theorem reachable_lateChain : ∀ n < 100000, Reachable testNetChainParams (lateChain n)
  | 0, _ => .genesis 0
  | n + 1, hn => by
    rw [lateChain_succ]
    exact @Reachable.push _ _ (lateCandidate (n + 1)) 0x1d00ffff 0 (reachable_lateChain n (by omega))
      (getNextWorkRequired_lateChain (by omega))

theorem lateChain_nBits_eq_limit :
    ((lateChain 29001).blocks.drop 28931).length = 71 ∧
      ((lateChain 29001).blocks.drop 28931).all (·.nBits == getCompact testNetParams.powLimit) =
        true :=
  ⟨by rw [List.length_drop, Chain.length_blocks, lateChain_nHeight],
    List.all_eq_true.mpr fun b hb => beq_iff_eq.mpr
      (Reachable.nBits_eq_limit_of_spacing_zero (reachable_lateChain 29001 (by norm_num)) rfl b hb)⟩

end Palladium
