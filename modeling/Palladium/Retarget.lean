import Mathlib
import Palladium.LwmaReference

/-!
# What the difficulty engine can demand

Every `nBits` that `GetNextWorkRequired` returns is `GetCompact` of a target capped at
`powLimit`, or the `nBits` of a block of the branch it reads. Under `ParamsFit`, which the
three networks satisfy, it always returns, and its `arith_uint256` and `int64_t` words hold
their exact values on every branch whose blocks carry admissible targets.
-/

namespace Palladium

theorem ite_gt_le (x P : Nat) : (if x > P then P else x) ≤ P := by
  split <;> omega

/-! ## The results -/

theorem lwmaFinish_cases {A : Arith} {params : ConsensusParams} {acc : LwmaAcc} {b : UInt32}
    (h : lwmaFinish A params acc = some b) : ∃ x ≤ params.powLimit, b = getCompact x := by
  unfold lwmaFinish at h
  dsimp only at h
  split_ifs at h
  · exact ⟨_, le_rfl, (Option.some.inj h).symm⟩
  · split at h
    · cases h
    · split at h
      · cases h
      · exact ⟨_, ite_gt_le _ _, (Option.some.inj h).symm⟩

theorem lwmaCalculateNextWorkRequired_cases {A : Arith} {c : Chain} {params : ConsensusParams}
    {b : UInt32} (h : lwmaCalculateNextWorkRequired A c params = some b) :
    ∃ x ≤ params.powLimit, b = getCompact x := by
  unfold lwmaCalculateNextWorkRequired at h
  dsimp only at h
  split_ifs at h
  · exact ⟨_, le_rfl, (Option.some.inj h).symm⟩
  · exact ⟨_, le_rfl, (Option.some.inj h).symm⟩
  · split at h
    · exact ⟨_, le_rfl, (Option.some.inj h).symm⟩
    · split at h
      · exact ⟨_, le_rfl, (Option.some.inj h).symm⟩
      · exact lwmaFinish_cases h

theorem calculateNextWorkRequired_cases {A : Arith} {c : Chain} {nFirstBlockTime : Int}
    {params : ConsensusParams} {b : UInt32}
    (h : calculateNextWorkRequired A c nFirstBlockTime params = some b) :
    (∃ x ≤ params.powLimit, b = getCompact x) ∨ b = c.tip.nBits := by
  unfold calculateNextWorkRequired at h
  dsimp only at h
  split_ifs at h
  · exact .inr (Option.some.inj h).symm
  all_goals
    split at h
    · cases h
    · exact .inl ⟨_, ite_gt_le _ _, (Option.some.inj h).symm⟩

theorem lastNonMinDifficultyBits_mem {interval : Int → Option Int} {limit : UInt32}
    {blocks : List CBlockIndex} {b : UInt32} (n : Nat)
    (h : lastNonMinDifficultyBits interval limit blocks n = some b) :
    ∃ blk ∈ blocks, blk.nBits = b := by
  induction n with
  | zero =>
    obtain ⟨blk, hblk, rfl⟩ := Option.map_eq_some'.mp h
    exact ⟨blk, List.mem_iff_getElem?.mpr ⟨_, hblk⟩, rfl⟩
  | succ n ih =>
    rw [lastNonMinDifficultyBits] at h
    split at h
    · cases h
    · cases h
    · rename_i pindex _ hp _
      split at h
      · cases h
      · split_ifs at h
        · exact ih h
        · exact ⟨pindex, List.mem_iff_getElem?.mpr ⟨_, hp⟩, Option.some.inj h⟩

theorem getNextWorkRequired_inv {A : Arith} {c : Chain} {pblock : CBlockHeader}
    {params : ConsensusParams} {b : UInt32}
    (h : getNextWorkRequired A c pblock params = some b) :
    b = getCompact params.powLimit ∨ lwmaCalculateNextWorkRequired A c params = some b ∨
      (∃ blk ∈ c.blocks, blk.nBits = b) ∨ ∃ t, calculateNextWorkRequired A c t params = some b := by
  simp only [getNextWorkRequired] at h
  split at h
  · exact .inl (Option.some.inj h).symm
  split at h
  · exact .inr (.inl h)
  split at h
  · cases h
  split at h
  · cases h
  split at h
  · split at h
    · split at h
      · exact .inl (Option.some.inj h).symm
      · exact .inr (.inr (.inl (lastNonMinDifficultyBits_mem _ h)))
    · exact .inr (.inr (.inl ⟨c.tip, c.tip_mem_blocks, Option.some.inj h⟩))
  · split at h
    · cases h
    · split at h
      · cases h
      · exact .inr (.inr (.inr ⟨_, h⟩))

theorem getNextWorkRequired_cases {A : Arith} {c : Chain} {pblock : CBlockHeader}
    {params : ConsensusParams} {b : UInt32}
    (h : getNextWorkRequired A c pblock params = some b) :
    (∃ x ≤ params.powLimit, b = getCompact x) ∨ ∃ blk ∈ c.blocks, blk.nBits = b := by
  rcases getNextWorkRequired_inv h with rfl | h | h | ⟨t, h⟩
  · exact .inl ⟨_, le_rfl, rfl⟩
  · exact .inl (lwmaCalculateNextWorkRequired_cases h)
  · exact .inr h
  · exact (calculateNextWorkRequired_cases h).imp id fun hb => ⟨c.tip, c.tip_mem_blocks, hb.symm⟩

theorem lastNonMinDifficultyBits_isSome {interval : Int → Option Int} {limit : UInt32}
    {blocks : List CBlockIndex} :
    ∀ n : Nat, n < blocks.length → (∀ i : Int, 0 < i → i ≤ n → ∃ v, v ≠ 0 ∧ interval i = some v) →
      ∃ b, lastNonMinDifficultyBits interval limit blocks n = some b
  | 0, hn, _ => ⟨_, by rw [lastNonMinDifficultyBits, List.getElem?_eq_getElem hn]; rfl⟩
  | n + 1, hn, hdai => by
    obtain ⟨v, hv, hd⟩ := hdai (n + 1) (by omega) (by omega)
    rw [lastNonMinDifficultyBits, List.getElem?_eq_getElem hn, hd]
    simp only [cmod_of_ne hv]
    split_ifs
    · exact lastNonMinDifficultyBits_isSome n (by omega) fun i hi hin => hdai i hi (by omega)
    · exact ⟨_, rfl⟩

/-! ## Parameters the engine's words fit -/

/-- Consensus parameters under which `GetNextWorkRequired` always returns, and each word it
computes from admissible targets holds its exact value: the legacy interval is at least 1,
the clamped timespan fits the `uint32_t` operand of `arith_uint256::operator*=`, the
retarget product fits 256 bits, and LWMA either has `T = 0` or its loop fits. -/
structure ParamsFit (params : ConsensusParams) : Prop where
  spacing_pos : 0 < params.nPowTargetSpacing
  spacing_le : params.nPowTargetSpacing ≤ params.nPowTargetTimespan
  timespan_lt : params.nPowTargetTimespan * 4 < 2 ^ 32
  retarget_fits : params.fPowNoRetargeting = false →
    4 * params.nPowTargetTimespan * params.powLimit < 2 ^ 256
  lwma_fits : params.nPowTargetSpacingV2 = 0 ∨ (0 < params.nPowTargetSpacingV2 ∧
    173520 * params.nPowTargetSpacingV2 < 2 ^ 32 ∧
    173520 * params.nPowTargetSpacingV2 * params.powLimit < 2 ^ 256)

theorem networks_fit : ∀ net ∈ networks, ParamsFit net.consensus := by
  simp only [networks, List.mem_cons, List.mem_singleton, List.not_mem_nil, or_false]
  rintro net (rfl | rfl | rfl) <;> refine ⟨?_, ?_, ?_, ?_, ?_⟩ <;>
    norm_num [mainChainParams, testNetChainParams, regTestChainParams, mainParams, testNetParams,
      regTestParams]

/-- The legacy retarget's arithmetic: `v` scaled by a timespan `s ∈ [τ, 16τ]` over `4τ` and
capped at `L ≥ v` stays within a factor of four of `v`. -/
theorem retarget_within_four {v s τ L : Nat} (hτ : 0 < τ) (hv : v ≤ L) (hs0 : τ ≤ s)
    (hs : s ≤ 16 * τ) :
    v / 4 ≤ (if v * s / (4 * τ) > L then L else v * s / (4 * τ)) ∧
      (if v * s / (4 * τ) > L then L else v * s / (4 * τ)) ≤ min (4 * v) L := by
  have hlo : v / 4 ≤ v * s / (4 * τ) :=
    calc v / 4 = v * τ / (4 * τ) := (Nat.mul_div_mul_right v 4 hτ).symm
      _ ≤ v * s / (4 * τ) := Nat.div_le_div_right (Nat.mul_le_mul_left v hs0)
  have hhi : v * s / (4 * τ) ≤ 4 * v :=
    calc v * s / (4 * τ) ≤ v * (16 * τ) / (4 * τ) :=
          Nat.div_le_div_right (Nat.mul_le_mul_left v hs)
      _ = 4 * v := by
          rw [show v * (16 * τ) = 4 * v * (4 * τ) by ring, Nat.mul_div_cancel _ (by omega)]
  split_ifs <;> omega

section Fit

variable {params : ConsensusParams} (hfit : ParamsFit params)
include hfit

theorem ParamsFit.interval_pos : 0 < params.nPowTargetTimespan.tdiv params.nPowTargetSpacing := by
  rw [Int.tdiv_eq_ediv (by linarith [hfit.spacing_pos, hfit.spacing_le]) hfit.spacing_pos.le]
  exact Int.le_ediv_of_mul_le hfit.spacing_pos (by linarith [hfit.spacing_le])

theorem ParamsFit.difficultyAdjustmentInterval_of_lt {nHeight : Int} (h : nHeight < 29000) :
    params.difficultyAdjustmentInterval nHeight =
      some (params.nPowTargetTimespan.tdiv params.nPowTargetSpacing) := by
  have hq : params.nPowTargetTimespan.tdiv params.nPowTargetSpacing ≤ params.nPowTargetTimespan := by
    rw [Int.tdiv_eq_ediv (by linarith [hfit.spacing_pos, hfit.spacing_le]) hfit.spacing_pos.le]
    exact Int.ediv_le_self _ (by linarith [hfit.spacing_pos, hfit.spacing_le])
  rw [ConsensusParams.difficultyAdjustmentInterval, if_pos h, cdiv_of_ne hfit.spacing_pos.ne',
    Option.map_some', toCInt_of_mem (by linarith [hfit.interval_pos])
      (by linarith [hfit.timespan_lt])]

theorem ParamsFit.retarget_machine (hnr : params.fPowNoRetargeting = false) {v : Nat}
    (hv : v ≤ params.powLimit) {s : Int} (hs0 : 0 ≤ s) (hs : s ≤ params.nPowTargetTimespan * 4) :
    udiv (Arith.machine.u256 (v * Arith.machine.u32 s)) (Arith.machine.u64 params.nPowTargetTimespan) =
      udiv (v * s.toNat) params.nPowTargetTimespan.toNat := by
  have ht := hfit.timespan_lt
  have hfits := hfit.retarget_fits hnr
  have hsv : v * s.toNat ≤ params.powLimit * (4 * params.nPowTargetTimespan).toNat :=
    Nat.mul_le_mul hv (by omega)
  obtain ⟨τ, hτ⟩ : ∃ τ : Nat, params.nPowTargetTimespan = τ :=
    ⟨params.nPowTargetTimespan.toNat, (Int.toNat_of_nonneg (by
      linarith [hfit.spacing_pos, hfit.spacing_le])).symm⟩
  rw [hτ] at hsv hfits ht
  have hfits' : 4 * τ * params.powLimit < 2 ^ 256 := by exact_mod_cast hfits
  rw [Arith.machine_u32_of_mem hs0 (by omega), Arith.machine_u256_of_lt (by
    rw [show (4 * (τ : Int)).toNat = 4 * τ by omega] at hsv
    rw [Nat.mul_comm] at hfits'
    omega), hτ, Arith.machine_u64_of_mem (by omega) (by omega)]

theorem ParamsFit.calculateNextWorkRequired_machine_eq_exact {c : Chain}
    (htip : BitsBounded params c.tip.nBits) (first : CBlockIndex) :
    calculateNextWorkRequired Arith.machine c first.getBlockTime params =
      calculateNextWorkRequired Arith.exact c first.getBlockTime params := by
  cases hnr : params.fPowNoRetargeting
  · have ht := hfit.timespan_lt
    have hsp := hfit.spacing_pos
    have hle := hfit.spacing_le
    have htb := getBlockTime_lt c.tip
    have htb0 := getBlockTime_nonneg c.tip
    have hfb := getBlockTime_lt first
    have hfb0 := getBlockTime_nonneg first
    have hv := htip.exact_le
    have h1 : Arith.machine.i64 (c.tip.getBlockTime - first.getBlockTime) =
        c.tip.getBlockTime - first.getBlockTime := Arith.machine_i64_of_mem (by omega) (by omega)
    have h2 : Arith.machine.i64 (params.nPowTargetTimespan * 4) = params.nPowTargetTimespan * 4 :=
      Arith.machine_i64_of_mem (by omega) (by omega)
    have hq : 0 ≤ params.nPowTargetTimespan.tdiv 4 ∧
        params.nPowTargetTimespan.tdiv 4 ≤ params.nPowTargetTimespan * 4 := by
      rw [Int.tdiv_eq_ediv (by omega) (by omega)]
      omega
    simp only [calculateNextWorkRequired, hnr, h1, h2, htip.setCompact_eq,
      Arith.exact_i64, Arith.exact_u256, Arith.exact_u32, Arith.exact_u64, Bool.false_eq_true,
      if_false]
    split_ifs <;> rw [hfit.retarget_machine hnr hv (by omega) (by omega)]
  · simp [calculateNextWorkRequired, hnr]

theorem ParamsFit.getNextWorkRequired_machine_eq_exact {c : Chain}
    (hbits : ∀ b ∈ c.blocks, BitsBounded params b.nBits) (pblock : CBlockHeader) :
    getNextWorkRequired Arith.machine c pblock params =
      getNextWorkRequired Arith.exact c pblock params := by
  have hl : lwmaCalculateNextWorkRequired Arith.machine c params =
      lwmaCalculateNextWorkRequired Arith.exact c params := by
    rcases hfit.lwma_fits with hT | ⟨hT, hT32, hlim⟩
    · rw [lwmaCalculateNextWorkRequired_of_spacing_zero hT,
        lwmaCalculateNextWorkRequired_of_spacing_zero hT]
    · exact lwmaCalculateNextWorkRequired_machine_eq_exact hT hT32 hlim hbits
  have hsp := hfit.spacing_pos
  have hle := hfit.spacing_le
  have ht := hfit.timespan_lt
  have htb := getBlockTime_lt c.tip
  have htb0 := getBlockTime_nonneg c.tip
  have hs2 : Arith.machine.i64 (params.nPowTargetSpacing * 2) = params.nPowTargetSpacing * 2 :=
    Arith.machine_i64_of_mem (by omega) (by omega)
  have hsum : Arith.machine.i64 (c.tip.getBlockTime + params.nPowTargetSpacing * 2) =
      c.tip.getBlockTime + params.nPowTargetSpacing * 2 :=
    Arith.machine_i64_of_mem (by omega) (by omega)
  simp only [getNextWorkRequired, hl, hs2, hsum, Arith.exact_i64,
    hfit.calculateNextWorkRequired_machine_eq_exact (hbits _ c.tip_mem_blocks)]

theorem ParamsFit.calculateNextWorkRequired_within (hnr : params.fPowNoRetargeting = false)
    (h4 : params.nPowTargetTimespan % 4 = 0) {c : Chain} (htip : BitsBounded params c.tip.nBits)
    (nFirstBlockTime : Int) :
    ∃ bnNew, ((setCompact Arith.machine c.tip.nBits).value / 4 ≤ bnNew ∧
        bnNew ≤ min (4 * (setCompact Arith.machine c.tip.nBits).value) params.powLimit) ∧
      calculateNextWorkRequired Arith.machine c nFirstBlockTime params = some (getCompact bnNew) := by
  have hsp := hfit.spacing_pos
  have hle := hfit.spacing_le
  have ht := hfit.timespan_lt
  obtain ⟨τ, hτ⟩ : ∃ τ : Nat, params.nPowTargetTimespan = 4 * τ :=
    ⟨(params.nPowTargetTimespan / 4).toNat, by omega⟩
  have hq : params.nPowTargetTimespan.tdiv 4 = τ := by
    rw [Int.tdiv_eq_ediv (by omega) (by omega)]
    omega
  have h16 : Arith.machine.i64 (params.nPowTargetTimespan * 4) = params.nPowTargetTimespan * 4 :=
    Arith.machine_i64_of_mem (by omega) (by omega)
  have hτn : params.nPowTargetTimespan.toNat = 4 * τ := by omega
  simp only [calculateNextWorkRequired, hnr, hq, h16, Bool.false_eq_true, if_false]
  split_ifs <;>
    rw [hfit.retarget_machine hnr htip.le_powLimit (by omega) (by omega), hτn,
      udiv_of_ne (by omega)] <;>
    exact ⟨_, retarget_within_four (by omega) htip.le_powLimit (by omega) (by omega), rfl⟩

theorem ParamsFit.calculateNextWorkRequired_isSome (c : Chain) (nFirstBlockTime : Int) :
    ∃ b, calculateNextWorkRequired Arith.machine c nFirstBlockTime params = some b := by
  have hsp := hfit.spacing_pos
  have hle := hfit.spacing_le
  have ht := hfit.timespan_lt
  have hτ : Arith.machine.u64 params.nPowTargetTimespan = params.nPowTargetTimespan.toNat :=
    Arith.machine_u64_of_mem (by omega) (by omega)
  simp only [calculateNextWorkRequired, hτ,
    udiv_of_ne (show params.nPowTargetTimespan.toNat ≠ 0 by omega)]
  split_ifs <;> exact ⟨_, rfl⟩

theorem ParamsFit.lwmaCalculateNextWorkRequired_isSome (c : Chain) :
    ∃ b, lwmaCalculateNextWorkRequired Arith.machine c params = some b := by
  rcases hfit.lwma_fits with hT | ⟨hT, hT32, -⟩
  · exact ⟨_, lwmaCalculateNextWorkRequired_of_spacing_zero hT⟩
  · rcases lt_or_le c.nHeight 240 with hh | hh
    · exact ⟨_, lwmaCalculateNextWorkRequired_of_lt hh⟩
    · obtain ⟨blockStart, window, hd⟩ := exists_drop_eq_cons hh
      rw [lwmaCalculateNextWorkRequired_of_drop hh hd]
      exact lwmaFinish_machine_isSome _ hT hT32

theorem ParamsFit.getNextWorkRequired_isSome (c : Chain) (pblock : CBlockHeader) :
    ∃ b, getNextWorkRequired Arith.machine c pblock params = some b := by
  have hi := hfit.interval_pos
  simp only [getNextWorkRequired]
  by_cases hr : 28930 ≤ c.nHeight ∧ c.nHeight ≤ 28999
  · rw [if_pos hr]
    exact ⟨_, rfl⟩
  rw [if_neg hr]
  by_cases hlw : 29000 ≤ (c.nHeight : Int) + 1
  · rw [if_pos hlw]
    exact hfit.lwmaCalculateNextWorkRequired_isSome c
  rw [if_neg hlw, hfit.difficultyAdjustmentInterval_of_lt (by omega)]
  simp only [cmod_of_ne hi.ne']
  split_ifs with hr0 hmin htime hneg
  · exact ⟨_, rfl⟩
  · exact lastNonMinDifficultyBits_isSome _ (by simp) fun i hi0 hin =>
      ⟨_, hi.ne', hfit.difficultyAdjustmentInterval_of_lt (by omega)⟩
  · exact ⟨_, rfl⟩
  · have hdvd := Int.dvd_of_tmod_eq_zero (not_not.mp hr0)
    have := Int.le_of_dvd (by omega) hdvd
    omega
  · obtain ⟨first, hfirst⟩ := c.getAncestor_isSome (not_lt.mp hneg) (by omega)
    rw [hfirst]
    exact hfit.calculateNextWorkRequired_isSome c _

end Fit

theorem calculateNextWorkRequired_within_four {params : ConsensusParams}
    (hnet : params = mainParams ∨ params = testNetParams) {c : Chain}
    (hbits : rangeOk params c.tip.nBits = true) (nFirstBlockTime : Int) :
    ∃ bnNew, ((setCompact Arith.machine c.tip.nBits).value / 4 ≤ bnNew ∧
        bnNew ≤ min (4 * (setCompact Arith.machine c.tip.nBits).value) params.powLimit) ∧
      calculateNextWorkRequired Arith.machine c nFirstBlockTime params = some (getCompact bnNew) := by
  rcases hnet with rfl | rfl
  · exact (networks_fit mainChainParams (by simp [networks])).calculateNextWorkRequired_within rfl
      (by decide) (.of_rangeOk hbits) nFirstBlockTime
  · exact (networks_fit testNetChainParams (by simp [networks])).calculateNextWorkRequired_within
      rfl (by decide) (.of_rangeOk hbits) nFirstBlockTime

theorem calculateNextWorkRequired_within_four_genesis :
    ∃ bnNew, ((setCompact Arith.machine 0x1d00ffff).value / 4 ≤ bnNew ∧
        bnNew ≤ min (4 * (setCompact Arith.machine 0x1d00ffff).value) mainParams.powLimit) ∧
      calculateNextWorkRequired Arith.machine ⟨[], ⟨1231006505, 0x1d00ffff, 0⟩⟩ 0 mainParams =
        some (getCompact bnNew) :=
  calculateNextWorkRequired_within_four (c := ⟨[], ⟨1231006505, 0x1d00ffff, 0⟩⟩) (Or.inl rfl) (by decide) 0

theorem getNextWorkRequired_machine_eq_exact_of_network {net : CChainParams}
    (hnet : net ∈ networks) {c : Chain} (hbits : ∀ b ∈ c.blocks, BitsBounded net.consensus b.nBits)
    (pblock : CBlockHeader) :
    getNextWorkRequired Arith.machine c pblock net.consensus =
      getNextWorkRequired Arith.exact c pblock net.consensus :=
  (networks_fit net hnet).getNextWorkRequired_machine_eq_exact hbits pblock

theorem getNextWorkRequired_machine_eq_exact_onSchedule :
    getNextWorkRequired Arith.machine (onScheduleChain 29000 0x1d00ffff)
        ⟨0, Uint256.zero, Uint256.zero, 3480120, 0x1d00ffff, 0⟩ mainChainParams.consensus =
      getNextWorkRequired Arith.exact (onScheduleChain 29000 0x1d00ffff)
        ⟨0, Uint256.zero, Uint256.zero, 3480120, 0x1d00ffff, 0⟩ mainChainParams.consensus :=
  getNextWorkRequired_machine_eq_exact_of_network (by simp [networks]) (fun b hb => by
    rw [onScheduleChain_nBits hb]
    exact .of_rangeOk (by decide)) _

end Palladium
