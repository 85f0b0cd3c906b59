import Mathlib
import Palladium.Retarget

/-!
# How the difficulty engine answers slow blocks

Both retarget algorithms answer slower blocks with an easier target, never a harder one. LWMA
weights the tip's solve time most, and a later timestamp on the tip never lowers the target it
returns; the legacy retarget's target grows with the timespan it measures. Both are statements
about the `nBits` returned, decoded: `GetCompact` cuts a target at a byte boundary, and the cut
keeps the order of targets.
-/

namespace Palladium

/-! ## LWMA -/

def Chain.withTipTime (c : Chain) (nTime : UInt32) : Chain :=
  ⟨c.ancestors, { c.tip with nTime := nTime }⟩

/-- The timestamp LWMA's loop carries past a run of blocks: each one below it is raised to it. -/
def lwmaPrevTime (prevTime : Int) (window : List CBlockIndex) : Int :=
  window.foldl (fun p b => max b.getBlockTime p) prevTime

theorem lwmaSolveTimes_append_singleton (T : Int) (b : CBlockIndex) :
    ∀ (prevTime : Int) (window : List CBlockIndex),
      lwmaSolveTimes T prevTime (window ++ [b]) = lwmaSolveTimes T prevTime window ++
        [min (6 * T) (max 1 (max b.getBlockTime (lwmaPrevTime prevTime window) -
          lwmaPrevTime prevTime window))]
  | _, [] => rfl
  | prevTime, a :: window => by
    show _ :: lwmaSolveTimes T _ (window ++ [b]) = (_ :: lwmaSolveTimes T _ window) ++ _
    rw [lwmaSolveTimes_append_singleton T b _ window]
    rfl

theorem weightedSum_append_singleton (l : List Int) (x : Int) :
    (((l ++ [x]).enumFrom 1).map fun p => (p.1 : Int) * p.2).sum =
      ((l.enumFrom 1).map fun p => (p.1 : Int) * p.2).sum + (1 + l.length : Nat) * x := by
  simp [List.enumFrom_append, List.enumFrom_singleton]

theorem lastSolveTime_le {T q a a' : Int} (h : a ≤ a') :
    min (6 * T) (max 1 (max a q - q)) ≤ min (6 * T) (max 1 (max a' q - q)) := by
  omega

theorem lwmaReferenceOf_le_of_later_tip {params : ConsensusParams}
    (hT : 0 < params.nPowTargetSpacingV2) (blockStart : CBlockIndex) (window : List CBlockIndex)
    (tip : CBlockIndex) {nTime : UInt32} (hlater : tip.nTime ≤ nTime) :
    (setCompact Arith.machine (lwmaReferenceOf params blockStart (window ++ [tip]))).value ≤
      (setCompact Arith.machine
        (lwmaReferenceOf params blockStart (window ++ [{ tip with nTime := nTime }]))).value := by
  set T := params.nPowTargetSpacingV2
  set q := lwmaPrevTime blockStart.getBlockTime window
  set W := (((lwmaSolveTimes T blockStart.getBlockTime window).enumFrom 1).map
    fun p => (p.1 : Int) * p.2).sum
  set S := ((window ++ [tip]).map fun b => (setCompact Arith.exact b.nBits).value).sum
  have hS : ((window ++ [{ tip with nTime := nTime }]).map
      fun b : CBlockIndex => (setCompact Arith.exact b.nBits).value).sum = S := by
    simp only [S, List.map_append, List.map_singleton]
  have hst : min (6 * T) (max 1 (max tip.getBlockTime q - q)) ≤
      min (6 * T) (max 1 (max ({ tip with nTime := nTime } : CBlockIndex).getBlockTime q - q)) :=
    lastSolveTime_le (by simpa [CBlockIndex.getBlockTime] using hlater)
  have hkT : 0 < 240 * 241 * T / 2 * T := by rw [lwma_kT_eq]; positivity
  have hW : ((S / 240 : Nat) : Int) * (W + (1 + (lwmaSolveTimes T blockStart.getBlockTime
      window).length : Nat) * min (6 * T) (max 1 (max tip.getBlockTime q - q))) ≤
      ((S / 240 : Nat) : Int) * (W + (1 + (lwmaSolveTimes T blockStart.getBlockTime
        window).length : Nat) *
          min (6 * T) (max 1 (max ({ tip with nTime := nTime } : CBlockIndex).getBlockTime q - q))) :=
    mul_le_mul_of_nonneg_left (by nlinarith) (by positivity)
  unfold lwmaReferenceOf
  simp only [lwmaSolveTimes_append_singleton, weightedSum_append_singleton, hS]
  refine setCompact_getCompact_le (fun _ => Arith.machine_u256_of_lt)
    (min_le_min_left _ (Int.toNat_le_toNat (Int.ediv_le_ediv hkT hW)))
    ((min_le_left _ _).trans_lt params.powLimit_lt)

theorem mem_withTipTime_blocks {c : Chain} {nTime : UInt32} {b : CBlockIndex}
    (hb : b ∈ (c.withTipTime nTime).blocks) : b ∈ c.ancestors ∨ b = { c.tip with nTime := nTime } := by
  simpa [Chain.withTipTime, Chain.blocks] using hb

/-- A later timestamp on the tip never makes LWMA's next target harder: with the tip's time
raised, `LwmaCalculateNextWorkRequired` returns bits that decode to a target at least as large,
on every branch of admissible targets, for parameters whose words do not overflow. -/
theorem lwmaCalculateNextWorkRequired_withTipTime {params : ConsensusParams} {c : Chain}
    {nTime : UInt32} (hT : 0 < params.nPowTargetSpacingV2)
    (hT32 : 173520 * params.nPowTargetSpacingV2 < 2 ^ 32)
    (hlim : 173520 * params.nPowTargetSpacingV2 * params.powLimit < 2 ^ 256)
    (hbits : ∀ b ∈ c.blocks, BitsBounded params b.nBits) (hlater : c.tip.nTime ≤ nTime) :
    ∃ bits bits', lwmaCalculateNextWorkRequired Arith.machine c params = some bits ∧
      lwmaCalculateNextWorkRequired Arith.machine (c.withTipTime nTime) params = some bits' ∧
      (setCompact Arith.machine bits).value ≤ (setCompact Arith.machine bits').value := by
  have hn : (c.withTipTime nTime).nHeight = c.nHeight := rfl
  rcases lt_or_le c.nHeight 240 with hh | hh
  · exact ⟨_, _, lwmaCalculateNextWorkRequired_of_lt hh,
      lwmaCalculateNextWorkRequired_of_lt (hn ▸ hh), le_rfl⟩
  obtain ⟨blockStart, rest, hd⟩ : ∃ blockStart rest,
      c.ancestors.drop (c.nHeight - 240) = blockStart :: rest :=
    List.exists_cons_of_ne_nil (List.ne_nil_of_length_pos (by
      rw [List.length_drop]
      show 0 < c.nHeight - (c.nHeight - 240)
      omega))
  have hdrop : ∀ tip : CBlockIndex, (c.ancestors ++ [tip]).drop (c.nHeight - 240) =
      blockStart :: (rest ++ [tip]) := fun tip => by
    rw [List.drop_append_of_le_length (by simp [Chain.nHeight]), hd, List.cons_append]
  have hrest : ∀ b ∈ rest, b ∈ c.ancestors := fun b hb =>
    List.mem_of_mem_drop (hd ▸ List.mem_cons_of_mem _ hb)
  have hbits' : ∀ b ∈ rest ++ [c.tip], BitsBounded params b.nBits := fun b hb =>
    hbits b (by
      rcases List.mem_append.mp hb with hb | hb
      · exact List.mem_append_left _ (hrest b hb)
      · exact List.mem_append_right _ hb)
  refine ⟨_, _, lwmaCalculateNextWorkRequired_machine_of_drop hT hT32 hlim hh (hdrop c.tip) hbits',
    lwmaCalculateNextWorkRequired_machine_of_drop hT hT32 hlim (hn ▸ hh) (hdrop _) fun b hb => ?_,
    lwmaReferenceOf_le_of_later_tip hT blockStart rest c.tip hlater⟩
  rcases List.mem_append.mp hb with hb | hb
  · exact hbits' b (List.mem_append_left _ hb)
  · rw [List.mem_singleton.mp hb]
    exact hbits' c.tip (List.mem_append_right _ (List.mem_singleton_self _))

theorem onScheduleChain_withTipTime :
    (0 < mainParams.nPowTargetSpacingV2 ∧ 173520 * mainParams.nPowTargetSpacingV2 < 2 ^ 32 ∧
      173520 * mainParams.nPowTargetSpacingV2 * mainParams.powLimit < 2 ^ 256 ∧
      (∀ b ∈ (onScheduleChain 240 0x1d00ffff).blocks, BitsBounded mainParams b.nBits) ∧
      (onScheduleChain 240 0x1d00ffff).tip.nTime ≤ 30000) ∧
    ∃ bits bits',
      lwmaCalculateNextWorkRequired Arith.machine (onScheduleChain 240 0x1d00ffff) mainParams =
        some bits ∧
      lwmaCalculateNextWorkRequired Arith.machine
        ((onScheduleChain 240 0x1d00ffff).withTipTime 30000) mainParams = some bits' ∧
      (setCompact Arith.machine bits).value ≤ (setCompact Arith.machine bits').value :=
  have hbits : ∀ b ∈ (onScheduleChain 240 0x1d00ffff).blocks, BitsBounded mainParams b.nBits :=
    fun b hb => by
      simp only [onScheduleChain, Chain.blocks, List.mem_append, List.mem_map,
        List.mem_singleton] at hb
      rcases hb with ⟨i, -, rfl⟩ | rfl <;>
        exact .of_rangeOk (show rangeOk mainParams 0x1d00ffff = true by decide)
  ⟨⟨by decide, by norm_num [mainParams], by norm_num [mainParams], hbits, by decide⟩,
    lwmaCalculateNextWorkRequired_withTipTime (by decide) (by norm_num [mainParams])
      (by norm_num [mainParams]) hbits (by decide)⟩

/-! ## The legacy retarget -/

theorem clampTimespan_le {lo hi a a' : Int} (h : a ≤ a') :
    (if (if a < lo then lo else a) > hi then hi else if a < lo then lo else a) ≤
      (if (if a' < lo then lo else a') > hi then hi else if a' < lo then lo else a') := by
  split_ifs <;> omega

/-- A longer measured timespan never makes the legacy retarget harder: for two branches whose
tips carry the same admissible `nBits`, the one whose tip lies further past its first block
gets bits that decode to a target at least as large. -/
theorem calculateNextWorkRequired_le_of_timespan_le {params : ConsensusParams}
    (hfit : ParamsFit params) {c c' : Chain} {first first' : CBlockIndex}
    (hbits : c'.tip.nBits = c.tip.nBits) (htip : BitsBounded params c.tip.nBits)
    (hspan : c.tip.getBlockTime - first.getBlockTime ≤ c'.tip.getBlockTime - first'.getBlockTime) :
    ∃ bits bits', calculateNextWorkRequired Arith.machine c first.getBlockTime params = some bits ∧
      calculateNextWorkRequired Arith.machine c' first'.getBlockTime params = some bits' ∧
      (setCompact Arith.machine bits).value ≤ (setCompact Arith.machine bits').value := by
  rw [hfit.calculateNextWorkRequired_machine_eq_exact htip,
    hfit.calculateNextWorkRequired_machine_eq_exact (hbits ▸ htip)]
  cases hnr : params.fPowNoRetargeting
  · have hτ : params.nPowTargetTimespan.toNat ≠ 0 := by
      have := hfit.spacing_pos
      have := hfit.spacing_le
      omega
    simp only [calculateNextWorkRequired, hnr, hbits, Arith.exact_i64, Arith.exact_u256,
      Arith.exact_u32, Arith.exact_u64, udiv_of_ne hτ, Bool.false_eq_true, if_false, ite_gt_eq_min]
    exact ⟨_, _, rfl, rfl, setCompact_getCompact_le (fun _ => Arith.machine_u256_of_lt)
      (min_le_min_left _ (Nat.div_le_div_right (Nat.mul_le_mul_left _
        (Int.toNat_le_toNat (clampTimespan_le hspan)))))
      ((min_le_left _ _).trans_lt params.powLimit_lt)⟩
  · simp [calculateNextWorkRequired, hnr, hbits]

theorem calculateNextWorkRequired_main_slower :
    (ParamsFit mainParams ∧ (0x1d00ffff : UInt32) = 0x1d00ffff ∧
      BitsBounded mainParams 0x1d00ffff ∧
      CBlockIndex.getBlockTime ⟨1231006505, 0x1d00ffff, 0⟩ - CBlockIndex.getBlockTime ⟨1230000000, 0, 0⟩ ≤
        CBlockIndex.getBlockTime ⟨1232006505, 0x1d00ffff, 0⟩ -
          CBlockIndex.getBlockTime ⟨1230000000, 0, 0⟩) ∧
    ∃ bits bits', calculateNextWorkRequired Arith.machine ⟨[], ⟨1231006505, 0x1d00ffff, 0⟩⟩
        (CBlockIndex.getBlockTime ⟨1230000000, 0, 0⟩) mainParams = some bits ∧
      calculateNextWorkRequired Arith.machine ⟨[], ⟨1232006505, 0x1d00ffff, 0⟩⟩
        (CBlockIndex.getBlockTime ⟨1230000000, 0, 0⟩) mainParams = some bits' ∧
      (setCompact Arith.machine bits).value ≤ (setCompact Arith.machine bits').value :=
  have hfit := networks_fit mainChainParams (by simp [networks])
  have htip : BitsBounded mainParams 0x1d00ffff := .of_rangeOk (by decide)
  ⟨⟨hfit, rfl, htip, by decide⟩,
    calculateNextWorkRequired_le_of_timespan_le hfit rfl htip (by decide)⟩

end Palladium
