import Mathlib
import Palladium.Difficulty

/-!
# LWMA

`LwmaCalculateNextWorkRequired` folds its loop body over the 240 blocks after the one at
height `h - 240`. While the weighted solve-time sum fits 32 bits and its product with
`powLimit` fits 256 bits, the machine's fold and finish agree with the exact ones, and the
exact ones compute the reference LWMA of spec §4.3.2.
-/

namespace Palladium

theorem lwmaLoop_eq_foldl (A : Arith) (T : Int) (c : Chain) :
    ∀ (n i : Nat) (acc : LwmaAcc), i + n ≤ c.nHeight + 1 →
      lwmaLoop A T c n i acc = some ((c.blocks.drop i).take n |>.foldl (lwmaStep A T) acc) := by
  intro n
  induction n with
  | zero => intro i acc _; simp [lwmaLoop]
  | succ n ih =>
    intro i acc hi
    have hlt : i < c.blocks.length := by simp; omega
    rw [lwmaLoop, Chain.getAncestor_natCast, List.getElem?_eq_getElem hlt]
    simp only
    rw [show ((i : Int) + 1) = ((i + 1 : Nat) : Int) by push_cast; rfl, ih (i + 1) _ (by omega),
      List.drop_eq_getElem_cons hlt, List.take_succ_cons, List.foldl_cons]

theorem lwmaCalculateNextWorkRequired_of_lt {A : Arith} {c : Chain} {params : ConsensusParams}
    (h : c.nHeight < 240) :
    lwmaCalculateNextWorkRequired A c params = some (getCompact params.powLimit) := by
  unfold lwmaCalculateNextWorkRequired
  simp only
  split_ifs <;> first | rfl | omega

theorem length_window_of_drop {c : Chain} {blockStart : CBlockIndex}
    {window : List CBlockIndex} (hh : 240 ≤ c.nHeight)
    (hd : c.blocks.drop (c.nHeight - 240) = blockStart :: window) : window.length = 240 := by
  have := congrArg List.length hd
  simp at this
  omega

theorem exists_drop_eq_cons {c : Chain} (hh : 240 ≤ c.nHeight) :
    ∃ blockStart window, c.blocks.drop (c.nHeight - 240) = blockStart :: window :=
  List.exists_cons_of_ne_nil (List.ne_nil_of_length_pos (by simp; omega))

theorem lwmaCalculateNextWorkRequired_of_drop {A : Arith} {c : Chain} {params : ConsensusParams}
    {blockStart : CBlockIndex} {window : List CBlockIndex} (hh : 240 ≤ c.nHeight)
    (hd : c.blocks.drop (c.nHeight - 240) = blockStart :: window) :
    lwmaCalculateNextWorkRequired A c params =
      lwmaFinish A params
        (window.foldl (lwmaStep A params.nPowTargetSpacingV2) ⟨blockStart.getBlockTime, 0, 0, 0⟩) := by
  have hlen := length_window_of_drop hh hd
  have hstart : c.getAncestor ((c.nHeight : Int) - 240) = some blockStart := by
    rw [show (c.nHeight : Int) - 240 = ((c.nHeight - 240 : Nat) : Int) by omega,
      Chain.getAncestor_natCast, ← List.head?_drop, hd, List.head?_cons]
  have hwin : (c.blocks.drop (c.nHeight - 239)).take 240 = window := by
    rw [show c.nHeight - 239 = c.nHeight - 240 + 1 by omega, ← List.drop_drop, hd,
      List.drop_one, List.tail_cons, List.take_of_length_le (by omega)]
  unfold lwmaCalculateNextWorkRequired
  simp only [hstart]
  rw [if_neg (by omega), if_neg (by omega),
    show (c.nHeight : Int) - 240 + 1 = ((c.nHeight - 239 : Nat) : Int) by omega,
    lwmaLoop_eq_foldl A _ c 240 _ _ (by omega), hwin]

theorem getBlockTime_nonneg (b : CBlockIndex) : 0 ≤ b.getBlockTime := Int.natCast_nonneg _

theorem getBlockTime_lt (b : CBlockIndex) : b.getBlockTime < 2 ^ 32 := by
  have := b.nTime.toNat_lt
  simp only [CBlockIndex.getBlockTime]
  omega

/-! ## The exact loop -/

theorem lwmaStep_exact (T : Int) (acc : LwmaAcc) (b : CBlockIndex) :
    lwmaStep Arith.exact T acc b =
      ⟨max b.getBlockTime acc.previousTimestamp, acc.j + 1,
        acc.t + min (6 * T) (max 1 (max b.getBlockTime acc.previousTimestamp -
          acc.previousTimestamp)) * (acc.j + 1),
        acc.sumTarget + (setCompact Arith.exact b.nBits).value⟩ := by
  have h : (if b.getBlockTime < acc.previousTimestamp then acc.previousTimestamp
      else b.getBlockTime) = max b.getBlockTime acc.previousTimestamp := by
    split <;> omega
  simp only [lwmaStep, Arith.exact_i64, Arith.exact_u256, h]

/-- The solve times of spec §4.3.2 from `prevTime` on: a timestamp below the previous one is
raised to it, and each difference is clamped to `[1, 6T]`. -/
def lwmaSolveTimes (T : Int) : Int → List CBlockIndex → List Int
  | _, [] => []
  | prevTime, b :: bs =>
    min (6 * T) (max 1 (max b.getBlockTime prevTime - prevTime)) ::
      lwmaSolveTimes T (max b.getBlockTime prevTime) bs

theorem foldl_lwmaStep_exact (T : Int) :
    ∀ (window : List CBlockIndex) (acc : LwmaAcc) (n : Nat), acc.j = n →
      (window.foldl (lwmaStep Arith.exact T) acc).t = acc.t +
        (((lwmaSolveTimes T acc.previousTimestamp window).enumFrom (n + 1)).map
          fun p => (p.1 : Int) * p.2).sum ∧
      (window.foldl (lwmaStep Arith.exact T) acc).sumTarget = acc.sumTarget +
        (window.map fun b => (setCompact Arith.exact b.nBits).value).sum := by
  intro window
  induction window with
  | nil => intro acc n _; simp [lwmaSolveTimes]
  | cons b window ih =>
    intro acc n hj
    obtain ⟨ht, hs⟩ := ih (lwmaStep Arith.exact T acc b) (n + 1) (by rw [lwmaStep_exact]; simp [hj])
    rw [List.foldl_cons, ht, hs]
    simp only [lwmaStep_exact, lwmaSolveTimes, List.enumFrom, List.map_cons, List.sum_cons, hj]
    constructor
    · push_cast; ring
    · ring

/-- Bounds on the loop variables of LWMA after `n` passes. -/
structure LwmaBounds (T : Int) (n : Nat) (acc : LwmaAcc) : Prop where
  j_eq : acc.j = n
  t_nonneg : 0 ≤ acc.t
  t_le : 2 * acc.t ≤ 6 * T * n * (n + 1)
  prev_nonneg : 0 ≤ acc.previousTimestamp
  prev_lt : acc.previousTimestamp < 2 ^ 32

theorem lwmaBounds_start (T : Int) (blockStart : CBlockIndex) :
    LwmaBounds T 0 ⟨blockStart.getBlockTime, 0, 0, 0⟩ :=
  ⟨rfl, le_rfl, by simp, getBlockTime_nonneg _, getBlockTime_lt _⟩

theorem lwmaBounds_step {T : Int} {n : Nat} {acc : LwmaAcc} (b : CBlockIndex) (hT : 0 < T)
    (hacc : LwmaBounds T n acc) : LwmaBounds T (n + 1) (lwmaStep Arith.exact T acc b) := by
  obtain ⟨hj, ht0, ht, hp0, hp⟩ := hacc
  rw [lwmaStep_exact]
  have htb := getBlockTime_lt b
  have hs1 : 1 ≤ min (6 * T) (max 1 (max b.getBlockTime acc.previousTimestamp -
      acc.previousTimestamp)) := by omega
  have hs6 : min (6 * T) (max 1 (max b.getBlockTime acc.previousTimestamp -
      acc.previousTimestamp)) ≤ 6 * T := min_le_left _ _
  refine ⟨by simp [hj], ?_, ?_, le_max_of_le_right hp0, by simp only; omega⟩
  · simp only
    rw [hj]
    positivity
  · simp only
    rw [hj]
    push_cast
    have hmul := Int.mul_le_mul_of_nonneg_right hs6 (by positivity : (0 : Int) ≤ n + 1)
    have hring : 6 * T * n * (n + 1) + 2 * (6 * T * (n + 1)) = 6 * T * (n + 1) * (n + 1 + 1) := by
      ring
    omega

/-! ## The machine loop

`arith_uint256` wraps `sumTarget` mod 2^256; while the weighted sum `t` stays below
`6T * 28920` every other loop variable is the exact one. -/

def LwmaAcc.wrap (acc : LwmaAcc) : LwmaAcc := { acc with sumTarget := acc.sumTarget % 2 ^ 256 }

@[simp] theorem LwmaAcc.wrap_t (acc : LwmaAcc) : acc.wrap.t = acc.t := rfl

@[simp] theorem LwmaAcc.wrap_sumTarget (acc : LwmaAcc) :
    acc.wrap.sumTarget = acc.sumTarget % 2 ^ 256 := rfl

theorem LwmaAcc.wrap_of_lt {acc : LwmaAcc} (h : acc.sumTarget < 2 ^ 256) : acc.wrap = acc := by
  rw [LwmaAcc.wrap, Nat.mod_eq_of_lt h]

theorem lwmaStep_machine {T : Int} {n : Nat} {acc : LwmaAcc} (b : CBlockIndex) (hT : 0 < T)
    (hT32 : 173520 * T < 2 ^ 32) (hn : n < 240) (hacc : LwmaBounds T n acc) :
    lwmaStep Arith.machine T acc.wrap b = (lwmaStep Arith.exact T acc b).wrap := by
  obtain ⟨hj, ht0, ht, hp0, hp⟩ := hacc
  have htb := getBlockTime_lt b
  have htb0 := getBlockTime_nonneg b
  set this' := if b.getBlockTime < acc.previousTimestamp then acc.previousTimestamp
    else b.getBlockTime with hthis
  have hthis0 : 0 ≤ this' ∧ this' < 2 ^ 32 := by rw [hthis]; split <;> omega
  have h1 : Arith.machine.i64 (this' - acc.previousTimestamp) = this' - acc.previousTimestamp :=
    Arith.machine_i64_of_mem (by omega) (by omega)
  have h2 : Arith.machine.i64 (6 * T) = 6 * T := Arith.machine_i64_of_mem (by omega) (by omega)
  have h3 : Arith.machine.i64 (acc.j + 1) = acc.j + 1 :=
    Arith.machine_i64_of_mem (by omega) (by omega)
  set s := min (6 * T) (max 1 (this' - acc.previousTimestamp)) with hs'
  have hs1 : 1 ≤ s ∧ s ≤ 6 * T := by omega
  have hn' : (n : Int) + 1 ≤ 240 := by omega
  have hsj : 0 ≤ s * (acc.j + 1) ∧ s * (acc.j + 1) ≤ 6 * T * 240 := by
    rw [hj]
    exact ⟨by positivity, (Int.mul_le_mul_of_nonneg_right hs1.2 (by positivity)).trans
      (Int.mul_le_mul_of_nonneg_left hn' (by omega))⟩
  have h4 : Arith.machine.i64 (s * (acc.j + 1)) = s * (acc.j + 1) :=
    Arith.machine_i64_of_mem (by omega) (by omega)
  have hnn : 6 * T * n * (n + 1) ≤ 6 * T * 240 * 241 := by
    rw [mul_assoc (6 * T), mul_assoc (6 * T)]
    exact Int.mul_le_mul_of_nonneg_left (Int.mul_le_mul (by omega) (by omega) (by omega)
      (by omega)) (by omega)
  have h5 : Arith.machine.i64 (acc.t + s * (acc.j + 1)) = acc.t + s * (acc.j + 1) :=
    Arith.machine_i64_of_mem (by omega) (by omega)
  have h6 : Arith.machine.u256 (acc.sumTarget % 2 ^ 256 + (setCompact Arith.machine b.nBits).value) =
      (acc.sumTarget + (setCompact Arith.exact b.nBits).value) % 2 ^ 256 := by
    rw [setCompact_machine_value]
    exact (Nat.add_mod _ _ _).symm
  simp only [lwmaStep, LwmaAcc.wrap, ← hthis, h1, h2, ← hs', h3, h4, h5, h6, Arith.exact_i64,
    Arith.exact_u256]

/-- Over a window of at most 240 blocks the machine's loop is the exact one with `sumTarget`
wrapped, whatever targets the blocks carry. -/
theorem foldl_lwmaStep_machine {T : Int} (hT : 0 < T) (hT32 : 173520 * T < 2 ^ 32) :
    ∀ (window : List CBlockIndex) (n : Nat) (acc : LwmaAcc), n + window.length ≤ 240 →
      LwmaBounds T n acc →
      window.foldl (lwmaStep Arith.machine T) acc.wrap =
        (window.foldl (lwmaStep Arith.exact T) acc).wrap ∧
      LwmaBounds T (n + window.length) (window.foldl (lwmaStep Arith.exact T) acc) := by
  intro window
  induction window with
  | nil => intro n acc _ hacc; exact ⟨rfl, hacc⟩
  | cons b window ih =>
    intro n acc hn hacc
    simp only [List.foldl_cons, List.length_cons] at hn ⊢
    rw [lwmaStep_machine b hT hT32 (by omega) hacc,
      show n + (window.length + 1) = n + 1 + window.length by omega]
    exact ih (n + 1) _ (by omega) (lwmaBounds_step b hT hacc)

/-! ## The finish -/

theorem ite_gt_eq_min (x P : Nat) : (if x > P then P else x) = min P x := by
  split <;> omega

theorem lwma_k_eq {T : Int} (hT : 0 ≤ T) : (240 * (240 + 1) * T).tdiv 2 = 28920 * T := by
  rw [Int.tdiv_eq_ediv (by omega) (by omega)]; omega

theorem lwmaFinish_congr {A : Arith} {params : ConsensusParams} {acc acc' : LwmaAcc}
    (ht : acc.t = acc'.t) (hs : acc.sumTarget = acc'.sumTarget) :
    lwmaFinish A params acc = lwmaFinish A params acc' := by
  simp only [lwmaFinish, ht, hs]

theorem lwmaFinish_exact {params : ConsensusParams} (acc : LwmaAcc)
    (hT : 0 < params.nPowTargetSpacingV2) :
    lwmaFinish Arith.exact params acc = some (getCompact (min params.powLimit
      (acc.sumTarget / 240 * acc.t.toNat /
        (28920 * params.nPowTargetSpacingV2 * params.nPowTargetSpacingV2).toNat))) := by
  have hkT : 0 < 28920 * params.nPowTargetSpacingV2 * params.nPowTargetSpacingV2 := by positivity
  simp only [lwmaFinish, Arith.exact_i64, Arith.exact_u64, Arith.exact_u32, Arith.exact_u256,
    lwma_k_eq hT.le]
  rw [if_neg (by omega)]
  simp [udiv, not_le.mpr hkT, ite_gt_eq_min]

theorem lwmaFinish_of_spacing_zero {A : Arith} {params : ConsensusParams} (acc : LwmaAcc)
    (hT : params.nPowTargetSpacingV2 = 0) :
    lwmaFinish A params acc = some (getCompact params.powLimit) := by
  simp [lwmaFinish, hT]

/-- For `0 < T` with `173520 * T < 2^32` the machine computes `k = 28920 * T` and the divisor
`k * T` without wrapping, and the divisor is not zero. -/
theorem lwma_k_machine {T : Int} (hT : 0 < T) (hT32 : 173520 * T < 2 ^ 32) :
    (Arith.machine.i64 (Arith.machine.i64 (240 * (240 + 1)) * T)).tdiv 2 = 28920 * T ∧
    Arith.machine.i64 (28920 * T * T) = 28920 * T * T ∧
    Arith.machine.u64 (28920 * T * T) = (28920 * T * T).toNat ∧ 0 < 28920 * T * T := by
  have hTT : 28920 * T * T ≤ 28920 * T * 24752 := Int.mul_le_mul_of_nonneg_left (by omega) (by omega)
  have hTT0 : 0 < 28920 * T * T := Int.mul_pos (by omega) hT
  have h1 : Arith.machine.i64 (240 * (240 + 1)) = 240 * (240 + 1) :=
    Arith.machine_i64_of_mem (by omega) (by omega)
  have h2 : Arith.machine.i64 (240 * (240 + 1) * T) = 240 * (240 + 1) * T :=
    Arith.machine_i64_of_mem (by omega) (by omega)
  exact ⟨by rw [h1, h2, lwma_k_eq hT.le], Arith.machine_i64_of_mem (by omega) (by omega),
    Arith.machine_u64_of_mem (by omega) (by omega), hTT0⟩

theorem machine_u64_240 : Arith.machine.u64 240 = 240 :=
  Arith.machine_u64_of_mem (by omega) (by omega)

theorem lwmaFinish_machine_isSome {params : ConsensusParams} (acc : LwmaAcc)
    (hT : 0 < params.nPowTargetSpacingV2) (hT32 : 173520 * params.nPowTargetSpacingV2 < 2 ^ 32) :
    ∃ b, lwmaFinish Arith.machine params acc = some b := by
  obtain ⟨hk, hkT, hu, hpos⟩ := lwma_k_machine hT hT32
  simp only [lwmaFinish, hk, hkT, hu, machine_u64_240]
  rw [if_neg (by omega), udiv_of_ne (by omega : (240 : Nat) ≠ 0)]
  simp only [udiv_of_ne (show (28920 * params.nPowTargetSpacingV2 *
    params.nPowTargetSpacingV2).toNat ≠ 0 by omega)]
  exact ⟨_, rfl⟩

theorem lwmaFinish_machine {params : ConsensusParams} {acc : LwmaAcc}
    (hT : 0 < params.nPowTargetSpacingV2) (hT32 : 173520 * params.nPowTargetSpacingV2 < 2 ^ 32)
    (hlim : 173520 * params.nPowTargetSpacingV2 * params.powLimit < 2 ^ 256)
    (hacc : LwmaBounds params.nPowTargetSpacingV2 240 acc)
    (hs : acc.sumTarget ≤ 240 * params.powLimit) :
    lwmaFinish Arith.machine params acc = lwmaFinish Arith.exact params acc := by
  obtain ⟨hk, hkT, hu, -⟩ := lwma_k_machine hT hT32
  obtain ⟨-, ht0, ht, -, -⟩ := hacc
  have h5 : Arith.machine.u32 acc.t = acc.t.toNat := Arith.machine_u32_of_mem ht0 (by omega)
  have h7 : Arith.machine.u256 (acc.sumTarget / 240 * acc.t.toNat) =
      acc.sumTarget / 240 * acc.t.toNat := by
    apply Arith.machine_u256_of_lt
    obtain ⟨T, hTeq⟩ : ∃ T : Nat, params.nPowTargetSpacingV2 = T :=
      ⟨params.nPowTargetSpacingV2.toNat, (Int.toNat_of_nonneg hT.le).symm⟩
    rw [hTeq] at hlim ht
    have hlim' : 173520 * T * params.powLimit < 2 ^ 256 := by exact_mod_cast hlim
    have := Nat.mul_le_mul (show acc.sumTarget / 240 ≤ params.powLimit by omega)
      (show acc.t.toNat ≤ 173520 * T by omega)
    rw [Nat.mul_comm params.powLimit] at this
    omega
  simp only [lwmaFinish, hk, hkT, hu, h5, machine_u64_240, lwma_k_eq hT.le, Arith.exact_i64,
    Arith.exact_u32, Arith.exact_u64, Arith.exact_u256]
  rw [show Int.toNat 240 = 240 from rfl, udiv_of_ne (by omega : (240 : Nat) ≠ 0)]
  simp only [h7]

theorem lwmaCalculateNextWorkRequired_of_spacing_zero {A : Arith} {c : Chain}
    {params : ConsensusParams} (hT : params.nPowTargetSpacingV2 = 0) :
    lwmaCalculateNextWorkRequired A c params = some (getCompact params.powLimit) := by
  rcases lt_or_le c.nHeight 240 with hh | hh
  · exact lwmaCalculateNextWorkRequired_of_lt hh
  · obtain ⟨blockStart, window, hd⟩ := exists_drop_eq_cons hh
    rw [lwmaCalculateNextWorkRequired_of_drop hh hd, lwmaFinish_of_spacing_zero _ hT]

end Palladium
