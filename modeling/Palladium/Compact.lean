import Mathlib
import Palladium.Uint256

/-!
# The compact target codec

`arith_uint256.cpp` is not among the sources, so `SetCompact` and `GetCompact` are written
from §4.1 of the spec in their usual form: a size byte, a 23-bit mantissa and the sign bit
`0x00800000`. Encoding never sets the sign bit and decoding an encoded target gives a value
that is not above it; these two facts carry the bounds of the difficulty engine.
-/

namespace Palladium

def byteLengthAux : Nat → Nat → Nat
  | 0, _ => 0
  | fuel + 1, n => if n = 0 then 0 else byteLengthAux fuel (n / 256) + 1

/-- The number of bytes of `n`, `(bits() + 7) / 8` of `arith_uint256`. -/
def byteLength (n : Nat) : Nat := byteLengthAux n n

theorem byteLengthAux_le_iff (fuel n k : Nat) (h : n ≤ fuel) :
    byteLengthAux fuel n ≤ k ↔ n < 256 ^ k := by
  induction fuel generalizing n k with
  | zero => simp [byteLengthAux, show n = 0 by omega, Nat.pos_pow_of_pos]
  | succ fuel ih =>
    unfold byteLengthAux
    split
    · simp [*, Nat.pos_pow_of_pos]
    · cases k with
      | zero => simp; omega
      | succ k =>
        rw [Nat.add_le_add_iff_right, ih _ _ (by omega), pow_succ, Nat.div_lt_iff_lt_mul (by norm_num)]

theorem byteLength_le_iff {n k : Nat} : byteLength n ≤ k ↔ n < 256 ^ k :=
  byteLengthAux_le_iff n n k le_rfl

theorem lt_pow_byteLength (n : Nat) : n < 256 ^ byteLength n :=
  byteLength_le_iff.mp le_rfl

theorem pow_byteLength_le {n : Nat} (h : 0 < n) : 256 ^ (byteLength n - 1) ≤ n := by
  by_contra hlt
  have := byteLength_le_iff.mpr (Nat.lt_of_not_le hlt)
  have h0 : byteLength n ≠ 0 := fun h0 => by
    have := lt_pow_byteLength n
    rw [h0] at this
    omega
  omega

structure Decoded where
  value : Nat
  fNegative : Bool
  fOverflow : Bool
  deriving DecidableEq

/-- Modelled from the spec: `arith_uint256::SetCompact`. The mantissa is shifted right when
the size is at most three bytes and otherwise shifted left into the 256-bit word, where the
machine drops what passes the top. -/
def setCompact (A : Arith) (nCompact : UInt32) : Decoded :=
  let c := nCompact.toNat
  let nSize := c / 2 ^ 24
  let nWord := if nSize ≤ 3 then c % 2 ^ 23 / 256 ^ (3 - nSize) else c % 2 ^ 23
  { value := if nSize ≤ 3 then nWord else A.u256 (nWord * 256 ^ (nSize - 3))
    fNegative := nWord != 0 && c / 2 ^ 23 % 2 == 1
    fOverflow := nWord != 0 &&
      (34 < nSize || (0xff < nWord && 33 < nSize) || (0xffff < nWord && 32 < nSize)) }

def compactMantissa (n : Nat) : Nat :=
  if byteLength n ≤ 3 then n * 256 ^ (3 - byteLength n) else n / 256 ^ (byteLength n - 3)

theorem compactMantissa_of_le {n : Nat} (h : byteLength n ≤ 3) :
    compactMantissa n = n * 256 ^ (3 - byteLength n) := if_pos h

theorem compactMantissa_of_gt {n : Nat} (h : ¬byteLength n ≤ 3) :
    compactMantissa n = n / 256 ^ (byteLength n - 3) := if_neg h

/-- Modelled from the spec: `arith_uint256::GetCompact`. A mantissa with the sign bit set
loses its low byte and the size grows by one, so the sign bit is never set. -/
def getCompact (n : Nat) : UInt32 :=
  if compactMantissa n / 2 ^ 23 % 2 = 1 then
    UInt32.ofNat ((byteLength n + 1) * 2 ^ 24 + compactMantissa n / 256)
  else
    UInt32.ofNat (byteLength n * 2 ^ 24 + compactMantissa n)

theorem uint32_toNat_ofNat (x : Nat) : (UInt32.ofNat x).toNat = x % 2 ^ 32 := rfl

theorem byteLength_le_32 {n : Nat} (h : n < 2 ^ 256) : byteLength n ≤ 32 :=
  byteLength_le_iff.mpr (by norm_num at h ⊢; exact h)

theorem compactMantissa_lt (n : Nat) : compactMantissa n < 2 ^ 24 := by
  have hn := lt_pow_byteLength n
  unfold compactMantissa
  split
  · calc n * 256 ^ (3 - byteLength n) < 256 ^ byteLength n * 256 ^ (3 - byteLength n) :=
          Nat.mul_lt_mul_of_pos_right hn (by positivity)
      _ = 2 ^ 24 := by rw [← pow_add, Nat.add_sub_cancel' (by omega)]; norm_num
  · rw [Nat.div_lt_iff_lt_mul (by positivity), show 2 ^ 24 = 256 ^ 3 by norm_num, ← pow_add,
      Nat.add_sub_cancel' (by omega)]
    exact hn

theorem setCompact_ofNat (A : Arith) {S M : Nat} (hM : M < 2 ^ 23)
    (hS : S ≤ 32 ∨ S = 33 ∧ M ≤ 0xffff) :
    setCompact A (UInt32.ofNat (S * 2 ^ 24 + M)) =
      ⟨if S ≤ 3 then M / 256 ^ (3 - S) else A.u256 (M * 256 ^ (S - 3)), false, false⟩ := by
  have hc : (UInt32.ofNat (S * 2 ^ 24 + M)).toNat = S * 2 ^ 24 + M := by
    rw [uint32_toNat_ofNat]; omega
  have h1 : (S * 2 ^ 24 + M) / 2 ^ 24 = S := by omega
  have h2 : (S * 2 ^ 24 + M) % 2 ^ 23 = M := by omega
  have h3 : (S * 2 ^ 24 + M) / 2 ^ 23 % 2 = 0 := by omega
  simp only [setCompact, hc, h1, h2, h3]
  split <;> simp_all <;> omega

/-- Decoding an encoded target raises no flag, and gives the target with its low bytes cut
off: the fewest whole bytes that leave a mantissa below `2^23`. -/
theorem setCompact_getCompact {A : Arith} (hA : ∀ x, x < 2 ^ 256 → A.u256 x = x) {n : Nat}
    (hn : n < 2 ^ 256) :
    ∃ e, setCompact A (getCompact n) = ⟨n / 256 ^ e * 256 ^ e, false, false⟩ ∧
      n / 256 ^ e < 2 ^ 23 ∧ (e = 0 ∨ 2 ^ 23 ≤ n / 256 ^ (e - 1)) := by
  have hs := byteLength_le_32 hn
  have hm := compactMantissa_lt n
  have hlt := lt_pow_byteLength n
  have hcut : ∀ e, n / 256 ^ e * 256 ^ e < 2 ^ 256 := fun e =>
    (Nat.div_mul_le_self n _).trans_lt hn
  unfold getCompact
  split
  · -- the sign bit is set: the mantissa loses its low byte to the size
    have hm23 : 2 ^ 23 ≤ compactMantissa n := by omega
    rw [setCompact_ofNat A (by omega) (by omega)]
    split
    · have h2 : 256 ^ byteLength n ≤ 256 ^ 2 := Nat.pow_le_pow_right (by norm_num) (by omega)
      refine ⟨0, ?_, by simp only [pow_zero, Nat.div_one]; omega, .inl rfl⟩
      rw [compactMantissa_of_le (by omega), Nat.div_div_eq_div_mul, ← pow_succ',
        show 3 - (byteLength n + 1) + 1 = 3 - byteLength n by omega,
        Nat.mul_div_cancel _ (by positivity)]
      simp
    · by_cases h3 : byteLength n ≤ 3
      · have hcm := compactMantissa_of_le h3
        rw [show 3 - byteLength n = 0 by omega, pow_zero, mul_one] at hcm
        have h3' : 256 ^ byteLength n = 256 ^ 3 := by rw [show byteLength n = 3 by omega]
        refine ⟨1, ?_, by omega, .inr (by simp only [Nat.sub_self, pow_zero, Nat.div_one]; omega)⟩
        rw [compactMantissa_of_le h3, show 3 - byteLength n = 0 by omega,
          show byteLength n + 1 - 3 = 1 by omega, pow_zero, mul_one, pow_one,
          hA _ (by simpa using hcut 1)]
      · have hcm := compactMantissa_of_gt h3
        have hnext : n / 256 ^ (byteLength n - 2) = compactMantissa n / 256 := by
          rw [hcm, Nat.div_div_eq_div_mul, ← pow_succ, show byteLength n - 3 + 1 = byteLength n - 2 by omega]
        refine ⟨byteLength n - 2, ?_, by omega,
          .inr (by rw [show byteLength n - 2 - 1 = byteLength n - 3 by omega, ← hcm]; exact hm23)⟩
        rw [hcm, Nat.div_div_eq_div_mul, ← pow_succ,
          show byteLength n - 3 + 1 = byteLength n - 2 by omega,
          show byteLength n + 1 - 3 = byteLength n - 2 by omega, hA _ (hcut _)]
  · have hm23 : compactMantissa n < 2 ^ 23 := by omega
    rw [setCompact_ofNat A (by omega) (by omega)]
    split
    · have hcm := compactMantissa_of_le ‹_›
      have hle : n ≤ compactMantissa n := hcm ▸ Nat.le_mul_of_pos_right n (by positivity)
      refine ⟨0, ?_, by simp only [pow_zero, Nat.div_one]; omega, .inl rfl⟩
      rw [hcm, Nat.mul_div_cancel _ (by positivity)]
      simp
    · have hcm := compactMantissa_of_gt ‹_›
      have hpos : 0 < n := Nat.pos_of_ne_zero fun h0 => by simp_all [byteLength, byteLengthAux]
      have hlow : 256 ^ 3 * 256 ^ (byteLength n - 4) ≤ n := by
        rw [← pow_add, show 3 + (byteLength n - 4) = byteLength n - 1 by omega]
        exact pow_byteLength_le hpos
      refine ⟨byteLength n - 3, by rw [hcm, hA _ (hcut _)], by omega, .inr ?_⟩
      rw [show byteLength n - 3 - 1 = byteLength n - 4 by omega]
      exact (Nat.le_div_iff_mul_le (by positivity)).mpr (le_trans (by norm_num) hlow)

example : setCompact Arith.machine (getCompact (2 ^ 224 - 1)) =
    ⟨(2 ^ 224 - 1) / 256 ^ 26 * 256 ^ 26, false, false⟩ := by decide

theorem cut_le_cut {x y ex ey : Nat} (hxy : x ≤ y) (hx : x / 256 ^ ex < 2 ^ 23)
    (hx' : ex = 0 ∨ 2 ^ 23 ≤ x / 256 ^ (ex - 1)) (hy : y / 256 ^ ey < 2 ^ 23)
    (hy' : ey = 0 ∨ 2 ^ 23 ≤ y / 256 ^ (ey - 1)) :
    x / 256 ^ ex * 256 ^ ex ≤ y / 256 ^ ey * 256 ^ ey := by
  have hle : ex ≤ ey := by
    by_contra hlt
    rcases hx' with rfl | hx'
    · omega
    have h1 : x / 256 ^ (ex - 1) ≤ y / 256 ^ (ex - 1) := Nat.div_le_div_right hxy
    have h2 : y / 256 ^ (ex - 1) ≤ y / 256 ^ ey :=
      Nat.div_le_div_left (Nat.pow_le_pow_right (by norm_num) (by omega)) (by positivity)
    omega
  rcases Nat.eq_or_lt_of_le hle with rfl | hlt
  · exact Nat.mul_le_mul_right _ (Nat.div_le_div_right hxy)
  obtain ⟨k, rfl⟩ : ∃ k, ey = k + 1 := ⟨ey - 1, by omega⟩
  have hy15 : 2 ^ 15 ≤ y / 256 ^ (k + 1) := by
    rw [show 256 ^ (k + 1) = 256 ^ k * 256 from pow_succ 256 k, ← Nat.div_div_eq_div_mul]
    rcases hy' with h | h
    · omega
    · rw [Nat.add_sub_cancel] at h
      omega
  apply le_of_lt
  calc x / 256 ^ ex * 256 ^ ex ≤ x := Nat.div_mul_le_self _ _
    _ < 2 ^ 23 * 256 ^ ex := (Nat.div_lt_iff_lt_mul (by positivity)).mp hx
    _ ≤ 2 ^ 23 * 256 ^ k := Nat.mul_le_mul_left _ (Nat.pow_le_pow_right (by norm_num) (by omega))
    _ = 2 ^ 15 * 256 ^ (k + 1) := by rw [pow_succ]; ring
    _ ≤ y / 256 ^ (k + 1) * 256 ^ (k + 1) := Nat.mul_le_mul_right _ hy15

theorem setCompact_getCompact_le {A : Arith} (hA : ∀ x, x < 2 ^ 256 → A.u256 x = x) {x y : Nat}
    (hxy : x ≤ y) (hy : y < 2 ^ 256) :
    (setCompact A (getCompact x)).value ≤ (setCompact A (getCompact y)).value := by
  obtain ⟨ex, hex, hx, hx'⟩ := setCompact_getCompact hA (hxy.trans_lt hy)
  obtain ⟨ey, hey, hy₁, hy'⟩ := setCompact_getCompact hA hy
  rw [hex, hey]
  exact cut_le_cut hxy hx hx' hy₁ hy'

theorem word_mul_pow_lt {W S : Nat} (hW : W < 2 ^ 23)
    (h : (S ≤ 34 ∧ (0xff < W → S ≤ 33)) ∧ (0xffff < W → S ≤ 32)) : W * 256 ^ (S - 3) < 2 ^ 256 := by
  obtain ⟨⟨h34, h33⟩, h32⟩ := h
  by_cases hS : S ≤ 32
  · calc W * 256 ^ (S - 3) ≤ W * 256 ^ 29 :=
          Nat.mul_le_mul_left _ (Nat.pow_le_pow_right (by norm_num) (by omega))
      _ < 2 ^ 23 * 256 ^ 29 := Nat.mul_lt_mul_of_pos_right hW (by positivity)
      _ ≤ 2 ^ 256 := by norm_num
  · have hW' : W ≤ 0xffff := by omega
    by_cases h33' : S = 33
    · subst h33'
      calc W * 256 ^ 30 ≤ 0xffff * 256 ^ 30 := Nat.mul_le_mul_right _ hW'
        _ < 2 ^ 256 := by norm_num
    · have : S = 34 := by omega
      subst this
      calc W * 256 ^ 31 ≤ 0xff * 256 ^ 31 := Nat.mul_le_mul_right _ (by omega)
        _ < 2 ^ 256 := by norm_num

theorem setCompact_machine_eq_exact {c : UInt32}
    (h : (setCompact Arith.machine c).fOverflow = false) :
    setCompact Arith.machine c = setCompact Arith.exact c := by
  simp only [setCompact] at h ⊢
  split
  · rfl
  · rename_i hS
    simp only [hS, if_false, Bool.and_eq_false_iff, bne_eq_false_iff_eq] at h
    rw [Arith.exact_u256]
    rcases h with h | h
    · rw [h, Nat.zero_mul]; rfl
    · rw [Arith.machine_u256_of_lt (word_mul_pow_lt (by omega) (by simpa using h))]

theorem setCompact_machine_value (c : UInt32) :
    (setCompact Arith.machine c).value = (setCompact Arith.exact c).value % 2 ^ 256 := by
  simp only [setCompact]
  split
  · exact (Nat.mod_eq_of_lt ((Nat.div_le_self _ _).trans_lt (by omega))).symm
  · rfl

end Palladium
