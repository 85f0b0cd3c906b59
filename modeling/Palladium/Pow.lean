import Mathlib
import Palladium.Params

/-!
# Checking proof of work

`CheckProofOfWork` first tests that the compact target is in range and then compares the
hash with it. The range test is what every `nBits` the difficulty engine demands must pass.
-/

namespace Palladium

/-- The range test of `CheckProofOfWork`: the decoded target is not negative, not zero, does
not overflow and is not above `powLimit`. -/
def rangeOk (params : ConsensusParams) (nBits : UInt32) : Bool :=
  let bnTarget := setCompact Arith.machine nBits
  !(bnTarget.fNegative || bnTarget.value == 0 || bnTarget.fOverflow ||
    decide (bnTarget.value > params.powLimit))

def checkProofOfWork (hash : Uint256) (nBits : UInt32) (params : ConsensusParams) : Bool :=
  if !rangeOk params nBits then false
  else if uintToArith256 hash > (setCompact Arith.machine nBits).value then false
  else true

theorem checkProofOfWork_eq_true_iff {hash : Uint256} {nBits : UInt32} {params : ConsensusParams} :
    checkProofOfWork hash nBits params = true ↔
      rangeOk params nBits = true ∧ uintToArith256 hash ≤ (setCompact Arith.machine nBits).value := by
  simp only [checkProofOfWork]
  split_ifs <;> simp_all

/-- The range test without its test for zero. -/
structure BitsBounded (params : ConsensusParams) (nBits : UInt32) : Prop where
  not_negative : (setCompact Arith.machine nBits).fNegative = false
  not_overflow : (setCompact Arith.machine nBits).fOverflow = false
  le_powLimit : (setCompact Arith.machine nBits).value ≤ params.powLimit

theorem rangeOk_iff {params : ConsensusParams} {nBits : UInt32} :
    rangeOk params nBits = true ↔
      BitsBounded params nBits ∧ (setCompact Arith.machine nBits).value ≠ 0 := by
  simp only [rangeOk, Bool.not_eq_true', Bool.or_eq_false_iff, beq_eq_false_iff_ne,
    decide_eq_false_iff_not, not_lt]
  constructor
  · rintro ⟨⟨⟨h₁, h₂⟩, h₃⟩, h₄⟩
    exact ⟨⟨h₁, h₃, h₄⟩, h₂⟩
  · rintro ⟨⟨h₁, h₃, h₄⟩, h₂⟩
    exact ⟨⟨⟨h₁, h₂⟩, h₃⟩, h₄⟩

theorem bitsBounded_getCompact {params : ConsensusParams} {n : Nat} (h : n ≤ params.powLimit) :
    BitsBounded params (getCompact n) := by
  obtain ⟨e, he, -⟩ := setCompact_getCompact (fun _ => Arith.machine_u256_of_lt)
    (h.trans_lt params.powLimit_lt)
  exact ⟨by rw [he], by rw [he], by rw [he]; exact (Nat.div_mul_le_self n _).trans h⟩

theorem BitsBounded.of_rangeOk {params : ConsensusParams} {nBits : UInt32}
    (h : rangeOk params nBits = true) : BitsBounded params nBits :=
  (rangeOk_iff.mp h).1

theorem BitsBounded.setCompact_eq {params : ConsensusParams} {nBits : UInt32}
    (h : BitsBounded params nBits) :
    setCompact Arith.machine nBits = setCompact Arith.exact nBits :=
  setCompact_machine_eq_exact h.not_overflow

theorem BitsBounded.exact_le {params : ConsensusParams} {nBits : UInt32}
    (h : BitsBounded params nBits) : (setCompact Arith.exact nBits).value ≤ params.powLimit :=
  h.setCompact_eq ▸ h.le_powLimit

end Palladium
