import Mathlib

/-!
# 256-bit values and the engine's integer models

A `uint256` is 32 opaque bytes; `arith_uint256` reads the same bytes as a little-endian
number. The difficulty engine computes with `arith_uint256` and `int64_t`. `Arith` says how
the result of one such operation is reduced, so that the engine can be run with the
machine's wrap-around or over unbounded integers and the two runs compared.
-/

namespace Palladium

/-- A `uint256`: 32 bytes, least significant first. -/
structure Uint256 where
  data : List UInt8
  length_data : data.length = 32
  deriving DecidableEq

namespace Uint256

def zero : Uint256 := ⟨List.replicate 32 0, rfl⟩

def isNull (h : Uint256) : Bool := h.data.all (· == 0)

end Uint256

def leValue : List UInt8 → Nat
  | [] => 0
  | b :: bs => b.toNat + 256 * leValue bs

theorem leValue_lt (bs : List UInt8) : leValue bs < 256 ^ bs.length := by
  induction bs with
  | nil => simp [leValue]
  | cons b bs ih =>
    have hb := b.toNat_lt
    simp only [leValue, List.length_cons, pow_succ]
    omega

def uintToArith256 (h : Uint256) : Nat := leValue h.data

theorem uintToArith256_lt (h : Uint256) : uintToArith256 h < 2 ^ 256 := by
  have := leValue_lt h.data
  rw [h.length_data] at this
  simpa [uintToArith256] using this.trans_le (by norm_num)

def leBytes : Nat → Nat → List UInt8
  | 0, _ => []
  | n + 1, x => UInt8.ofNat (x % 256) :: leBytes n (x / 256)

theorem length_leBytes (n x : Nat) : (leBytes n x).length = n := by
  induction n generalizing x with
  | zero => rfl
  | succ n ih => simp [leBytes, ih]

theorem toNat_ofNat_of_lt_256 {x : Nat} (h : x < 256) : (UInt8.ofNat x).toNat = x :=
  UInt8.toNat_ofNat_of_lt h

theorem toNat_ofNat_mod_256 (x : Nat) : (UInt8.ofNat (x % 256)).toNat = x % 256 :=
  toNat_ofNat_of_lt_256 (Nat.mod_lt _ (by decide))

theorem leValue_leBytes (n x : Nat) : leValue (leBytes n x) = x % 256 ^ n := by
  induction n generalizing x with
  | zero => simp [leBytes, leValue, Nat.mod_one]
  | succ n ih => rw [leBytes, leValue, ih, toNat_ofNat_mod_256, pow_succ', Nat.mod_mul]

/-- How the result of one engine operation is reduced: an `arith_uint256` result, an
`int64_t` result, an `int64_t` passed where `arith_uint256` takes a `uint32_t` (its `*`),
and an `int64_t` turned into an `arith_uint256` through the `uint64_t` constructor (its `/`). -/
structure Arith where
  u256 : Nat → Nat
  i64 : Int → Int
  u32 : Int → Nat
  u64 : Int → Nat

namespace Arith

/-- The machine: everything wraps at its width. -/
def machine : Arith where
  u256 x := x % 2 ^ 256
  i64 x := Int.bmod x (2 ^ 64)
  u32 x := (x % 2 ^ 32).toNat
  u64 x := (x % 2 ^ 64).toNat

/-- The same operations over unbounded integers. -/
def exact : Arith where
  u256 x := x
  i64 x := x
  u32 x := x.toNat
  u64 x := x.toNat

@[simp] theorem exact_u256 (x : Nat) : exact.u256 x = x := rfl
@[simp] theorem exact_i64 (x : Int) : exact.i64 x = x := rfl
@[simp] theorem exact_u32 (x : Int) : exact.u32 x = x.toNat := rfl
@[simp] theorem exact_u64 (x : Int) : exact.u64 x = x.toNat := rfl

theorem machine_u256_of_lt {x : Nat} (h : x < 2 ^ 256) : machine.u256 x = x :=
  Nat.mod_eq_of_lt h

theorem machine_i64_of_mem {x : Int} (h₁ : -2 ^ 63 ≤ x) (h₂ : x < 2 ^ 63) :
    machine.i64 x = x := by
  simp only [machine]
  rw [Int.bmod_def]
  split <;> omega

theorem machine_u32_of_mem {x : Int} (h₁ : 0 ≤ x) (h₂ : x < 2 ^ 32) :
    machine.u32 x = x.toNat := by
  simp only [machine]
  rw [Int.emod_eq_of_lt h₁ h₂]

theorem machine_u64_of_mem {x : Int} (h₁ : 0 ≤ x) (h₂ : x < 2 ^ 64) :
    machine.u64 x = x.toNat := by
  simp only [machine]
  rw [Int.emod_eq_of_lt h₁ h₂]

end Arith

end Palladium
