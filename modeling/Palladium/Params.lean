import Mathlib
import Palladium.Compact

/-!
# Consensus parameters

The proof-of-work fields of `Consensus::Params` and the three networks of
`chainparams.cpp`. Only the main network sets `nPowTargetSpacingV2`; the test network and
regression testing keep the 0 of the `Params()` constructor.

A C++ integer division or remainder by zero is undefined and an `arith_uint256` division by
zero throws; both are `none` here, so that reaching one is visible in a function's result.
-/

namespace Palladium

/-- `a / b` on `int64_t`, which truncates; `none` for a zero divisor. -/
def cdiv (a b : Int) : Option Int := if b = 0 then none else some (a.tdiv b)

def cmod (a b : Int) : Option Int := if b = 0 then none else some (a.tmod b)

def udiv (a b : Nat) : Option Nat := if b = 0 then none else some (a / b)

/-- The `int` an `int64_t` converts to: its low 32 bits, signed. -/
def toCInt (x : Int) : Int := x.bmod (2 ^ 32)

theorem toCInt_of_mem {x : Int} (h₁ : -2 ^ 31 ≤ x) (h₂ : x < 2 ^ 31) : toCInt x = x := by
  rw [toCInt, Int.bmod_def]
  split <;> omega

@[simp] theorem cdiv_of_ne {a b : Int} (h : b ≠ 0) : cdiv a b = some (a.tdiv b) := if_neg h
@[simp] theorem cmod_of_ne {a b : Int} (h : b ≠ 0) : cmod a b = some (a.tmod b) := if_neg h
@[simp] theorem udiv_of_ne {a b : Nat} (h : b ≠ 0) : udiv a b = some (a / b) := if_neg h

/-- The proof-of-work fields of `Consensus::Params`. `powLimit` is kept as the number
`UintToArith256` reads from it. The other fields are read by no modelled function. -/
structure ConsensusParams where
  powLimit : Nat
  powLimit_lt : powLimit < 2 ^ 256
  fPowAllowMinDifficultyBlocks : Bool
  fPowNoRetargeting : Bool
  nPowTargetSpacing : Int
  nPowTargetSpacingV2 : Int
  nPowTargetTimespan : Int

namespace ConsensusParams

/-- `Params::DifficultyAdjustmentInterval`: the `int64_t` quotient, returned as an `int`. From
height 29000 on it divides by `nPowTargetSpacingV2`. -/
def difficultyAdjustmentInterval (p : ConsensusParams) (nHeight : Int) : Option Int :=
  (if nHeight < 29000 then cdiv p.nPowTargetTimespan p.nPowTargetSpacing
  else cdiv p.nPowTargetTimespan p.nPowTargetSpacingV2).map toCInt

end ConsensusParams

def mainParams : ConsensusParams where
  powLimit := 2 ^ 224 - 1
  powLimit_lt := by norm_num
  fPowAllowMinDifficultyBlocks := false
  fPowNoRetargeting := false
  nPowTargetSpacing := 10 * 60
  nPowTargetSpacingV2 := 2 * 60
  nPowTargetTimespan := 24 * 60 * 60

/-- `CTestNetParams`: `nPowTargetSpacingV2` is never set. -/
def testNetParams : ConsensusParams where
  powLimit := 2 ^ 224 - 1
  powLimit_lt := by norm_num
  fPowAllowMinDifficultyBlocks := true
  fPowNoRetargeting := false
  nPowTargetSpacing := 2 * 60
  nPowTargetSpacingV2 := 0
  nPowTargetTimespan := 24 * 60 * 60

def regTestParams : ConsensusParams where
  powLimit := 2 ^ 255 - 1
  powLimit_lt := by norm_num
  fPowAllowMinDifficultyBlocks := true
  fPowNoRetargeting := true
  nPowTargetSpacing := 2 * 60
  nPowTargetSpacingV2 := 0
  nPowTargetTimespan := 24 * 60 * 60

/-- A network: its consensus parameters and the `nTime` and `nBits` its
`CreateGenesisBlock` call gives the genesis block. -/
structure CChainParams where
  consensus : ConsensusParams
  genesisTime : UInt32
  genesisBits : UInt32

def mainChainParams : CChainParams := ⟨mainParams, 1231006505, 0x1d00ffff⟩
def testNetChainParams : CChainParams := ⟨testNetParams, 1296688602, 0x1d00ffff⟩
def regTestChainParams : CChainParams := ⟨regTestParams, 1296688602, 0x207fffff⟩

def networks : List CChainParams := [mainChainParams, testNetChainParams, regTestChainParams]

end Palladium
