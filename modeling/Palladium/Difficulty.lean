import Mathlib
import Palladium.Chain
import Palladium.Pow
import Palladium.Primitives

/-!
# The difficulty engine

`GetNextWorkRequired` and its two retarget algorithms, written over an `Arith`: with
`Arith.machine` they are the code's `arith_uint256` and `int64_t` computations, with
`Arith.exact` the same algorithm over unbounded integers. A result `none` is a division by
zero or a failed `assert`; an early `return powLimit.GetCompact()` is an ordinary result.
-/

namespace Palladium

structure LwmaAcc where
  previousTimestamp : Int
  j : Int
  t : Int
  sumTarget : Nat

def lwmaStep (A : Arith) (T : Int) (acc : LwmaAcc) (blockCurrent : CBlockIndex) : LwmaAcc :=
  let thisTimestamp := blockCurrent.getBlockTime
  let thisTimestamp :=
    if thisTimestamp < acc.previousTimestamp then acc.previousTimestamp else thisTimestamp
  let solvetime := max 1 (A.i64 (thisTimestamp - acc.previousTimestamp))
  let solvetime := min (A.i64 (6 * T)) solvetime
  let j := A.i64 (acc.j + 1)
  { previousTimestamp := thisTimestamp
    j := j
    t := A.i64 (acc.t + A.i64 (solvetime * j))
    sumTarget := A.u256 (acc.sumTarget + (setCompact A blockCurrent.nBits).value) }

/-- The loop of `LwmaCalculateNextWorkRequired`: `n` passes from height `i` on; `none` when
`GetAncestor` finds no block, where the code returns `powLimit`. -/
def lwmaLoop (A : Arith) (T : Int) (pindexLast : Chain) : Nat → Int → LwmaAcc → Option LwmaAcc
  | 0, _, acc => some acc
  | n + 1, i, acc =>
    match pindexLast.getAncestor i with
    | none => none
    | some blockCurrent => lwmaLoop A T pindexLast n (i + 1) (lwmaStep A T acc blockCurrent)

/-- The end of `LwmaCalculateNextWorkRequired`, after its loop: the guard against a zero
divisor, then `avgTarget * t / (k * T)` capped at `powLimit`. -/
def lwmaFinish (A : Arith) (params : ConsensusParams) (acc : LwmaAcc) : Option UInt32 :=
  let T := params.nPowTargetSpacingV2
  let N : Int := 240
  let k := (A.i64 (A.i64 (N * (N + 1)) * T)).tdiv 2
  if N = 0 ∨ T = 0 ∨ k = 0 then some (getCompact params.powLimit)
  else
    match udiv acc.sumTarget (A.u64 N) with
    | none => none
    | some avgTarget =>
      match udiv (A.u256 (avgTarget * A.u32 acc.t)) (A.u64 (A.i64 (k * T))) with
      | none => none
      | some nextTarget =>
        some (getCompact (if nextTarget > params.powLimit then params.powLimit else nextTarget))

def lwmaCalculateNextWorkRequired (A : Arith) (pindexLast : Chain) (params : ConsensusParams) :
    Option UInt32 :=
  let N : Int := 240
  let height : Int := pindexLast.nHeight
  let powLimit := params.powLimit
  if height = 0 then some (getCompact powLimit)
  else if height < N then some (getCompact powLimit)
  else
    match pindexLast.getAncestor (height - N) with
    | none => some (getCompact powLimit)
    | some blockStart =>
      match lwmaLoop A params.nPowTargetSpacingV2 pindexLast 240 (height - N + 1)
          ⟨blockStart.getBlockTime, 0, 0, 0⟩ with
      | none => some (getCompact powLimit)
      | some acc => lwmaFinish A params acc

def calculateNextWorkRequired (A : Arith) (pindexLast : Chain) (nFirstBlockTime : Int)
    (params : ConsensusParams) : Option UInt32 :=
  if params.fPowNoRetargeting then some pindexLast.tip.nBits
  else
    let nActualTimespan := A.i64 (pindexLast.tip.getBlockTime - nFirstBlockTime)
    let nActualTimespan :=
      if nActualTimespan < params.nPowTargetTimespan.tdiv 4 then params.nPowTargetTimespan.tdiv 4
      else nActualTimespan
    let nActualTimespan :=
      if nActualTimespan > A.i64 (params.nPowTargetTimespan * 4) then
        A.i64 (params.nPowTargetTimespan * 4)
      else nActualTimespan
    let bnPowLimit := params.powLimit
    let bnNew := A.u256 ((setCompact A pindexLast.tip.nBits).value * A.u32 nActualTimespan)
    match udiv bnNew (A.u64 params.nPowTargetTimespan) with
    | none => none
    | some bnNew => some (getCompact (if bnNew > bnPowLimit then bnPowLimit else bnNew))

/-- The `while` loop of the min-difficulty rule, at height `h` of `blocks`: step to `pprev`
past blocks that carry the limit and sit off a retarget boundary, and return the `nBits`
reached. The loop reads the parameters only through `params.DifficultyAdjustmentInterval`,
passed here as a function. -/
def lastNonMinDifficultyBits (difficultyAdjustmentInterval : Int → Option Int)
    (nProofOfWorkLimit : UInt32) (blocks : List CBlockIndex) : Nat → Option UInt32
  | 0 => blocks[0]?.map (·.nBits)
  | h + 1 =>
    match blocks[h + 1]?, difficultyAdjustmentInterval (h + 1) with
    | none, _ => none
    | _, none => none
    | some pindex, some interval =>
      match cmod (h + 1) interval with
      | none => none
      | some r =>
        if r ≠ 0 ∧ pindex.nBits = nProofOfWorkLimit then
          lastNonMinDifficultyBits difficultyAdjustmentInterval nProofOfWorkLimit blocks h
        else some pindex.nBits

/-- `GetNextWorkRequired`: the reset window before height 29000, LWMA from there on, and
the legacy rules below it. -/
def getNextWorkRequired (A : Arith) (pindexLast : Chain) (pblock : CBlockHeader)
    (params : ConsensusParams) : Option UInt32 :=
  let nProofOfWorkLimit := getCompact params.powLimit
  if 28930 ≤ pindexLast.nHeight ∧ pindexLast.nHeight ≤ 28999 then some nProofOfWorkLimit
  else
    let nHeight : Int := pindexLast.nHeight + 1
    if 29000 ≤ nHeight then lwmaCalculateNextWorkRequired A pindexLast params
    else
      match params.difficultyAdjustmentInterval nHeight with
      | none => none
      | some interval =>
        match cmod nHeight interval with
        | none => none
        | some r =>
          if r ≠ 0 then
            if params.fPowAllowMinDifficultyBlocks then
              if pblock.getBlockTime >
                  A.i64 (pindexLast.tip.getBlockTime + A.i64 (params.nPowTargetSpacing * 2)) then
                some nProofOfWorkLimit
              else
                lastNonMinDifficultyBits params.difficultyAdjustmentInterval nProofOfWorkLimit
                  pindexLast.blocks pindexLast.nHeight
            else some pindexLast.tip.nBits
          else
            let nHeightFirst : Int := pindexLast.nHeight - (interval - 1)
            if nHeightFirst < 0 then none
            else
              match pindexLast.getAncestor nHeightFirst with
              | none => none
              | some pindexFirst =>
                calculateNextWorkRequired A pindexLast pindexFirst.getBlockTime params

end Palladium
