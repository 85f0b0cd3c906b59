import Mathlib
import Palladium.BlockTemplate

/-!
# Regtest activation parameters from the command line

`CRegTestParams::UpdateActivationParametersFromArgs` reads `-segwitheight` and every
`-vbparams=deployment:start:end`. It throws at a height out of range, at a value that does
not split into three fields, at a bound `ParseInt64` rejects and at an unknown deployment.
Values written as `deployment:start:end` with the bounds in decimal are read back exactly, and
the last of them sets the deployment.
-/

namespace Palladium

/-- The consensus fields `UpdateActivationParametersFromArgs` writes: `SegwitHeight` and the
start and timeout of `DEPLOYMENT_TESTDUMMY`, the one entry of `DeploymentPos`. -/
structure ActivationParams where
  segwitHeight : Int
  nStartTime : Int
  nTimeout : Int
  deriving DecidableEq

def intMax : Int := 2 ^ 31 - 1

/-- Modelled from the spec: `strprintf("%ld", n)`, a minus sign before the decimal digits of a
negative value. -/
def decimalInt (n : Int) : List Char :=
  if n < 0 then '-' :: decimal n.natAbs else decimal n.natAbs

def splitSign : List Char → Bool × List Char
  | '-' :: ds => (true, ds)
  | '+' :: ds => (false, ds)
  | ds => (false, ds)

def signedValue (negative : Bool) (digits : List Char) : Int :=
  if negative then -(decimalValue digits : Int) else decimalValue digits

/-- Modelled from the spec: `ParseInt64(str, &n)`, which accepts an optional sign followed by
decimal digits and nothing else, with the value inside `int64_t`; `none` where it returns
false. -/
def parseInt64 (str : List Char) : Option Int :=
  let signed := splitSign str
  if signed.2 = [] ∨ signed.2.any (fun c => !c.isDigit) then none
  else
    let n := signedValue signed.1 signed.2
    if -2 ^ 63 ≤ n ∧ n < 2 ^ 63 then some n else none

/-- One `-vbparams` value: `boost::split` at `:`, three fields, the two bounds through
`ParseInt64`, and the deployment looked up by `name`, the name `VersionBitsDeploymentInfo`
gives `DEPLOYMENT_TESTDUMMY`. -/
def applyVbParams (name : List Char) (p : ActivationParams) (strDeployment : List Char) :
    Except String ActivationParams :=
  match strDeployment.splitOn ':' with
  | [deployment, start, timeout] =>
    match parseInt64 start with
    | none => .error ("Invalid nStartTime (" ++ String.mk start ++ ")")
    | some nStartTime =>
      match parseInt64 timeout with
      | none => .error ("Invalid nTimeout (" ++ String.mk timeout ++ ")")
      | some nTimeout =>
        if deployment = name then .ok { p with nStartTime := nStartTime, nTimeout := nTimeout }
        else .error ("Invalid deployment (" ++ String.mk deployment ++ ")")
  | _ => .error "Version bits parameters malformed, expecting deployment:start:end"

/-- `CRegTestParams::UpdateActivationParametersFromArgs`: `segwitheight` is the value
`GetArg("-segwitheight", ...)` returns when the option is set, and `vbparams` the values
`GetArgs("-vbparams")` returns (none when the option is not set). -/
def updateActivationParametersFromArgs (name : List Char) (segwitheight : Option Int)
    (vbparams : List (List Char)) (p : ActivationParams) : Except String ActivationParams := do
  let p ← match segwitheight with
    | none => pure p
    | some height =>
      if height < -1 ∨ intMax ≤ height then
        throw ("Activation height " ++ String.mk (decimalInt height) ++
          " for segwit is out of valid range. Use -1 to disable segwit.")
      else pure { p with segwitHeight := if height = -1 then intMax else height }
  vbparams.foldlM (applyVbParams name) p

def vbParamsArg (deployment : List Char) (nStartTime nTimeout : Int) : List Char :=
  [':'].intercalate [deployment, decimalInt nStartTime, decimalInt nTimeout]

/-! ## Decimal bounds read back -/

theorem decimal_facts (n : Nat) :
    (∀ c ∈ decimal n, ∃ d < 10, Nat.digitChar d = c) ∧ decimalValue (decimal n) = n := by
  obtain ⟨hall, hfold⟩ := toDigitsCore_decimal (n + 1) n [] (by omega)
  exact ⟨fun c hc => (hall c hc).resolve_right (List.not_mem_nil _), hfold⟩

theorem colon_not_mem_decimalInt (n : Int) : ':' ∉ decimalInt n := by
  have hdec : ':' ∉ decimal n.natAbs := fun hc => by
    obtain ⟨d, hd, hdc⟩ := (decimal_facts _).1 _ hc
    obtain ⟨hdig, -⟩ := digitChar_facts d hd
    rw [hdc] at hdig
    exact absurd hdig (by decide)
  unfold decimalInt
  split
  · exact fun hc => (List.mem_cons.mp hc).elim (by decide) hdec
  · exact hdec

theorem parseInt64_of_digits {str digits : List Char} {negative : Bool}
    (hs : splitSign str = (negative, digits)) (hne : digits ≠ [])
    (hd : digits.any (fun c => !c.isDigit) = false)
    (hr : -2 ^ 63 ≤ signedValue negative digits ∧ signedValue negative digits < 2 ^ 63) :
    parseInt64 str = some (signedValue negative digits) := by
  unfold parseInt64
  rw [hs]
  simp only [hne, hd, Bool.false_eq_true, or_self, if_false]
  exact if_pos hr

theorem splitSign_decimal (n : Nat) : splitSign (decimal n) = (false, decimal n) := by
  obtain ⟨c, cs, hcs⟩ := List.exists_cons_of_ne_nil (decimal_ne_nil n)
  obtain ⟨d, hd, hdc⟩ := (decimal_facts n).1 c (by rw [hcs]; exact List.mem_cons_self _ _)
  obtain ⟨-, -, hminus, hplus, -⟩ := digitChar_facts d hd
  rw [hcs, ← hdc]
  unfold splitSign
  split
  · exact absurd (List.cons.inj ‹_›).1 hminus
  · exact absurd (List.cons.inj ‹_›).1 hplus
  · rfl

theorem parseInt64_decimalInt {n : Int} (h₁ : -2 ^ 63 ≤ n) (h₂ : n < 2 ^ 63) :
    parseInt64 (decimalInt n) = some n := by
  obtain ⟨hdig, hval⟩ := decimal_facts n.natAbs
  have hdigits : (decimal n.natAbs).any (fun c => !c.isDigit) = false :=
    List.any_eq_false.mpr fun c hc => by
      obtain ⟨d, hd, rfl⟩ := hdig c hc
      simp [(digitChar_facts d hd).1]
  unfold decimalInt
  split
  · rw [parseInt64_of_digits
      (show splitSign ('-' :: decimal n.natAbs) = (true, decimal n.natAbs) from rfl)
      (decimal_ne_nil _) hdigits (by simp only [signedValue, hval, if_true]; omega)]
    simp only [signedValue, hval, if_true, Option.some.injEq]
    omega
  · rw [parseInt64_of_digits (splitSign_decimal _) (decimal_ne_nil _) hdigits
      (by simp only [signedValue, hval, Bool.false_eq_true, if_false]; omega)]
    simp only [signedValue, hval, Bool.false_eq_true, if_false, Option.some.injEq]
    omega

theorem applyVbParams_vbParamsArg {name : List Char} (hname : ':' ∉ name)
    (p : ActivationParams) {nStartTime nTimeout : Int}
    (hs : -2 ^ 63 ≤ nStartTime ∧ nStartTime < 2 ^ 63) (ht : -2 ^ 63 ≤ nTimeout ∧ nTimeout < 2 ^ 63) :
    applyVbParams name p (vbParamsArg name nStartTime nTimeout) =
      .ok { p with nStartTime := nStartTime, nTimeout := nTimeout } := by
  have hsplit : (vbParamsArg name nStartTime nTimeout).splitOn ':' =
      [name, decimalInt nStartTime, decimalInt nTimeout] :=
    List.splitOn_intercalate _ ':' (by
      simp only [List.mem_cons, List.mem_singleton, List.not_mem_nil, or_false]
      rintro l (rfl | rfl | rfl)
      exacts [hname, colon_not_mem_decimalInt _, colon_not_mem_decimalInt _]) (by simp)
  simp only [applyVbParams, hsplit, parseInt64_decimalInt hs.1 hs.2,
    parseInt64_decimalInt ht.1 ht.2, if_true]

theorem foldlM_applyVbParams {name : List Char} (hname : ':' ∉ name) (vs : List (Int × Int))
    (hvs : ∀ v ∈ vs, (-2 ^ 63 ≤ v.1 ∧ v.1 < 2 ^ 63) ∧ -2 ^ 63 ≤ v.2 ∧ v.2 < 2 ^ 63)
    (p : ActivationParams) :
    (vs.map fun v => vbParamsArg name v.1 v.2).foldlM (applyVbParams name) p =
      .ok (match vs.getLast? with
        | none => p
        | some v => { p with nStartTime := v.1, nTimeout := v.2 }) := by
  induction vs generalizing p with
  | nil => rfl
  | cons v vs ih =>
    have hv := hvs v (List.mem_cons_self _ _)
    rw [List.map_cons, List.foldlM_cons, applyVbParams_vbParamsArg hname p hv.1 hv.2]
    refine (ih (fun w hw => hvs w (List.mem_cons_of_mem _ hw)) _).trans ?_
    cases vs with
    | nil => rfl
    | cons w ws =>
      obtain ⟨u, hu⟩ : ∃ u, (w :: ws).getLast? = some u :=
        ⟨_, List.getLast?_eq_getLast _ (List.cons_ne_nil _ _)⟩
      rw [List.getLast?_cons_cons, hu]

theorem updateActivationParametersFromArgs_vbParamsArgs {name : List Char} (hname : ':' ∉ name)
    (vs : List (Int × Int))
    (hvs : ∀ v ∈ vs, (-2 ^ 63 ≤ v.1 ∧ v.1 < 2 ^ 63) ∧ -2 ^ 63 ≤ v.2 ∧ v.2 < 2 ^ 63)
    (p : ActivationParams) :
    updateActivationParametersFromArgs name none (vs.map fun v => vbParamsArg name v.1 v.2) p =
      .ok (match vs.getLast? with
        | none => p
        | some v => { p with nStartTime := v.1, nTimeout := v.2 }) :=
  foldlM_applyVbParams hname vs hvs p

theorem testdummy_vbParamsArgs :
    updateActivationParametersFromArgs "testdummy".toList none
        [vbParamsArg "testdummy".toList 0 999999,
          vbParamsArg "testdummy".toList (-1) (2 ^ 63 - 1)] ⟨0, 0, 0⟩ =
      .ok ⟨0, -1, 2 ^ 63 - 1⟩ :=
  updateActivationParametersFromArgs_vbParamsArgs (by decide) [(0, 999999), (-1, 2 ^ 63 - 1)]
    (by decide) _

end Palladium
