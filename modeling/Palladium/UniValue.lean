import Mathlib
import Palladium.ActivationArgs

/-!
# JSON values and the argument checks of the RPC handlers

The univalue library and `rpc/util.cpp` are not among the sources. `UniValue`, its getters,
`find_value` and `RPCHelpMan::Check` are written here after univalue 1.0 and Bitcoin Core 0.20,
as the handlers of `rpc/mining.cpp` call them. A number keeps the text it was read from and the
integer getters parse that text; an object keeps its members in order, and `find_value` answers
the first member of a name, null where there is none.
-/

namespace Palladium

/-- `UniValue`: a number keeps its text (`getValStr()`), an object its members in order. -/
inductive UniValue
  | null
  | bool (b : Bool)
  | num (val : List Char)
  | str (val : String)
  | arr (values : List UniValue)
  | obj (members : List (String × UniValue))

inductive VType
  | VNULL
  | VOBJ
  | VARR
  | VSTR
  | VNUM
  | VBOOL
  deriving DecidableEq

/-- `ParseInt32` of univalue: `strtol`, then the value inside `int32_t`. -/
def parseInt32 (str : List Char) : Option Int :=
  (parseInt64 str).filter fun n => decide (-2 ^ 31 ≤ n ∧ n < 2 ^ 31)

theorem except_bind_eq_ok {ε α β : Type} {x : Except ε α} {f : α → Except ε β} {b : β} :
    (x >>= f) = .ok b ↔ ∃ a, x = .ok a ∧ f a = .ok b := by
  cases x <;> simp [bind, Except.bind]

theorem except_bind_eq_error {ε α β : Type} {x : Except ε α} {f : α → Except ε β} {e : ε} :
    (x >>= f) = .error e ↔ x = .error e ∨ ∃ a, x = .ok a ∧ f a = .error e := by
  cases x <;> simp [bind, Except.bind]

section Throws

variable {α β : Type} {texts texts' : List String}

/-- Every text `x` can throw is among `texts`. -/
def ThrowsOnly (texts : List String) (x : Except String α) : Prop :=
  ∀ e, x = .error e → e ∈ texts

theorem ThrowsOnly.bind {x : Except String α} {f : α → Except String β}
    (hx : ThrowsOnly texts x) (hf : ∀ a, ThrowsOnly texts (f a)) : ThrowsOnly texts (x >>= f) :=
  fun e h => by
    rcases except_bind_eq_error.mp h with h | ⟨a, -, h⟩
    exacts [hx e h, hf a e h]

theorem ThrowsOnly.mono {x : Except String α} (hx : ThrowsOnly texts x) (h : texts ⊆ texts') :
    ThrowsOnly texts' x :=
  fun e he => h (hx e he)

theorem throwsOnly_ok (a : α) : ThrowsOnly texts (.ok a) := fun _ h => by cases h

end Throws

namespace UniValue

def getType : UniValue → VType
  | .null => .VNULL
  | .bool _ => .VBOOL
  | .num _ => .VNUM
  | .str _ => .VSTR
  | .arr _ => .VARR
  | .obj _ => .VOBJ

def isNull (v : UniValue) : Bool := v.getType = .VNULL

def isStr (v : UniValue) : Bool := v.getType = .VSTR

def isNum (v : UniValue) : Bool := v.getType = .VNUM

def isArray (v : UniValue) : Bool := v.getType = .VARR

def getStr : UniValue → Except String String
  | .str val => .ok val
  | _ => .error "JSON value is not a string as expected"

/-- `get_obj()`: the value itself, where it is an object. -/
def getObj : UniValue → Except String UniValue
  | .obj members => .ok (.obj members)
  | _ => .error "JSON value is not an object as expected"

def getIntegral (parse : List Char → Option Int) : UniValue → Except String Int
  | .num val =>
    match parse val with
    | some n => .ok n
    | none => .error "JSON integer out of range"
  | _ => .error "JSON value is not an integer as expected"

def getInt : UniValue → Except String Int := getIntegral parseInt32

def getInt64 : UniValue → Except String Int := getIntegral parseInt64

/-- `find_value(obj, name)`: the value of the first member called `name`, null where the value
is no object or has no such member. -/
def findValue (obj : UniValue) (name : String) : UniValue :=
  match obj with
  | .obj members => (members.lookup name).getD .null
  | _ => .null

@[simp] theorem isNull_iff {v : UniValue} : v.isNull = true ↔ v = .null := by
  cases v <;> simp [isNull, getType]

theorem getStr_eq_ok {v : UniValue} {val : String} : v.getStr = .ok val ↔ v = .str val := by
  cases v <;> simp [getStr]

theorem getObj_eq_ok {v o : UniValue} :
    v.getObj = .ok o ↔ (∃ members, v = .obj members) ∧ o = v := by
  cases v <;> simp [getObj, eq_comm]

theorem getIntegral_eq_ok {parse : List Char → Option Int} {v : UniValue} {n : Int} :
    v.getIntegral parse = .ok n ↔ ∃ val, v = .num val ∧ parse val = some n := by
  cases v with
  | num val => cases h : parse val <;> simp [getIntegral, h]
  | _ => simp [getIntegral]

theorem getIntegral_throwsOnly (parse : List Char → Option Int) (v : UniValue) :
    ThrowsOnly ["JSON value is not an integer as expected", "JSON integer out of range"]
      (v.getIntegral parse) := fun e h => by
  unfold getIntegral at h
  split at h
  · split at h <;> cases h
    simp
  · cases h
    simp

theorem getStr_throwsOnly (v : UniValue) :
    ThrowsOnly ["JSON value is not a string as expected"] v.getStr := fun e h => by
  cases v <;> cases h <;> simp

theorem mapM_getStr_eq_ok {values : List UniValue} {strs : List String} :
    values.mapM getStr = .ok strs ↔ values = strs.map .str := by
  induction values generalizing strs with
  | nil => rw [List.mapM_nil]; cases strs <;> simp [pure, Except.pure]
  | cons v values ih =>
    rw [List.mapM_cons]
    simp only [except_bind_eq_ok, getStr_eq_ok, ih]
    cases strs <;> simp [pure, Except.pure]

end UniValue

/-- `JSONRPCRequest` as a handler reads it: `fHelp`, and `params` as its positional arguments. -/
structure JSONRPCRequest where
  fHelp : Bool
  params : List UniValue

def JSONRPCRequest.param (request : JSONRPCRequest) (i : Nat) : UniValue :=
  request.params.getD i .null

/-- An argument of an `RPCHelpMan`, with `IsOptional()`: a default or `OMITTED`, not
`Optional::NO`. -/
structure RPCArg where
  name : String
  optional : Bool

/-- The parts of an `RPCHelpMan` that `Check` reads: its arguments, and the help text
`ToString()` renders from the rest, taken as given. -/
structure RPCHelpMan where
  helpText : String
  args : List RPCArg

namespace RPCHelpMan

/-- `IsValidNumArgs`: every argument up to the last required one, and no more than all. -/
def isValidNumArgs (man : RPCHelpMan) (numArgs : Nat) : Bool :=
  decide ((man.args.reverse.dropWhile (·.optional)).length ≤ numArgs ∧ numArgs ≤ man.args.length)

def check (man : RPCHelpMan) (request : JSONRPCRequest) : Except String Unit :=
  if request.fHelp || !man.isValidNumArgs request.params.length then .error man.helpText
  else .ok ()

theorem check_eq_ok {man : RPCHelpMan} {request : JSONRPCRequest} {u : Unit} :
    man.check request = .ok u ↔
      request.fHelp = false ∧ man.isValidNumArgs request.params.length = true := by
  unfold check
  cases request.fHelp <;> cases man.isValidNumArgs request.params.length <;> simp

theorem check_throwsOnly (man : RPCHelpMan) (request : JSONRPCRequest) :
    ThrowsOnly [man.helpText] (man.check request) := fun e h => by
  unfold check at h
  split_ifs at h
  cases h
  simp

end RPCHelpMan

/-- `if (!cond) throw JSONRPCError(code, message)`. -/
def rpcAssert (cond : Bool) (message : String) : Except String Unit :=
  if cond then .ok () else .error message

theorem rpcAssert_eq_ok {cond : Bool} {message : String} {u : Unit} :
    rpcAssert cond message = .ok u ↔ cond = true := by
  cases cond <;> simp [rpcAssert]

theorem rpcAssert_throwsOnly (cond : Bool) (message : String) :
    ThrowsOnly [message] (rpcAssert cond message) := fun e h => by
  cases cond <;> cases h
  simp

end Palladium
