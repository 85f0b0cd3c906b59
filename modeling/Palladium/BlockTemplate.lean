import Mathlib
import Palladium.Uint256

/-!
# The longpoll id of getblocktemplate

`getblocktemplate` hands out `longpollid` as the hex of the block its cached template builds on
followed by the decimal of the static `nTransactionsUpdatedLast`. The longpoll branch of a later
call checks the id's length against 64 plus the decimal length of that static counter as it
stands then, not of the counter written in the id. It reads an id back to its hash and counter
exactly when the two lengths agree; once another call has stored a counter with another number
of digits, every id issued before is rejected as "Invalid longpollid format".

`GetHex`, `ParseHashV`, `ToString` and `std::stoul` are not in the sources; they are modelled
from the id format the spec gives, `<tipHashHex><txUpdatedCounter>`.
-/

namespace Palladium

/-! ## Text -/

/-- Modelled from the spec: `isspace` in the C locale, the white space `std::stoul` skips. -/
def isSpace (c : Char) : Bool := c == ' ' || (9 ≤ c.toNat && c.toNat ≤ 13)

/-- Modelled from the spec: `ToString(n)` and `std::to_string(n)` of an unsigned integer, its
decimal digits from the most significant, with no leading zero. -/
def decimal (n : Nat) : List Char := Nat.toDigits 10 n

def decimalValue (digits : List Char) : Nat :=
  digits.foldl (fun acc c => 10 * acc + (c.toNat - 48)) 0

/-- Modelled from the spec: `std::stoul(str)` with a 64-bit `unsigned long`. White space, an
optional sign, then the longest run of digits; `none` where it throws, at no digit or past
`ULONG_MAX`. A minus sign negates modulo `2^64`. -/
def stoul (str : List Char) : Option Nat :=
  let str := str.dropWhile isSpace
  let negative := str.head? == some '-'
  let str := if str.head? = some '-' ∨ str.head? = some '+' then str.tail else str
  let digits := str.takeWhile Char.isDigit
  if digits = [] ∨ 2 ^ 64 ≤ decimalValue digits then none
  else some (if negative then (2 ^ 64 - decimalValue digits) % 2 ^ 64 else decimalValue digits)

/-- Modelled from the spec: `HexDigit(c)`, the value of a hex digit of either case. -/
def hexDigit (c : Char) : Option Nat :=
  if '0' ≤ c ∧ c ≤ '9' then some (c.toNat - 48)
  else if 'a' ≤ c ∧ c ≤ 'f' then some (c.toNat - 87)
  else if 'A' ≤ c ∧ c ≤ 'F' then some (c.toNat - 55)
  else none

/-- Modelled from the spec: the two lowercase hex digits `HexStr` writes for a byte. -/
def hexByte (b : UInt8) : List Char :=
  [Nat.digitChar (b.toNat / 16), Nat.digitChar (b.toNat % 16)]

/-- Modelled from the spec: `uint256::GetHex()`, the bytes from the most significant down. -/
def Uint256.getHex (h : Uint256) : List Char := h.data.reverse.flatMap hexByte

def hexBytes : List Char → Option (List UInt8)
  | [] => some []
  | [_] => none
  | hi :: lo :: rest =>
    match hexDigit hi, hexDigit lo, hexBytes rest with
    | some h, some l, some bytes => some (UInt8.ofNat (16 * h + l) :: bytes)
    | _, _, _ => none

theorem length_of_hexBytes : ∀ {cs : List Char} {bytes : List UInt8},
    hexBytes cs = some bytes → cs.length = 2 * bytes.length
  | [], _, h => by cases h; rfl
  | [_], _, h => by cases h
  | hi :: lo :: rest, bytes, h => by
    simp only [hexBytes] at h
    split at h
    · cases h
      have := length_of_hexBytes ‹hexBytes rest = some _›
      simp only [List.length_cons]
      omega
    · cases h

/-- Modelled from the spec: `ParseHashV(v, strName)`. 64 hex digits, read as `uint256S` reads
them, the last pair into the least significant byte. -/
def parseHashV (v : List Char) (strName : String) : Except String Uint256 :=
  if hv : v.length = 64 then
    match hb : hexBytes v with
    | some bytes => .ok ⟨bytes.reverse, by
        have := length_of_hexBytes hb
        rw [List.length_reverse]
        omega⟩
    | none => .error (strName ++ " must be hexadecimal string (not \x27" ++ String.mk v ++ "\x27)")
  else
    .error (strName ++ " must be of length 64 (not " ++ String.mk (decimal v.length) ++
      ", for \x27" ++ String.mk v ++ "\x27)")

/-! ## Reading the text back -/

theorem hexDigit_digitChar : ∀ d < 16, hexDigit (Nat.digitChar d) = some d := by
  decide

theorem hexBytes_flatMap_hexByte (bytes : List UInt8) :
    hexBytes (bytes.flatMap hexByte) = some bytes := by
  induction bytes with
  | nil => rfl
  | cons b bytes ih =>
    have hb := b.toNat_lt
    have hbyte : UInt8.ofNat (16 * (b.toNat / 16) + b.toNat % 16) = b :=
      UInt8.ext (by
        show (16 * (b.toNat / 16) + b.toNat % 16) % 256 = b.toNat
        omega)
    show hexBytes (Nat.digitChar (b.toNat / 16) :: Nat.digitChar (b.toNat % 16) ::
      bytes.flatMap hexByte) = _
    simp only [hexBytes,
      hexDigit_digitChar _ (show b.toNat / 16 < 16 by omega),
      hexDigit_digitChar _ (show b.toNat % 16 < 16 by omega), ih, hbyte]

@[simp] theorem Uint256.length_getHex (h : Uint256) : h.getHex.length = 64 := by
  have h2 : ∀ b, (hexByte b).length = 2 := fun _ => rfl
  simp [Uint256.getHex, List.length_flatMap, Function.comp_def, h2, h.length_data]

theorem parseHashV_getHex (h : Uint256) (strName : String) :
    parseHashV h.getHex strName = .ok h := by
  have hb : hexBytes h.getHex = some h.data.reverse := hexBytes_flatMap_hexByte _
  unfold parseHashV
  rw [dif_pos h.length_getHex]
  split <;> rename_i hb' <;> rw [hb] at hb' <;> cases hb'
  simp

theorem digitChar_facts : ∀ d < 10, (Nat.digitChar d).isDigit ∧ isSpace (Nat.digitChar d) = false ∧
    Nat.digitChar d ≠ '-' ∧ Nat.digitChar d ≠ '+' ∧ (Nat.digitChar d).toNat - 48 = d := by
  decide

theorem toDigitsCore_decimal : ∀ (fuel n : Nat) (ds : List Char), n < fuel →
    (∀ c ∈ Nat.toDigitsCore 10 fuel n ds, (∃ d < 10, Nat.digitChar d = c) ∨ c ∈ ds) ∧
      (Nat.toDigitsCore 10 fuel n ds).foldl (fun acc c => 10 * acc + (c.toNat - 48)) 0 =
        ds.foldl (fun acc c => 10 * acc + (c.toNat - 48)) n
  | 0, _, _, h => absurd h (Nat.not_lt_zero _)
  | fuel + 1, n, ds, h => by
    have hlt : n % 10 < 10 := Nat.mod_lt _ (by decide)
    have hcons : ∀ c ∈ Nat.digitChar (n % 10) :: ds, (∃ d < 10, Nat.digitChar d = c) ∨ c ∈ ds :=
      List.forall_mem_cons.mpr ⟨.inl ⟨_, hlt, rfl⟩, fun _ => .inr⟩
    have hval := (digitChar_facts _ hlt).2.2.2.2
    simp only [Nat.toDigitsCore]
    split
    · refine ⟨hcons, ?_⟩
      rw [List.foldl_cons, hval]
      congr 1
      omega
    · obtain ⟨hall, hfold⟩ := toDigitsCore_decimal fuel (n / 10) _ (by omega)
      refine ⟨fun c hc => (hall c hc).elim .inl (hcons c), ?_⟩
      rw [hfold, List.foldl_cons, hval]
      congr 1
      omega

theorem decimal_ne_nil (n : Nat) : decimal n ≠ [] := by
  unfold decimal Nat.toDigits
  simp only [Nat.toDigitsCore]
  split
  · exact List.cons_ne_nil _ _
  · rw [← List.length_pos, Nat.toDigitsCore_lens_eq]
    omega

theorem stoul_decimal {n : Nat} (hn : n < 2 ^ 64) : stoul (decimal n) = some n := by
  obtain ⟨hall, hfold⟩ := toDigitsCore_decimal (n + 1) n [] (by omega)
  have hdig : ∀ c ∈ decimal n, ∃ d < 10, Nat.digitChar d = c :=
    fun c hc => (hall c hc).resolve_right (List.not_mem_nil _)
  have hval : decimalValue (decimal n) = n := hfold
  obtain ⟨c, cs, hcs⟩ := List.exists_cons_of_ne_nil (decimal_ne_nil n)
  obtain ⟨d, hd, rfl⟩ := hdig _ (by rw [hcs]; exact List.mem_cons_self _ _)
  obtain ⟨-, hsp, hminus, hplus, -⟩ := digitChar_facts d hd
  have hdrop : (decimal n).dropWhile isSpace = decimal n := by
    rw [hcs, List.dropWhile_cons_of_neg (by rw [hsp]; decide)]
  have hhead : (decimal n).head? = some (Nat.digitChar d) := by rw [hcs]; rfl
  have htake : (decimal n).takeWhile Char.isDigit = decimal n :=
    List.takeWhile_eq_self_iff.mpr fun c hc => by
      obtain ⟨e, he, rfl⟩ := hdig c hc
      exact (digitChar_facts e he).1
  simp [stoul, hdrop, hhead, hminus, hplus, htake, decimal_ne_nil, hval,
    show n < 18446744073709551616 from hn]

/-! ## The longpoll id -/

def longPollId (hash : Uint256) (nTransactionsUpdatedLast : UInt32) : List Char :=
  hash.getHex ++ decimal nTransactionsUpdatedLast.toNat

/-- The longpoll branch's reading of a string `longpollid` against the static
`nTransactionsUpdatedLast`: the chain and the counter to watch, or the error thrown. -/
def parseLongPollId (nTransactionsUpdatedLast : UInt32) (lpstr : List Char) :
    Except String (Uint256 × UInt32) :=
  if lpstr.length ≠ 64 + (decimal nTransactionsUpdatedLast.toNat).length then
    .error "Invalid longpollid format"
  else
    match parseHashV (lpstr.take 64) "longpollid" with
    | .error e => .error e
    | .ok hashWatchedChain =>
      match stoul (lpstr.drop 64) with
      | none => .error "Invalid longpollid format (transaction count)"
      | some n => .ok (hashWatchedChain, UInt32.ofNat n)

theorem parseLongPollId_longPollId (nTransactionsUpdatedLast : UInt32) (hash : Uint256)
    (n : UInt32) :
    parseLongPollId nTransactionsUpdatedLast (longPollId hash n) =
      if (decimal n.toNat).length = (decimal nTransactionsUpdatedLast.toNat).length then
        .ok (hash, n)
      else .error "Invalid longpollid format" := by
  have hlen : (longPollId hash n).length = 64 + (decimal n.toNat).length := by
    simp [longPollId]
  unfold parseLongPollId
  rw [hlen]
  by_cases h : (decimal n.toNat).length = (decimal nTransactionsUpdatedLast.toNat).length
  · have hn : n.toNat < 2 ^ 64 := by have := n.toNat_lt; omega
    rw [if_neg (by omega), if_pos h, longPollId, List.take_left' hash.length_getHex,
      parseHashV_getHex, List.drop_left' hash.length_getHex, stoul_decimal hn]
    simp only [Except.ok.injEq, Prod.mk.injEq, true_and]
    exact UInt32.ext (Nat.mod_eq_of_lt n.toNat_lt)
  · rw [if_pos (by omega), if_neg h]

/-! ## The server -/

/-- What the longpoll branch and the template cache of `getblocktemplate` read and write: the
active tip, the mempool's counter `GetTransactionsUpdated()`, the clock `GetTime()`, and the
statics `nTransactionsUpdatedLast`, `pindexPrev` and `nStart`. A block index stands for its
block's hash, and `pindexPrev` is `none` for `nullptr`. -/
structure GbtServer where
  tip : Uint256
  transactionsUpdated : UInt32
  time : Int
  nTransactionsUpdatedLast : UInt32
  pindexPrev : Option Uint256
  nStart : Int
  deriving DecidableEq

def GbtServer.startup (tip : Uint256) (transactionsUpdated : UInt32) (time : Int) : GbtServer :=
  ⟨tip, transactionsUpdated, time, 0, none, 0⟩

inductive LongPollValue
  | str (lpstr : List Char)
  | nonString

/-- The longpoll branch of `getblocktemplate`: the chain and counter it waits on. A value that
is not a string watches the current tip and counter. -/
def longPollWatch (s : GbtServer) : LongPollValue → Except String (Uint256 × UInt32)
  | .str lpstr => parseLongPollId s.nTransactionsUpdatedLast lpstr
  | .nonString => .ok (s.tip, s.nTransactionsUpdatedLast)

/-- The template cache: rebuilt when the tip moved, or when the mempool changed and more than
five seconds passed since the last build. Building the template is taken to succeed. -/
def GbtServer.refresh (s : GbtServer) : GbtServer :=
  if s.pindexPrev ≠ some s.tip ∨
      (s.transactionsUpdated ≠ s.nTransactionsUpdatedLast ∧ s.time - s.nStart > 5) then
    { s with
      pindexPrev := some s.tip
      nTransactionsUpdatedLast := s.transactionsUpdated
      nStart := s.time }
  else s

def getblocktemplate (s : GbtServer) : GbtServer × Option (List Char) :=
  let s := s.refresh
  (s, s.pindexPrev.map fun hash => longPollId hash s.nTransactionsUpdatedLast)

/-- What happens between two readings of an id: a completed `getblocktemplate` call, a mempool
change (`++nTransactionsUpdated`), a new active tip, or the clock moving on. A call whose
longpoll branch throws changes nothing. -/
inductive ServerStep
  | getblocktemplate
  | mempoolUpdate
  | tipUpdate (hash : Uint256)
  | tick (seconds : Nat)

namespace GbtServer

def step (s : GbtServer) : ServerStep → GbtServer
  | .getblocktemplate => (Palladium.getblocktemplate s).1
  | .mempoolUpdate => { s with transactionsUpdated := s.transactionsUpdated + 1 }
  | .tipUpdate hash => { s with tip := hash }
  | .tick seconds => { s with time := s.time + seconds }

def run (s : GbtServer) : List ServerStep → GbtServer
  | [] => s
  | a :: steps => (s.step a).run steps

theorem run_append (s : GbtServer) (xs ys : List ServerStep) :
    s.run (xs ++ ys) = (s.run xs).run ys := by
  induction xs generalizing s with
  | nil => rfl
  | cons a xs ih => exact ih (s.step a)

theorem run_mempoolUpdates (s : GbtServer) (k : Nat) :
    s.run (List.replicate k .mempoolUpdate) =
      { s with transactionsUpdated := UInt32.ofNat (s.transactionsUpdated.toNat + k) } := by
  induction k generalizing s with
  | zero =>
    have h : UInt32.ofNat (s.transactionsUpdated.toNat + 0) = s.transactionsUpdated :=
      UInt32.ext (Nat.mod_eq_of_lt s.transactionsUpdated.toNat_lt)
    rw [h]
    rfl
  | succ k ih =>
    rw [List.replicate_succ, run, ih]
    congr 1
    exact UInt32.ext (show ((s.transactionsUpdated.toNat + 1) % 2 ^ 32 + k) % 2 ^ 32 =
      (s.transactionsUpdated.toNat + (k + 1)) % 2 ^ 32 by omega)

theorem refresh_pindexPrev (s : GbtServer) : s.refresh.pindexPrev = some s.tip := by
  unfold refresh
  split_ifs with h
  · rfl
  · push_neg at h
    exact h.1

@[simp] theorem refresh_tip (s : GbtServer) : s.refresh.tip = s.tip := by
  unfold refresh
  split_ifs <;> rfl

theorem refresh_of_changed {s : GbtServer}
    (hcount : s.transactionsUpdated ≠ s.nTransactionsUpdatedLast) (htime : s.time - s.nStart > 5) :
    s.refresh.nTransactionsUpdatedLast = s.transactionsUpdated := by
  rw [refresh, if_pos (.inr ⟨hcount, htime⟩)]

end GbtServer

theorem getblocktemplate_eq (s : GbtServer) :
    getblocktemplate s =
      (s.refresh, some (longPollId s.tip s.refresh.nTransactionsUpdatedLast)) := by
  simp [getblocktemplate, GbtServer.refresh_pindexPrev]

theorem getblocktemplate_longpollid_read_back (s : GbtServer) (steps : List ServerStep) :
    ∃ lpid, (getblocktemplate s).2 = some lpid ∧
      longPollWatch ((getblocktemplate s).1.run steps) (.str lpid) =
        if (decimal (getblocktemplate s).1.nTransactionsUpdatedLast.toNat).length =
            (decimal ((getblocktemplate s).1.run steps).nTransactionsUpdatedLast.toNat).length then
          .ok (s.tip, (getblocktemplate s).1.nTransactionsUpdatedLast)
        else .error "Invalid longpollid format" := by
  rw [getblocktemplate_eq]
  exact ⟨_, rfl, parseLongPollId_longPollId _ _ _⟩

/-- From every server state, the id `getblocktemplate` emits is rejected as
"Invalid longpollid format" once the mempool has moved the counter to any `m` with another
number of decimal digits and a later call, more than five seconds on, has stored it. -/
theorem getblocktemplate_longpollid_rejected (s : GbtServer) (m : UInt32)
    (hm : (decimal m.toNat).length ≠
      (decimal (getblocktemplate s).1.nTransactionsUpdatedLast.toNat).length) :
    ∃ steps lpid, (getblocktemplate s).2 = some lpid ∧
      ((getblocktemplate s).1.run steps).nTransactionsUpdatedLast = m ∧
      longPollWatch ((getblocktemplate s).1.run steps) (.str lpid) =
        .error "Invalid longpollid format" := by
  rw [getblocktemplate_eq] at hm ⊢
  set s₁ := s.refresh
  have hne : m ≠ s₁.nTransactionsUpdatedLast := fun h => hm (by rw [h])
  let k := (m - s₁.transactionsUpdated).toNat
  let d := (s₁.nStart - s₁.time).toNat + 6
  have hk : UInt32.ofNat (s₁.transactionsUpdated.toNat + k) = m := UInt32.ext (by
    show (s₁.transactionsUpdated.toNat + (2 ^ 32 - s₁.transactionsUpdated.toNat + m.toNat) %
      2 ^ 32) % 2 ^ 32 = m.toNat
    have := m.toNat_lt
    have := s₁.transactionsUpdated.toNat_lt
    omega)
  have hlast : (s₁.run (List.replicate k .mempoolUpdate ++
      [.tick d, .getblocktemplate])).nTransactionsUpdatedLast = m := by
    rw [GbtServer.run_append, GbtServer.run_mempoolUpdates, hk]
    exact GbtServer.refresh_of_changed hne
      (show s₁.time + ((s₁.nStart - s₁.time).toNat + 6 : Nat) - s₁.nStart > 5 by omega)
  refine ⟨_, _, rfl, hlast, ?_⟩
  rw [longPollWatch, hlast, parseLongPollId_longPollId, if_neg hm.symm]

theorem getblocktemplate_longpollid_rejected_nine :
    (decimal (10 : UInt32).toNat).length ≠ (decimal
      (getblocktemplate (.startup Uint256.zero 9 0)).1.nTransactionsUpdatedLast.toNat).length ∧
    ∃ steps lpid, (getblocktemplate (.startup Uint256.zero 9 0)).2 = some lpid ∧
      ((getblocktemplate (.startup Uint256.zero 9 0)).1.run steps).nTransactionsUpdatedLast = 10 ∧
      longPollWatch ((getblocktemplate (.startup Uint256.zero 9 0)).1.run steps) (.str lpid) =
        .error "Invalid longpollid format" :=
  ⟨by decide, getblocktemplate_longpollid_rejected _ 10 (by decide)⟩

end Palladium
