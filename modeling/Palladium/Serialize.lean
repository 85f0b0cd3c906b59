import Mathlib
import Palladium.Primitives

/-!
# Serializing transactions and blocks

`CBlock::SerializationOp` writes the header, then the merge-mining proof when the header's
version carries the AuxPoW bit, then the transactions. On reading it takes the version bit
from the header it has just read, and drops a proof whose parent header hashes to null.
`serialize.h` is not among the sources, so the readers of the field types come with their
writers as a `Codec`, whose law is that each reader inverts its writer, sizes up to
`MAX_SIZE`. Transactions are read as `UnserializeTransaction` reads them, witnesses allowed.

A transaction with no input but some output, written with witnesses allowed, begins like the
extended format, and reading it fails. Every other transaction is read back, and so is every
block whose transactions are of that kind and whose vectors fit `MAX_SIZE`. Every transaction
the reader accepts is of that kind, and reading never yields a proof while the bit is clear.
-/

namespace Palladium

/-- The writers of `serialize.h` with their readers. Each reader inverts its writer: reading
what was written, followed by anything, gives the value and the rest. `ReadCompactSize`
refuses sizes above `MAX_SIZE`, and the size 0 is the one byte 0. -/
structure Codec extends Writer where
  maxSize : Nat
  readInt32 : List UInt8 → Option (BitVec 32 × List UInt8)
  readUint32 : List UInt8 → Option (UInt32 × List UInt8)
  readInt64 : List UInt8 → Option (BitVec 64 × List UInt8)
  readUint256 : List UInt8 → Option (Uint256 × List UInt8)
  readCompactSize : List UInt8 → Option (Nat × List UInt8)
  readInt32_int32 (v : BitVec 32) (rest : List UInt8) : readInt32 (int32 v ++ rest) = some (v, rest)
  readUint32_uint32 (v : UInt32) (rest : List UInt8) :
    readUint32 (uint32 v ++ rest) = some (v, rest)
  readInt64_int64 (v : BitVec 64) (rest : List UInt8) : readInt64 (int64 v ++ rest) = some (v, rest)
  readUint256_uint256 (v : Uint256) (rest : List UInt8) :
    readUint256 (uint256 v ++ rest) = some (v, rest)
  readCompactSize_compactSize (n : Nat) (hn : n ≤ maxSize) (rest : List UInt8) :
    readCompactSize (compactSize n ++ rest) = some (n, rest)
  le_maxSize_of_readCompactSize {bs : List UInt8} {n : Nat} {rest : List UInt8} :
    readCompactSize bs = some (n, rest) → n ≤ maxSize
  compactSize_zero : compactSize 0 = [0]

attribute [simp] Codec.readInt32_int32 Codec.readUint32_uint32 Codec.readInt64_int64
  Codec.readUint256_uint256

def readByte : List UInt8 → Option (UInt8 × List UInt8)
  | [] => none
  | b :: bs => some (b, bs)

/-! ## Vectors -/

section Vector

variable {α : Type} (readCompactSize : List UInt8 → Option (Nat × List UInt8))

def readElements (read : List UInt8 → Option (α × List UInt8)) :
    Nat → List UInt8 → Option (List α × List UInt8)
  | 0, bs => some ([], bs)
  | n + 1, bs => do
    let (a, bs) ← read bs
    let (v, bs) ← readElements read n bs
    pure (a :: v, bs)

def readVector (read : List UInt8 → Option (α × List UInt8)) (bs : List UInt8) :
    Option (List α × List UInt8) := do
  let (n, bs) ← readCompactSize bs
  readElements read n bs

variable {read : List UInt8 → Option (α × List UInt8)} {write : α → List UInt8}
  {compactSize : Nat → List UInt8} {m : Nat}

theorem readElements_flatMap {f : α → α} (v : List α)
    (h : ∀ a ∈ v, ∀ rest, read (write a ++ rest) = some (f a, rest)) (rest : List UInt8) :
    readElements read v.length (v.flatMap write ++ rest) = some (v.map f, rest) := by
  induction v with
  | nil => rfl
  | cons a v ih =>
    simp [readElements, List.append_assoc, h a (List.mem_cons_self _ _),
      ih fun b hb => h b (List.mem_cons_of_mem _ hb)]

theorem readVector_writeVector_map {f : α → α}
    (hsize : ∀ n ≤ m, ∀ rest, readCompactSize (compactSize n ++ rest) = some (n, rest))
    (v : List α) (hv : v.length ≤ m) (h : ∀ a ∈ v, ∀ rest, read (write a ++ rest) = some (f a, rest))
    (rest : List UInt8) :
    readVector readCompactSize read (writeVector compactSize write v ++ rest) = some (v.map f, rest) := by
  simp [readVector, writeVector, List.append_assoc, hsize _ hv, readElements_flatMap v h]

theorem readVector_writeVector
    (hsize : ∀ n ≤ m, ∀ rest, readCompactSize (compactSize n ++ rest) = some (n, rest))
    (v : List α) (hv : v.length ≤ m) (h : ∀ a rest, read (write a ++ rest) = some (a, rest))
    (rest : List UInt8) :
    readVector readCompactSize read (writeVector compactSize write v ++ rest) = some (v, rest) := by
  simpa using readVector_writeVector_map readCompactSize (f := id) hsize v hv (fun a _ => h a) rest

theorem readElements_spec {P : α → Prop} (hread : ∀ {bs a rest}, read bs = some (a, rest) → P a) :
    ∀ {n : Nat} {bs v rest}, readElements read n bs = some (v, rest) → v.length = n ∧ ∀ a ∈ v, P a
  | 0, _, _, _, h => by cases h; simp
  | n + 1, bs, v, rest, h => by
    obtain ⟨⟨a, bs₁⟩, ha, h⟩ := Option.bind_eq_some.mp h
    obtain ⟨⟨v', bs₂⟩, hv, h⟩ := Option.bind_eq_some.mp h
    cases h
    obtain ⟨hlen, hall⟩ := readElements_spec hread hv
    exact ⟨by simp [hlen], List.forall_mem_cons.mpr ⟨hread ha, hall⟩⟩

theorem readVector_spec {P : α → Prop}
    (hsize : ∀ {bs n rest}, readCompactSize bs = some (n, rest) → n ≤ m)
    (hread : ∀ {bs a rest}, read bs = some (a, rest) → P a) {bs : List UInt8} {v : List α}
    {rest : List UInt8} (h : readVector readCompactSize read bs = some (v, rest)) :
    v.length ≤ m ∧ ∀ a ∈ v, P a := by
  obtain ⟨⟨n, bs₁⟩, hn, h⟩ := Option.bind_eq_some.mp h
  obtain ⟨hlen, hall⟩ := readElements_spec hread h
  exact ⟨hlen ▸ hsize hn, hall⟩

end Vector

/-! ## Transactions -/

def CTxIn.SizesWithin (m : Nat) (txin : CTxIn) : Prop :=
  txin.scriptSig.length ≤ m ∧ txin.scriptWitness.length ≤ m ∧ ∀ item ∈ txin.scriptWitness, item.length ≤ m

def CTransaction.SizesWithin (m : Nat) (tx : CTransaction) : Prop :=
  tx.vin.length ≤ m ∧ tx.vout.length ≤ m ∧ (∀ txin ∈ tx.vin, txin.SizesWithin m) ∧
    ∀ txout ∈ tx.vout, txout.scriptPubKey.length ≤ m

/-- A transaction with an input, or without outputs. Written with witnesses allowed, one with
no input but some output begins like the extended format: its empty `vin` and the size of its
`vout` are read as `vinDummy` and the flag byte. -/
def CTransaction.Unambiguous (tx : CTransaction) : Prop := tx.vin ≠ [] ∨ tx.vout = []

instance (m : Nat) (txin : CTxIn) : Decidable (txin.SizesWithin m) :=
  inferInstanceAs (Decidable (_ ∧ _))

instance (m : Nat) (tx : CTransaction) : Decidable (tx.SizesWithin m) :=
  inferInstanceAs (Decidable (_ ∧ _))

instance (tx : CTransaction) : Decidable tx.Unambiguous := inferInstanceAs (Decidable (_ ∨ _))

/-- What the reader needs to read a transaction back: an input or no outputs, and vectors
within `m`. -/
def CTransaction.Readable (m : Nat) (tx : CTransaction) : Prop := tx.Unambiguous ∧ tx.SizesWithin m

instance (m : Nat) (tx : CTransaction) : Decidable (tx.Readable m) :=
  inferInstanceAs (Decidable (_ ∧ _))

/-- The input without its witness, as `CTxIn::SerializationOp` reads it. -/
def CTxIn.withoutWitness (txin : CTxIn) : CTxIn := { txin with scriptWitness := [] }

section Transaction

variable (c : Codec)

def CTxIn.deserialize (bs : List UInt8) : Option (CTxIn × List UInt8) := do
  let (hash, bs) ← c.readUint256 bs
  let (n, bs) ← c.readUint32 bs
  let (scriptSig, bs) ← readVector c.readCompactSize readByte bs
  let (nSequence, bs) ← c.readUint32 bs
  pure (⟨⟨hash, n⟩, scriptSig, nSequence, []⟩, bs)

def CTxOut.deserialize (bs : List UInt8) : Option (CTxOut × List UInt8) := do
  let (nValue, bs) ← c.readInt64 bs
  let (scriptPubKey, bs) ← readVector c.readCompactSize readByte bs
  pure (⟨nValue, scriptPubKey⟩, bs)

def readWitnesses : List CTxIn → List UInt8 → Option (List CTxIn × List UInt8)
  | [], bs => some ([], bs)
  | txin :: vin, bs => do
    let (stack, bs) ← readVector c.readCompactSize (readVector c.readCompactSize readByte) bs
    let (vin, bs) ← readWitnesses vin bs
    pure ({ txin with scriptWitness := stack } :: vin, bs)

/-- `UnserializeTransaction` from `vin` to `vout`: the flags, the inputs, the outputs. An empty
`vin` with witnesses allowed is taken for `vinDummy`, and the flag byte follows; with flags the
inputs and outputs come after it, without them the outputs stay empty. -/
def readTxBody (fAllowWitness : Bool) (bs : List UInt8) :
    Option (UInt8 × List CTxIn × List CTxOut × List UInt8) := do
  let (vin, bs) ← readVector c.readCompactSize (CTxIn.deserialize c) bs
  if vin.isEmpty && fAllowWitness then
    let (flags, bs) ← readByte bs
    if flags ≠ 0 then
      let (vin, bs) ← readVector c.readCompactSize (CTxIn.deserialize c) bs
      let (vout, bs) ← readVector c.readCompactSize (CTxOut.deserialize c) bs
      pure (flags, vin, vout, bs)
    else pure (flags, vin, [], bs)
  else
    let (vout, bs) ← readVector c.readCompactSize (CTxOut.deserialize c) bs
    pure (0, vin, vout, bs)

/-- The witness part of `UnserializeTransaction`: with the flag bit set and witnesses allowed,
a stack for each input and the bit cleared, or the throw "Superfluous witness record" when
every stack is empty. -/
def readTxWitness (fAllowWitness : Bool) (flags : UInt8) (vin : List CTxIn) (bs : List UInt8) :
    Option (UInt8 × List CTxIn × List UInt8) :=
  if (flags &&& 1) != 0 && fAllowWitness then
    match readWitnesses c vin bs with
    | none => none
    | some (vin, bs) => if hasWitness vin then some (flags ^^^ 1, vin, bs) else none
  else some (flags, vin, bs)

/-- `UnserializeTransaction`: `none` where it throws, among them "Unknown transaction optional
data" for flags left over. -/
def CTransaction.deserialize (fAllowWitness : Bool) (bs : List UInt8) :
    Option (CTransaction × List UInt8) := do
  let (nVersion, bs) ← c.readInt32 bs
  let (flags, vin, vout, bs) ← readTxBody c fAllowWitness bs
  let (flags, vin, bs) ← readTxWitness c fAllowWitness flags vin bs
  if flags ≠ 0 then none
  else
    let (nLockTime, bs) ← c.readUint32 bs
    pure (⟨nVersion, vin, vout, nLockTime⟩, bs)

theorem readVector_writeBytes (v : List UInt8) (hv : v.length ≤ c.maxSize) (rest : List UInt8) :
    readVector c.readCompactSize readByte (writeBytes c.compactSize v ++ rest) = some (v, rest) :=
  readVector_writeVector c.readCompactSize c.readCompactSize_compactSize v hv (fun _ _ => rfl) rest

theorem CTxIn.deserialize_serialize (txin : CTxIn) (h : txin.scriptSig.length ≤ c.maxSize)
    (rest : List UInt8) :
    CTxIn.deserialize c (txin.serialize c.toWriter ++ rest) = some (txin.withoutWitness, rest) := by
  simp [CTxIn.deserialize, CTxIn.serialize, List.append_assoc, readVector_writeBytes c _ h,
    CTxIn.withoutWitness]

theorem CTxOut.deserialize_serialize (txout : CTxOut) (h : txout.scriptPubKey.length ≤ c.maxSize)
    (rest : List UInt8) :
    CTxOut.deserialize c (txout.serialize c.toWriter ++ rest) = some (txout, rest) := by
  simp [CTxOut.deserialize, CTxOut.serialize, List.append_assoc, readVector_writeBytes c _ h]

theorem readWitnesses_flatMap (vin : List CTxIn) (h : ∀ txin ∈ vin, txin.SizesWithin c.maxSize)
    (rest : List UInt8) :
    readWitnesses c (vin.map CTxIn.withoutWitness) (vin.flatMap (fun txin =>
      writeVector c.compactSize (writeBytes c.compactSize) txin.scriptWitness) ++ rest) =
      some (vin, rest) := by
  induction vin with
  | nil => rfl
  | cons txin vin ih =>
    obtain ⟨-, hlen, hitems⟩ := h txin (List.mem_cons_self _ _)
    have hstack := readVector_writeVector_map c.readCompactSize (f := id)
      c.readCompactSize_compactSize txin.scriptWitness hlen
      (fun item hi => readVector_writeBytes c item (hitems item hi))
    simp [readWitnesses, List.append_assoc, hstack, ih fun t ht => h t (List.mem_cons_of_mem _ ht),
      CTxIn.withoutWitness]

theorem map_withoutWitness {vin : List CTxIn} (h : hasWitness vin = false) :
    vin.map CTxIn.withoutWitness = vin := by
  conv_rhs => rw [← List.map_id vin]
  refine List.map_congr_left fun txin htxin => ?_
  have hempty : txin.scriptWitness = [] := by
    simpa using List.any_eq_false.mp h txin htxin
  simp [CTxIn.withoutWitness, ← hempty]

theorem readVector_compactSize_zero {α : Type} (read : List UInt8 → Option (α × List UInt8))
    (rest : List UInt8) : readVector c.readCompactSize read (c.compactSize 0 ++ rest) = some ([], rest) := by
  simp [readVector, c.readCompactSize_compactSize 0 (Nat.zero_le _), readElements]

theorem readByte_compactSize_zero (rest : List UInt8) :
    readByte (c.compactSize 0 ++ rest) = some (0, rest) := by
  rw [c.compactSize_zero]
  rfl

theorem readVector_writeVector_vin (vin : List CTxIn) (hvin : vin.length ≤ c.maxSize)
    (h : ∀ txin ∈ vin, txin.SizesWithin c.maxSize) (rest : List UInt8) :
    readVector c.readCompactSize (CTxIn.deserialize c)
        (writeVector c.compactSize (CTxIn.serialize c.toWriter) vin ++ rest) =
      some (vin.map CTxIn.withoutWitness, rest) :=
  readVector_writeVector_map c.readCompactSize c.readCompactSize_compactSize vin hvin
    (fun txin ht => CTxIn.deserialize_serialize c txin (h txin ht).1) rest

theorem readVector_writeVector_vout (vout : List CTxOut) (hvout : vout.length ≤ c.maxSize)
    (h : ∀ txout ∈ vout, txout.scriptPubKey.length ≤ c.maxSize) (rest : List UInt8) :
    readVector c.readCompactSize (CTxOut.deserialize c)
        (writeVector c.compactSize (CTxOut.serialize c.toWriter) vout ++ rest) = some (vout, rest) := by
  simpa using readVector_writeVector_map c.readCompactSize (f := id) c.readCompactSize_compactSize
    vout hvout (fun txout ht => CTxOut.deserialize_serialize c txout (h txout ht)) rest

theorem CTransaction.deserialize_serialize (tx : CTransaction) (h : tx.Readable c.maxSize)
    (rest : List UInt8) :
    CTransaction.deserialize c true (tx.serialize c.toWriter true ++ rest) = some (tx, rest) := by
  obtain ⟨nVersion, vin, vout, nLockTime⟩ := tx
  obtain ⟨hu, hvin, hvout, hins, houts⟩ := h
  have hin := readVector_writeVector_vin c vin hvin hins
  have hout := readVector_writeVector_vout c vout hvout houts
  cases hw : hasWitness vin with
  | true =>
    have hflags : ¬(1 : UInt8) = 0 ∧ (1 : UInt8) &&& 1 = 1 ∧ (1 : UInt8) ^^^ 1 = 0 := by decide
    simp only [deserialize, serialize, hw, Bool.and_self, ↓reduceIte, List.append_assoc,
      List.singleton_append, List.cons_append, Codec.readInt32_int32, readTxBody, Bool.and_true,
      List.isEmpty_eq_true, readByte, ne_eq, Prod.mk.eta, Option.pure_def, Option.bind_eq_bind,
      ite_not, readTxWitness, bne_iff_ne, Option.some_bind, readVector_compactSize_zero, hin, hout,
      hflags, readWitnesses_flatMap c vin hins, Codec.readUint32_uint32, List.nil_append]
  | false =>
    have hflags : (0 : UInt8) &&& 1 = 0 := by decide
    rcases vin with _ | ⟨txin, vin⟩
    · obtain rfl : vout = [] := hu.resolve_left (by simp)
      simp only [deserialize, serialize, hw, Bool.and_false, Bool.false_eq_true, ↓reduceIte,
        List.append_nil, writeVector, List.length_nil, List.flatMap_nil, List.append_assoc,
        Codec.readInt32_int32, readTxBody, Bool.and_true, List.isEmpty_eq_true, ne_eq, Prod.mk.eta,
        Option.pure_def, Option.bind_eq_bind, ite_not, readTxWitness, bne_iff_ne, Option.some_bind,
        readVector_compactSize_zero, readByte_compactSize_zero, hflags, Codec.readUint32_uint32]
    · simp only [deserialize, serialize, hw, Bool.and_false, Bool.false_eq_true, ↓reduceIte,
        List.append_nil, List.append_assoc, Codec.readInt32_int32, readTxBody, Bool.and_true,
        List.isEmpty_eq_true, ne_eq, Prod.mk.eta, Option.pure_def, Option.bind_eq_bind, ite_not,
        readTxWitness, bne_iff_ne, Option.some_bind, hin, map_withoutWitness hw, reduceCtorEq, hout,
        hflags, Codec.readUint32_uint32]

/-! ### What the reader accepts -/

theorem CTxIn.deserialize_sizesWithin {bs rest : List UInt8} {txin : CTxIn}
    (h : CTxIn.deserialize c bs = some (txin, rest)) : txin.SizesWithin c.maxSize := by
  obtain ⟨⟨hash, bs₁⟩, -, h⟩ := Option.bind_eq_some.mp h
  obtain ⟨⟨n, bs₂⟩, -, h⟩ := Option.bind_eq_some.mp h
  obtain ⟨⟨scriptSig, bs₃⟩, hs, h⟩ := Option.bind_eq_some.mp h
  obtain ⟨⟨nSequence, bs₄⟩, -, h⟩ := Option.bind_eq_some.mp h
  cases h
  exact ⟨(readVector_spec (P := fun _ => True) c.readCompactSize c.le_maxSize_of_readCompactSize
    (fun _ => trivial) hs).1, by simp, by simp⟩

theorem CTxOut.deserialize_sizesWithin {bs rest : List UInt8} {txout : CTxOut}
    (h : CTxOut.deserialize c bs = some (txout, rest)) : txout.scriptPubKey.length ≤ c.maxSize := by
  obtain ⟨⟨nValue, bs₁⟩, -, h⟩ := Option.bind_eq_some.mp h
  obtain ⟨⟨scriptPubKey, bs₂⟩, hs, h⟩ := Option.bind_eq_some.mp h
  cases h
  exact (readVector_spec (P := fun _ => True) c.readCompactSize c.le_maxSize_of_readCompactSize
    (fun _ => trivial) hs).1

theorem readWitnesses_sizesWithin : ∀ {vin vin' : List CTxIn} {bs rest : List UInt8},
    readWitnesses c vin bs = some (vin', rest) → (∀ txin ∈ vin, txin.SizesWithin c.maxSize) →
    vin'.length = vin.length ∧ ∀ txin ∈ vin', txin.SizesWithin c.maxSize
  | [], _, _, _, h, _ => by cases h; simp
  | txin :: vin, vin', bs, rest, h, hvin => by
    obtain ⟨⟨stack, bs₁⟩, hstack, h⟩ := Option.bind_eq_some.mp h
    obtain ⟨⟨vin₁, bs₂⟩, hrest, h⟩ := Option.bind_eq_some.mp h
    cases h
    obtain ⟨hlen, hall⟩ := readWitnesses_sizesWithin hrest fun t ht => hvin t (List.mem_cons_of_mem _ ht)
    obtain ⟨hstack, hitems⟩ := readVector_spec c.readCompactSize c.le_maxSize_of_readCompactSize
      (fun h => (readVector_spec (P := fun _ => True) c.readCompactSize
        c.le_maxSize_of_readCompactSize (fun _ => trivial) h).1) hstack
    exact ⟨by simp [hlen], List.forall_mem_cons.mpr
      ⟨⟨(hvin txin (List.mem_cons_self _ _)).1, hstack, hitems⟩, hall⟩⟩

theorem readVector_vin_sizesWithin {bs rest : List UInt8} {vin : List CTxIn}
    (h : readVector c.readCompactSize (CTxIn.deserialize c) bs = some (vin, rest)) :
    vin.length ≤ c.maxSize ∧ ∀ txin ∈ vin, txin.SizesWithin c.maxSize :=
  readVector_spec c.readCompactSize c.le_maxSize_of_readCompactSize
    (CTxIn.deserialize_sizesWithin c) h

theorem readVector_vout_sizesWithin {bs rest : List UInt8} {vout : List CTxOut}
    (h : readVector c.readCompactSize (CTxOut.deserialize c) bs = some (vout, rest)) :
    vout.length ≤ c.maxSize ∧ ∀ txout ∈ vout, txout.scriptPubKey.length ≤ c.maxSize :=
  readVector_spec c.readCompactSize c.le_maxSize_of_readCompactSize
    (CTxOut.deserialize_sizesWithin c) h

theorem readTxBody_spec {bs rest : List UInt8} {flags : UInt8} {vin : List CTxIn}
    {vout : List CTxOut} (h : readTxBody c true bs = some (flags, vin, vout, rest)) :
    (flags = 0 → vin ≠ [] ∨ vout = []) ∧ (vin.length ≤ c.maxSize ∧
      ∀ txin ∈ vin, txin.SizesWithin c.maxSize) ∧ vout.length ≤ c.maxSize ∧
      ∀ txout ∈ vout, txout.scriptPubKey.length ≤ c.maxSize := by
  obtain ⟨⟨vin₀, bs₁⟩, hvin₀, h⟩ := Option.bind_eq_some.mp h
  dsimp only at h
  split at h
  · obtain ⟨⟨flags₀, bs₂⟩, -, h⟩ := Option.bind_eq_some.mp h
    dsimp only at h
    split at h
    · obtain ⟨⟨vin₁, bs₃⟩, hvin₁, h⟩ := Option.bind_eq_some.mp h
      obtain ⟨⟨vout₁, bs₄⟩, hvout₁, h⟩ := Option.bind_eq_some.mp h
      cases h
      exact ⟨fun h0 => absurd h0 ‹_›, readVector_vin_sizesWithin c hvin₁,
        readVector_vout_sizesWithin c hvout₁⟩
    · cases h
      exact ⟨fun _ => .inr rfl, readVector_vin_sizesWithin c hvin₀, by simp, by simp⟩
  · rename_i hne
    obtain ⟨⟨vout₁, bs₂⟩, hvout₁, h⟩ := Option.bind_eq_some.mp h
    cases h
    exact ⟨fun _ => .inl (by simpa using hne), readVector_vin_sizesWithin c hvin₀,
      readVector_vout_sizesWithin c hvout₁⟩

theorem readTxWitness_spec {flags flags' : UInt8} {vin vin' : List CTxIn} {bs rest : List UInt8}
    (h : readTxWitness c true flags vin bs = some (flags', vin', rest))
    (hvin : ∀ txin ∈ vin, txin.SizesWithin c.maxSize) :
    (flags' = flags ∧ vin' = vin) ∨
      (vin' ≠ [] ∧ vin'.length = vin.length ∧ ∀ txin ∈ vin', txin.SizesWithin c.maxSize) := by
  unfold readTxWitness at h
  split at h
  · split at h
    · cases h
    · rename_i vin₁ bs₁ hw
      split at h
      · cases h
        obtain ⟨hlen, hall⟩ := readWitnesses_sizesWithin c hw hvin
        refine .inr ⟨?_, hlen, hall⟩
        rintro rfl
        simp_all [hasWitness]
      · cases h
  · cases h
    exact .inl ⟨rfl, rfl⟩

theorem CTransaction.deserialize_readable {bs rest : List UInt8} {tx : CTransaction}
    (h : CTransaction.deserialize c true bs = some (tx, rest)) : tx.Readable c.maxSize := by
  obtain ⟨⟨nVersion, bs₁⟩, -, h⟩ := Option.bind_eq_some.mp h
  obtain ⟨⟨flags, vin, vout, bs₂⟩, hbody, h⟩ := Option.bind_eq_some.mp h
  obtain ⟨⟨flags', vin', bs₃⟩, hwit, h⟩ := Option.bind_eq_some.mp h
  dsimp only at h
  split at h
  · cases h
  rename_i hflags
  obtain ⟨⟨nLockTime, bs₄⟩, -, h⟩ := Option.bind_eq_some.mp h
  cases h
  obtain ⟨hunamb, ⟨hvin, hins⟩, hvout, houts⟩ := readTxBody_spec c hbody
  rcases readTxWitness_spec c hwit hins with ⟨rfl, rfl⟩ | ⟨hne, hlen, hall⟩
  · exact ⟨hunamb (not_not.mp hflags), hvin, hvout, hins, houts⟩
  · exact ⟨.inl hne, hlen ▸ hvin, hvout, hall, houts⟩

end Transaction

/-! ## Headers, proofs and blocks -/

/-- Every transaction of the block, the proof's coinbase included, is readable, and the block's
other vectors (`vtx` and the proof's two branches) have at most `m` elements. -/
def CBlock.Readable (m : Nat) (block : CBlock) : Prop :=
  block.vtx.length ≤ m ∧ (∀ tx ∈ block.vtx, tx.Readable m) ∧
    ∀ auxpow ∈ block.m_auxpow, auxpow.vMerkleBranch.length ≤ m ∧
      auxpow.vChainMerkleBranch.length ≤ m ∧ ∀ tx ∈ auxpow.coinbaseTx, tx.Readable m

instance (m : Nat) (block : CBlock) : Decidable (block.Readable m) :=
  inferInstanceAs (Decidable (_ ∧ _))

section Block

variable (c : Codec) (Hash : List UInt8 → Uint256)

def CBlockHeader.deserialize (bs : List UInt8) : Option (CBlockHeader × List UInt8) := do
  let (nVersion, bs) ← c.readInt32 bs
  let (hashPrevBlock, bs) ← c.readUint256 bs
  let (hashMerkleRoot, bs) ← c.readUint256 bs
  let (nTime, bs) ← c.readUint32 bs
  let (nBits, bs) ← c.readUint32 bs
  let (nNonce, bs) ← c.readUint32 bs
  pure (⟨nVersion, hashPrevBlock, hashMerkleRoot, nTime, nBits, nNonce⟩, bs)

@[simp] theorem CBlockHeader.deserialize_serialize (h : CBlockHeader) (rest : List UInt8) :
    CBlockHeader.deserialize c (h.serialize c.toWriter ++ rest) = some (h, rest) := by
  simp only [CBlockHeader.deserialize, CBlockHeader.serialize, List.append_assoc,
    Codec.readInt32_int32, Codec.readUint256_uint256, Codec.readUint32_uint32, Option.pure_def,
    Option.bind_eq_bind, Option.some_bind]

/-- `CAuxPow::SerializationOp` writing. `coinbaseTx` is written through its pointer: `none`
for a null `CTransactionRef`, whose dereference is undefined. -/
def CAuxPow.serialize (w : Writer) (auxpow : CAuxPow) : Option (List UInt8) :=
  auxpow.coinbaseTx.map fun tx =>
    tx.serialize w true ++ w.uint256 auxpow.hashBlock ++
      writeVector w.compactSize w.uint256 auxpow.vMerkleBranch ++ w.int32 auxpow.nIndex ++
      writeVector w.compactSize w.uint256 auxpow.vChainMerkleBranch ++
      w.int32 auxpow.nChainIndex ++ auxpow.parentBlock.serialize w

def CAuxPow.deserialize (bs : List UInt8) : Option (CAuxPow × List UInt8) := do
  let (coinbaseTx, bs) ← CTransaction.deserialize c true bs
  let (hashBlock, bs) ← c.readUint256 bs
  let (vMerkleBranch, bs) ← readVector c.readCompactSize c.readUint256 bs
  let (nIndex, bs) ← c.readInt32 bs
  let (vChainMerkleBranch, bs) ← readVector c.readCompactSize c.readUint256 bs
  let (nChainIndex, bs) ← c.readInt32 bs
  let (parentBlock, bs) ← CBlockHeader.deserialize c bs
  pure (⟨some coinbaseTx, hashBlock, vMerkleBranch, nIndex, vChainMerkleBranch, nChainIndex,
    parentBlock⟩, bs)

theorem CAuxPow.deserialize_serialize {auxpow : CAuxPow} {bytes : List UInt8}
    (h : auxpow.serialize c.toWriter = some bytes) (hm : auxpow.vMerkleBranch.length ≤ c.maxSize)
    (hc : auxpow.vChainMerkleBranch.length ≤ c.maxSize)
    (htx : ∀ tx ∈ auxpow.coinbaseTx, tx.Readable c.maxSize) (rest : List UInt8) :
    CAuxPow.deserialize c (bytes ++ rest) = some (auxpow, rest) := by
  obtain ⟨tx, htx', rfl⟩ := Option.map_eq_some'.mp h
  have hv := @readVector_writeVector _ c.readCompactSize c.readUint256 c.uint256 _ _
    c.readCompactSize_compactSize
  simp only [CAuxPow.deserialize, List.append_assoc,
    CTransaction.deserialize_serialize c tx (htx tx htx'), Codec.readUint256_uint256,
    Codec.readInt32_int32, hv _ hm c.readUint256_uint256, hv _ hc c.readUint256_uint256,
    CBlockHeader.deserialize_serialize, ← htx', Option.pure_def, Option.bind_eq_bind,
    Option.some_bind]

/-- `CBlock::SerializationOp` writing: the header, the proof when the version carries the
AuxPoW bit, then `vtx`. With the bit set and no proof the code writes a fresh `CAuxPow`, whose
`coinbaseTx` is null; with the bit clear no proof is written. -/
def CBlock.serialize (w : Writer) (block : CBlock) : Option (List UInt8) := do
  let auxpow ←
    if block.isAuxpow then
      match block.m_auxpow with
      | some auxpow => auxpow.serialize w
      | none => none
    else some []
  pure (block.toCBlockHeader.serialize w ++ auxpow ++
    writeVector w.compactSize (CTransaction.serialize w true) block.vtx)

/-- The proof slot of `CBlock::SerializationOp` reading, after the header `header`: a proof
when its version carries the AuxPoW bit, reset when the proof's parent header hash
`IsNull()`. -/
def CBlock.deserializeAuxPow (header : CBlockHeader) (bs : List UInt8) :
    Option (Option CAuxPow × List UInt8) :=
  if header.isAuxpow then
    (CAuxPow.deserialize c bs).map fun (auxpow, bs) =>
      (if (auxpow.getParentBlockHash c.toWriter Hash).isNull then none else some auxpow, bs)
  else some (none, bs)

def CBlock.deserialize (bs : List UInt8) : Option (CBlock × List UInt8) := do
  let (header, bs) ← CBlockHeader.deserialize c bs
  let (m_auxpow, bs) ← CBlock.deserializeAuxPow c Hash header bs
  let (vtx, bs) ← readVector c.readCompactSize (CTransaction.deserialize c true) bs
  pure ({ toCBlockHeader := header, vtx := vtx, m_auxpow := m_auxpow }, bs)

theorem CBlock.deserializeAuxPow_of_isAuxpow_false {header : CBlockHeader}
    (h : header.isAuxpow = false) (bs : List UInt8) :
    CBlock.deserializeAuxPow c Hash header bs = some (none, bs) := by
  simp [CBlock.deserializeAuxPow, h]

theorem CBlock.deserialize_of_serialize {block : CBlock} {bytes : List UInt8}
    (hslot : block.m_auxpow.isSome = block.isAuxpow)
    (hparent : ∀ auxpow ∈ block.m_auxpow, (auxpow.getParentBlockHash c.toWriter Hash).isNull = false)
    (hread : block.Readable c.maxSize) (h : block.serialize c.toWriter = some bytes)
    (rest : List UInt8) :
    CBlock.deserialize c Hash (bytes ++ rest) = some (block, rest) := by
  obtain ⟨hlen, hvtx, haux⟩ := hread
  have hv := readVector_writeVector_map c.readCompactSize (f := id) c.readCompactSize_compactSize
    block.vtx hlen fun tx htx => CTransaction.deserialize_serialize c tx (hvtx tx htx)
  rw [List.map_id] at hv
  obtain ⟨header, vtx, m_auxpow⟩ := block
  cases hbit : header.isAuxpow with
  | false =>
    obtain rfl : m_auxpow = none := by simpa [hbit] using hslot
    simp only [CBlock.serialize, hbit] at h
    obtain rfl := (Option.some.inj h).symm
    simp only [CBlock.deserialize, List.append_nil, List.append_assoc,
      CBlockHeader.deserialize_serialize, Option.pure_def, Option.bind_eq_bind, Option.some_bind,
      CBlock.deserializeAuxPow_of_isAuxpow_false c Hash hbit, hv]
  | true =>
    obtain ⟨auxpow, rfl⟩ := Option.isSome_iff_exists.mp (hslot.trans hbit)
    simp only [CBlock.serialize, hbit, if_true] at h
    obtain ⟨aux, haux', h⟩ := Option.bind_eq_some.mp h
    obtain rfl := (Option.some.inj h).symm
    obtain ⟨hm, hc, htx⟩ := haux auxpow rfl
    have hd := CAuxPow.deserialize_serialize c haux' hm hc htx
    simp only [CBlock.deserialize, List.append_assoc, CBlockHeader.deserialize_serialize,
      CBlock.deserializeAuxPow, Option.pure_def, Option.bind_eq_bind, Option.some_bind, hbit,
      ↓reduceIte, hd, Option.map_some', hparent auxpow rfl, Bool.false_eq_true, hv]

theorem CBlock.deserialize_m_auxpow {bs rest : List UInt8} {block : CBlock}
    (h : CBlock.deserialize c Hash bs = some (block, rest)) (hbit : block.isAuxpow = false) :
    block.m_auxpow = none := by
  unfold CBlock.deserialize at h
  obtain ⟨⟨header, bs₁⟩, -, h⟩ := Option.bind_eq_some.mp h
  obtain ⟨⟨m_auxpow, bs₂⟩, hslot, h⟩ := Option.bind_eq_some.mp h
  obtain ⟨⟨vtx, bs₃⟩, -, h⟩ := Option.bind_eq_some.mp h
  cases h
  rw [CBlock.deserializeAuxPow_of_isAuxpow_false c Hash hbit] at hslot
  cases hslot
  rfl

theorem CAuxPow.deserialize_spec {bs bs' : List UInt8} {auxpow : CAuxPow}
    (h : CAuxPow.deserialize c bs = some (auxpow, bs')) :
    auxpow.coinbaseTx.isSome ∧ auxpow.vMerkleBranch.length ≤ c.maxSize ∧
      auxpow.vChainMerkleBranch.length ≤ c.maxSize ∧ ∀ tx ∈ auxpow.coinbaseTx, tx.Readable c.maxSize := by
  obtain ⟨⟨tx, bs₁⟩, htx, h⟩ := Option.bind_eq_some.mp h
  obtain ⟨⟨hashBlock, bs₂⟩, -, h⟩ := Option.bind_eq_some.mp h
  obtain ⟨⟨vMerkleBranch, bs₃⟩, hm, h⟩ := Option.bind_eq_some.mp h
  obtain ⟨⟨nIndex, bs₄⟩, -, h⟩ := Option.bind_eq_some.mp h
  obtain ⟨⟨vChainMerkleBranch, bs₅⟩, hc, h⟩ := Option.bind_eq_some.mp h
  obtain ⟨⟨nChainIndex, bs₆⟩, -, h⟩ := Option.bind_eq_some.mp h
  obtain ⟨⟨parentBlock, bs₇⟩, -, h⟩ := Option.bind_eq_some.mp h
  cases h
  have hlen := @readVector_spec _ c.readCompactSize c.readUint256 c.maxSize (fun _ => True)
    c.le_maxSize_of_readCompactSize (fun _ => trivial)
  exact ⟨rfl, (hlen hm).1, (hlen hc).1, fun t ht => by
    cases Option.mem_some_iff.mp ht
    exact CTransaction.deserialize_readable c htx⟩

theorem CBlock.deserialize_spec {bs rest : List UInt8} {block : CBlock}
    (h : CBlock.deserialize c Hash bs = some (block, rest)) :
    block.Readable c.maxSize ∧ ∀ auxpow ∈ block.m_auxpow, auxpow.coinbaseTx.isSome ∧
      (auxpow.getParentBlockHash c.toWriter Hash).isNull = false := by
  obtain ⟨⟨header, bs₁⟩, -, h⟩ := Option.bind_eq_some.mp h
  obtain ⟨⟨m_auxpow, bs₂⟩, hslot, h⟩ := Option.bind_eq_some.mp h
  obtain ⟨⟨vtx, bs₃⟩, hvtx, h⟩ := Option.bind_eq_some.mp h
  cases h
  have haux : ∀ auxpow ∈ m_auxpow, (auxpow.coinbaseTx.isSome ∧
      auxpow.vMerkleBranch.length ≤ c.maxSize ∧ auxpow.vChainMerkleBranch.length ≤ c.maxSize ∧
      ∀ tx ∈ auxpow.coinbaseTx, tx.Readable c.maxSize) ∧
      (auxpow.getParentBlockHash c.toWriter Hash).isNull = false := by
    intro auxpow hm
    unfold CBlock.deserializeAuxPow at hslot
    split_ifs at hslot
    · obtain ⟨⟨aux, bs₄⟩, haux, hslot⟩ := Option.map_eq_some'.mp hslot
      simp only [Prod.mk.injEq] at hslot
      obtain ⟨rfl, -⟩ := hslot
      split_ifs at hm with hnull
      · cases hm
      · cases hm
        exact ⟨CAuxPow.deserialize_spec c haux, by simpa using hnull⟩
    · cases hslot
      cases hm
  obtain ⟨hlen, hall⟩ := readVector_spec c.readCompactSize c.le_maxSize_of_readCompactSize
    (CTransaction.deserialize_readable c) hvtx
  exact ⟨⟨hlen, hall, fun a ha => (haux a ha).1.2⟩, fun a ha => ⟨(haux a ha).1.1, (haux a ha).2⟩⟩

theorem CBlock.serialize_isSome (w : Writer) {block : CBlock}
    (hslot : block.m_auxpow.isSome = block.isAuxpow)
    (hcoinbase : ∀ auxpow ∈ block.m_auxpow, auxpow.coinbaseTx.isSome) :
    (block.serialize w).isSome := by
  cases hbit : block.isAuxpow with
  | false => simp [CBlock.serialize, hbit]
  | true =>
    obtain ⟨auxpow, hm⟩ := Option.isSome_iff_exists.mp (hslot.trans hbit)
    obtain ⟨tx, htx⟩ := Option.isSome_iff_exists.mp (hcoinbase auxpow hm)
    simp [CBlock.serialize, hbit, hm, CAuxPow.serialize, htx]

theorem CBlock.serialize_deserialize_roundTrip (block : CBlock)
    (hslot : block.m_auxpow.isSome = block.isAuxpow)
    (hcoinbase : ∀ auxpow ∈ block.m_auxpow, auxpow.coinbaseTx.isSome)
    (hparent : ∀ auxpow ∈ block.m_auxpow, (auxpow.getParentBlockHash c.toWriter Hash).isNull = false)
    (hread : block.Readable c.maxSize) :
    (∃ bytes, block.serialize c.toWriter = some bytes ∧
      ∀ rest, CBlock.deserialize c Hash (bytes ++ rest) = some (block, rest)) ∧
    ∀ bs block' rest, CBlock.deserialize c Hash bs = some (block', rest) →
      block'.isAuxpow = false → block'.m_auxpow = none := by
  obtain ⟨bytes, h⟩ := Option.isSome_iff_exists.mp (CBlock.serialize_isSome c.toWriter hslot hcoinbase)
  exact ⟨⟨bytes, h, CBlock.deserialize_of_serialize c Hash hslot hparent hread h⟩,
    fun _ _ _ => CBlock.deserialize_m_auxpow c Hash⟩

end Block

/-! ## A little-endian codec

Integers as their little-endian bytes, a `uint256` as its 32 bytes, and sizes as base-128
varints up to `MAX_SIZE`. -/

def readLE (n : Nat) (bs : List UInt8) : Option (Nat × List UInt8) :=
  if n ≤ bs.length then some (leValue (bs.take n), bs.drop n) else none

theorem readLE_leBytes (n x : Nat) (rest : List UInt8) :
    readLE n (leBytes n x ++ rest) = some (x % 256 ^ n, rest) := by
  simp [readLE, length_leBytes, List.take_left', List.drop_left', leValue_leBytes]

/-- A base-128 varint, low group first, a set high bit marking that more bytes follow; `fuel`
bounds the number of bytes. -/
def varIntN : Nat → Nat → List UInt8
  | 0, n => [UInt8.ofNat n]
  | fuel + 1, n =>
    if n < 128 then [UInt8.ofNat n] else UInt8.ofNat (n % 128 + 128) :: varIntN fuel (n / 128)

def varInt (n : Nat) : List UInt8 := varIntN n n

def readVarInt : List UInt8 → Option (Nat × List UInt8)
  | [] => none
  | b :: bs =>
    if b.toNat < 128 then some (b.toNat, bs)
    else (readVarInt bs).map fun (m, rest) => (b.toNat - 128 + 128 * m, rest)

theorem readVarInt_varIntN (fuel n : Nat) (h : n < 128 ^ (fuel + 1)) (rest : List UInt8) :
    readVarInt (varIntN fuel n ++ rest) = some (n, rest) := by
  induction fuel generalizing n with
  | zero =>
    have hn : (UInt8.ofNat n).toNat = n := toNat_ofNat_of_lt_256 (by simp at h; omega)
    simp [varIntN, readVarInt, hn, show n < 128 by simpa using h]
  | succ fuel ih =>
    by_cases hn : n < 128
    · have hb : (UInt8.ofNat n).toNat = n := toNat_ofNat_of_lt_256 (by omega)
      simp [varIntN, readVarInt, hn, hb]
    · have hb : (UInt8.ofNat (n % 128 + 128)).toNat = n % 128 + 128 :=
        toNat_ofNat_of_lt_256 (by omega)
      have hq : n / 128 < 128 ^ (fuel + 1) :=
        (Nat.div_lt_iff_lt_mul (by norm_num)).mpr (by rwa [← pow_succ])
      simp only [varIntN, if_neg hn, List.cons_append, readVarInt, hb, ih _ hq]
      simp only [Option.map_some', if_neg (by omega : ¬ n % 128 + 128 < 128)]
      congr 2
      omega

theorem readVarInt_varInt (n : Nat) (rest : List UInt8) :
    readVarInt (varInt n ++ rest) = some (n, rest) :=
  readVarInt_varIntN n n ((Nat.lt_pow_self (by norm_num) n).trans
    (Nat.pow_lt_pow_right (by norm_num) (Nat.lt_succ_self n))) rest

/-- Reading a size: a varint, refused above `MAX_SIZE`. -/
def readCompactSizeLE (bs : List UInt8) : Option (Nat × List UInt8) :=
  (readVarInt bs).bind fun (n, rest) => if n ≤ 0x02000000 then some (n, rest) else none

def leCodec : Codec where
  int32 v := leBytes 4 v.toNat
  uint32 v := leBytes 4 v.toNat
  int64 v := leBytes 8 v.toNat
  uint256 v := v.data
  compactSize := varInt
  maxSize := 0x02000000
  readInt32 bs := (readLE 4 bs).map fun (x, rest) => (BitVec.ofNat 32 x, rest)
  readUint32 bs := (readLE 4 bs).map fun (x, rest) => (UInt32.ofNat x, rest)
  readInt64 bs := (readLE 8 bs).map fun (x, rest) => (BitVec.ofNat 64 x, rest)
  readUint256 bs :=
    if h : 32 ≤ bs.length then some (⟨bs.take 32, by simp; omega⟩, bs.drop 32) else none
  readCompactSize := readCompactSizeLE
  readInt32_int32 v rest := by
    have := v.isLt
    simp only [readLE_leBytes, Option.map_some']
    congr
    exact BitVec.eq_of_toNat_eq (by simp; omega)
  readUint32_uint32 v rest := by
    have := v.toNat_lt_size
    simp only [readLE_leBytes, Option.map_some']
    congr
    exact UInt32.toNat.inj (by rw [UInt32.toNat_ofNat_of_lt (by omega)]; simp [UInt32.size] at *; omega)
  readInt64_int64 v rest := by
    have := v.isLt
    simp only [readLE_leBytes, Option.map_some']
    congr
    exact BitVec.eq_of_toNat_eq (by simp; omega)
  readUint256_uint256 v rest := by
    obtain ⟨data, hdata⟩ := v
    simp [List.take_left' hdata, List.drop_left' hdata, hdata]
  readCompactSize_compactSize n hn rest := by
    simp [readCompactSizeLE, readVarInt_varInt, hn]
  le_maxSize_of_readCompactSize h := by
    obtain ⟨⟨n, rest⟩, -, h⟩ := Option.bind_eq_some.mp h
    dsimp only at h
    split_ifs at h with hn
    cases h
    exact hn
  compactSize_zero := rfl

def inputTx (scriptSig : List UInt8) : CTransaction :=
  ⟨1, [⟨⟨Uint256.zero, 0xffffffff⟩, scriptSig, 0xffffffff, []⟩], [], 0⟩

def auxBlock : CBlock where
  nVersion := 0x107
  hashPrevBlock := Uint256.zero
  hashMerkleRoot := Uint256.zero
  nTime := 1231006505
  nBits := 0x1d00ffff
  nNonce := 0
  vtx := [inputTx [0x70, 0x6c, 0x6d, 0x01]]
  m_auxpow := some ⟨some (inputTx [0x70, 0x6c, 0x6d, 0x01]), Uint256.zero, [Uint256.zero], 0, [],
    0, ⟨1, Uint256.zero, Uint256.zero, 1231006505, 0x1d00ffff, 0⟩⟩

theorem serialize_deserialize_roundTrip_auxBlock :
    (∃ bytes, auxBlock.serialize leCodec.toWriter = some bytes ∧
      ∀ rest, CBlock.deserialize leCodec (fun _ => ⟨leBytes 32 1, length_leBytes 32 1⟩)
        (bytes ++ rest) = some (auxBlock, rest)) ∧
    ∀ bs block' rest, CBlock.deserialize leCodec (fun _ => ⟨leBytes 32 1, length_leBytes 32 1⟩)
        bs = some (block', rest) → block'.isAuxpow = false → block'.m_auxpow = none :=
  CBlock.serialize_deserialize_roundTrip leCodec _ auxBlock (by decide) (by rintro _ ⟨⟩; rfl)
    (by rintro _ ⟨⟩; decide) (by decide)

def emptyVinBlock : CBlock where
  nVersion := 1
  hashPrevBlock := Uint256.zero
  hashMerkleRoot := Uint256.zero
  nTime := 1231006505
  nBits := 0x1d00ffff
  nNonce := 0
  vtx := [⟨1, [], [⟨0, []⟩], 0⟩]
  m_auxpow := none

/-- The transaction is written `01000000 00 01 0000000000000000 00 00000000`. Read with
witnesses allowed, its empty `vin` and output count are taken for `vinDummy` and the flag 1,
the value's first two bytes for an empty `vin` and `vout`, and the witness record, which holds
no stack, is superfluous: the block does not read back. -/
theorem CBlock.deserialize_serialize_emptyVin :
    emptyVinBlock.m_auxpow.isSome = emptyVinBlock.isAuxpow ∧
      ∃ bytes, emptyVinBlock.serialize leCodec.toWriter = some bytes ∧
        ∀ Hash, CBlock.deserialize leCodec Hash bytes = none :=
  ⟨rfl, _, rfl, fun _ => rfl⟩

end Palladium
