import Mathlib
import Palladium.Uint256

/-!
# Merkle branches

`ComputeMerkleRootFromBranch` climbs from a leaf to a root: at each level the low bit of the
index says on which side the sibling sits. `consensus/merkle.cpp`, which builds the tree, is
not among the sources, so its Bitcoin pairing rule is written here from the spec, with a
leaf's branch the siblings on its path. The verifier recovers the root from every leaf of
every tree, odd levels included.
-/

namespace Palladium

section Merkle

variable (Hash : List UInt8 → Uint256)

/-- `Hash(BEGIN(a), END(a), BEGIN(b), END(b))`: the hash of the 64 bytes `a || b`. -/
def hashPair (a b : Uint256) : Uint256 := Hash (a.data ++ b.data)

/-- `ComputeMerkleRootFromBranch`. On the `int` index, `nIndex & 1` is `nIndex % 2` and
`nIndex >>= 1` is `nIndex / 2`, rounding down. -/
def computeMerkleRootFromBranch : Uint256 → List Uint256 → Int → Uint256
  | currentHash, [], _ => currentHash
  | currentHash, step :: vMerkleBranch, nIndex =>
    computeMerkleRootFromBranch
      (if nIndex % 2 = 1 then hashPair Hash step currentHash else hashPair Hash currentHash step)
      vMerkleBranch (nIndex / 2)

/-- Modelled from the spec: one level of the Bitcoin pairing rule, adjacent nodes paired and
an odd last node paired with itself. -/
def merkleLevel : List Uint256 → List Uint256
  | [] => []
  | [a] => [hashPair Hash a a]
  | a :: b :: rest => hashPair Hash a b :: merkleLevel rest

theorem length_merkleLevel (L : List Uint256) :
    (merkleLevel Hash L).length = (L.length + 1) / 2 := by
  induction L using merkleLevel.induct Hash with
  | case1 => simp [merkleLevel]
  | case2 a => simp [merkleLevel]
  | case3 a b rest ih =>
    simp only [merkleLevel, List.length_cons, ih]
    omega

/-- Modelled from the spec: the Merkle root of the leaves `L` under the Bitcoin pairing rule;
`uint256()` for no leaves. -/
def merkleRoot (L : List Uint256) : Uint256 :=
  match L with
  | [] => Uint256.zero
  | [a] => a
  | a :: b :: rest => merkleRoot (merkleLevel Hash (a :: b :: rest))
termination_by L.length
decreasing_by simp only [length_merkleLevel, List.length_cons]; omega

def merkleSibling (L : List Uint256) (i : Nat) : Uint256 :=
  if i % 2 = 0 then L.getD (i + 1) (L.getD i Uint256.zero) else L.getD (i - 1) Uint256.zero

/-- Modelled from the spec: `branch(L, i)`, the siblings on leaf `i`'s path to the root. -/
def merkleBranch (L : List Uint256) (i : Nat) : List Uint256 :=
  match L with
  | [] => []
  | [_] => []
  | a :: b :: rest =>
    merkleSibling (a :: b :: rest) i :: merkleBranch (merkleLevel Hash (a :: b :: rest)) (i / 2)
termination_by L.length
decreasing_by simp only [length_merkleLevel, List.length_cons]; omega

theorem getD_merkleLevel (L : List Uint256) (i : Nat) (hi : i < L.length) :
    (merkleLevel Hash L).getD (i / 2) Uint256.zero =
      if i % 2 = 0 then hashPair Hash (L.getD i Uint256.zero) (merkleSibling L i)
      else hashPair Hash (merkleSibling L i) (L.getD i Uint256.zero) := by
  induction L using merkleLevel.induct Hash generalizing i with
  | case1 => simp at hi
  | case2 a =>
    obtain rfl : i = 0 := by simpa using hi
    rfl
  | case3 a b rest ih =>
    match i, hi with
    | 0, _ => rfl
    | 1, _ => rfl
    | j + 2, hj =>
      have h := ih j (by simp at hj; omega)
      rw [show (j + 2) / 2 = j / 2 + 1 by omega, merkleLevel, List.getD_cons_succ, h]
      rcases Nat.mod_two_eq_zero_or_one j with hj2 | hj2
      · simp [merkleSibling, hj2, Nat.add_mod]
      · obtain ⟨k, rfl⟩ : ∃ k, j = k + 1 := ⟨j - 1, by omega⟩
        simp [merkleSibling, hj2, Nat.add_mod]

theorem computeMerkleRootFromBranch_cons_sibling (L : List Uint256) (i : Nat) (hi : i < L.length)
    (rest : List Uint256) :
    computeMerkleRootFromBranch Hash (L.getD i Uint256.zero) (merkleSibling L i :: rest) i =
      computeMerkleRootFromBranch Hash ((merkleLevel Hash L).getD (i / 2) Uint256.zero) rest
        ((i / 2 : Nat) : Int) := by
  rw [computeMerkleRootFromBranch, getD_merkleLevel Hash L i hi,
    show ((i : Int) / 2) = ((i / 2 : Nat) : Int) by omega]
  rcases Nat.mod_two_eq_zero_or_one i with h | h
  · rw [if_neg (by omega), if_pos h]
  · rw [if_pos (by omega), if_neg (by omega)]

theorem computeMerkleRootFromBranch_getD (L : List Uint256) (i : Nat) (hi : i < L.length) :
    computeMerkleRootFromBranch Hash (L.getD i Uint256.zero) (merkleBranch Hash L i) i =
      merkleRoot Hash L := by
  induction L using merkleRoot.induct Hash generalizing i with
  | case1 => simp at hi
  | case2 a =>
    obtain rfl : i = 0 := by simpa using hi
    rw [merkleBranch, merkleRoot]
    rfl
  | case3 a b rest ih =>
    rw [merkleBranch, computeMerkleRootFromBranch_cons_sibling Hash _ i hi, merkleRoot,
      ih (i / 2) (by rw [length_merkleLevel]; omega)]

theorem computeMerkleRootFromBranch_merkleBranch (L : List Uint256) (i : Nat) (hi : i < L.length) :
    computeMerkleRootFromBranch Hash (L.getD i Uint256.zero) (merkleBranch Hash L i) i =
      merkleRoot Hash L :=
  computeMerkleRootFromBranch_getD Hash L i hi

end Merkle

def tableValue (k : Nat) : Uint256 := ⟨leBytes 32 k, length_leBytes 32 k⟩

/-- A hash given by a table: the `k`-th string of `table` hashes to `k + 1`, every other
string to `table.length + 1`. -/
def tableHash (table : List (List UInt8)) (bs : List UInt8) : Uint256 :=
  tableValue (@List.indexOf _ instBEqOfDecidableEq bs table + 1)

theorem tableHash_injOn (table : List (List UInt8)) (hlen : table.length < 256 ^ 32) :
    Set.InjOn (tableHash table) {bs | bs ∈ table} := by
  intro x hx y hy h
  simp only [Set.mem_setOf_eq] at hx hy
  have hx' := List.indexOf_lt_length.mpr hx
  have hy' := List.indexOf_lt_length.mpr hy
  have hv := congrArg (fun u => leValue u.data) h
  simp only [tableHash, tableValue, leValue_leBytes] at hv
  exact (List.indexOf_inj hx hy).mp (by omega)

def merkleTable : List (List UInt8) :=
  [(tableValue 10).data ++ (tableValue 11).data, (tableValue 12).data ++ (tableValue 12).data,
    (tableValue 1).data ++ (tableValue 2).data]

theorem computeMerkleRootFromBranch_merkleBranch_three :
    computeMerkleRootFromBranch (tableHash merkleTable)
        ([tableValue 10, tableValue 11, tableValue 12].getD 2 Uint256.zero)
        (merkleBranch (tableHash merkleTable) [tableValue 10, tableValue 11, tableValue 12] 2) 2 =
      merkleRoot (tableHash merkleTable) [tableValue 10, tableValue 11, tableValue 12] ∧
    merkleRoot (tableHash merkleTable) [tableValue 10, tableValue 11, tableValue 12] = tableValue 3 ∧
    Set.InjOn (tableHash merkleTable) {bs | bs ∈ merkleTable} :=
  ⟨computeMerkleRootFromBranch_merkleBranch _ _ 2 (by decide),
    by simp only [merkleRoot, merkleLevel]; decide, tableHash_injOn merkleTable (by decide)⟩

end Palladium
