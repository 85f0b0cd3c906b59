import Mathlib
import Palladium.Params

/-!
# Block indexes

A `CBlockIndex*` as the difficulty engine sees it: the block it points to and the branch
behind it, so that `pprev` and `GetAncestor` are positions in a list whose index is the
height.
-/

namespace Palladium

/-- The fields of a `CBlockIndex` the modelled code reads. -/
structure CBlockIndex where
  nTime : UInt32
  nBits : UInt32
  nChainWork : Nat
  deriving DecidableEq

def CBlockIndex.getBlockTime (b : CBlockIndex) : Int := b.nTime.toNat

/-- A block index with the branch behind it: `ancestors` are the blocks at heights
`0 .. nHeight - 1`, genesis first. -/
structure Chain where
  ancestors : List CBlockIndex
  tip : CBlockIndex

namespace Chain

def nHeight (c : Chain) : Nat := c.ancestors.length

def blocks (c : Chain) : List CBlockIndex := c.ancestors ++ [c.tip]

/-- `GetAncestor(height)`: null below 0 and above the block itself. -/
def getAncestor (c : Chain) (height : Int) : Option CBlockIndex :=
  if height < 0 then none else c.blocks[height.toNat]?

/-- `pprev`, as the branch ending one block lower. -/
def pprev (c : Chain) : Option Chain :=
  c.ancestors.getLast?.map (⟨c.ancestors.dropLast, ·⟩)

def push (c : Chain) (b : CBlockIndex) : Chain := ⟨c.blocks, b⟩

@[simp] theorem length_blocks (c : Chain) : c.blocks.length = c.nHeight + 1 := by
  simp [blocks, nHeight]

@[simp] theorem nHeight_push (c : Chain) (b : CBlockIndex) :
    (c.push b).nHeight = c.nHeight + 1 := by
  simp [push, nHeight]

@[simp] theorem tip_push (c : Chain) (b : CBlockIndex) : (c.push b).tip = b := rfl

theorem blocks_push (c : Chain) (b : CBlockIndex) : (c.push b).blocks = c.blocks ++ [b] := rfl

theorem mem_blocks_push {c : Chain} {b x : CBlockIndex} :
    x ∈ (c.push b).blocks ↔ x ∈ c.blocks ∨ x = b := by
  simp [blocks_push]

theorem getElem_blocks_push_of_lt {c : Chain} {b : CBlockIndex} {i : Nat}
    (hi : i < c.blocks.length) {h : i < (c.push b).blocks.length} :
    (c.push b).blocks[i] = c.blocks[i] :=
  List.getElem_append_left hi

@[simp] theorem getElem_blocks_push_nHeight_succ {c : Chain} {b : CBlockIndex}
    {h : c.nHeight + 1 < (c.push b).blocks.length} : (c.push b).blocks[c.nHeight + 1] = b :=
  List.getElem_concat_length _ _ _ (length_blocks c).symm _

@[simp] theorem getElem_blocks_nHeight (c : Chain) {h : c.nHeight < c.blocks.length} :
    c.blocks[c.nHeight] = c.tip :=
  List.getElem_concat_length _ _ _ rfl _

@[simp] theorem getAncestor_natCast (c : Chain) (height : Nat) :
    c.getAncestor height = c.blocks[height]? := by
  simp [getAncestor]

theorem getAncestor_nHeight (c : Chain) : c.getAncestor c.nHeight = some c.tip := by
  simp [getAncestor, blocks, nHeight]

theorem getAncestor_push_of_le {c : Chain} {b : CBlockIndex} {height : Int}
    (h : height ≤ c.nHeight) : (c.push b).getAncestor height = c.getAncestor height := by
  unfold getAncestor
  split
  · rfl
  · rw [blocks_push, List.getElem?_append_left (by simp; omega)]

theorem getAncestor_mem {c : Chain} {height : Int} {b : CBlockIndex}
    (h : c.getAncestor height = some b) : b ∈ c.blocks := by
  unfold getAncestor at h
  split at h
  · cases h
  · exact List.mem_iff_getElem?.mpr ⟨_, h⟩

theorem tip_mem_blocks (c : Chain) : c.tip ∈ c.blocks := by simp [blocks]

theorem getAncestor_isSome {c : Chain} {height : Int} (h0 : 0 ≤ height)
    (hn : height ≤ c.nHeight) : ∃ b, c.getAncestor height = some b := by
  rw [getAncestor, if_neg (by omega)]
  exact ⟨_, List.getElem?_eq_getElem (by simp; omega)⟩

end Chain

end Palladium
