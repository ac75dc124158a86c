import Mathlib.Data.List.Nodup

set_option autoImplicit false

namespace Allocator

structure Heap where
  live : List Nat
  next : Nat
  distinct : live.Nodup
  bounded : ∀ block ∈ live, block < next

namespace Heap

def empty : Heap where
  live := []
  next := 0
  distinct := List.nodup_nil
  bounded := by simp

def allocate (heap : Heap) : Nat × Heap :=
  (heap.next,
    { live := heap.next :: heap.live
      next := heap.next + 1
      distinct := List.nodup_cons.mpr
        ⟨fun member => Nat.lt_irrefl _ (heap.bounded _ member), heap.distinct⟩
      bounded := by
        intro block member
        rcases List.mem_cons.mp member with rfl | older
        · exact Nat.lt_succ_self _
        · exact Nat.lt_succ_of_lt (heap.bounded block older) })

def release (heap : Heap) (block : Nat) : Option Heap :=
  if block ∈ heap.live then
    some
      { live := heap.live.erase block
        next := heap.next
        distinct := heap.distinct.erase block
        bounded := fun other member => heap.bounded other (List.mem_of_mem_erase member) }
  else none

def Owns (heap : Heap) (blocks : List Nat) : Prop := heap.live.Perm blocks

variable {heap : Heap} {block : Nat} {blocks others : List Nat}

theorem owns_empty : empty.Owns [] := .nil

theorem Owns.perm (owns : heap.Owns blocks) (reordered : blocks.Perm others) : heap.Owns others :=
  List.Perm.trans owns reordered

theorem Owns.bounded (owns : heap.Owns blocks) (member : block ∈ blocks) : block < heap.next :=
  heap.bounded block (owns.mem_iff.mpr member)

theorem Owns.allocate (owns : heap.Owns blocks) :
    heap.allocate.2.Owns (heap.allocate.1 :: blocks) :=
  List.Perm.cons _ owns

theorem Owns.release (owns : heap.Owns (block :: blocks)) :
    ∃ after, heap.release block = some after ∧ after.Owns blocks ∧ after.next = heap.next := by
  have live : block ∈ heap.live := owns.mem_iff.mpr (by simp)
  refine ⟨_, if_pos live, ?_, rfl⟩
  have erased := owns.erase block
  rwa [List.erase_cons_head] at erased

end Heap

end Allocator
