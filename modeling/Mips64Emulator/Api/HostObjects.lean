import Mips64Emulator.Api.Host

set_option autoImplicit false

namespace Mips64

open Allocator

def pointed : Ptr Nat → List Nat
  | .null => []
  | .ref block => [block]

def Object.blocks (object : Object) : List Nat := pointed object.memory ++ [object.handle]

namespace Host

def reachable (host : Host) : List Nat := host.objects.flatMap Object.blocks

def Knows (host : Host) : Ptr Nat → Prop
  | .null => True
  | .ref handle => ∃ object ∈ host.objects, object.handle = handle

section Objects

variable {objects : List Object} {object : Object}
  (distinct : (objects.map Object.handle).Nodup) (member : object ∈ objects)

include distinct member

theorem object_unique {other : Object} (otherMember : other ∈ objects)
    (same : other.handle = object.handle) : other = object :=
  List.inj_on_of_nodup_map distinct otherMember member same

theorem objects_perm :
    objects.Perm (object :: objects.filter fun other => other.handle ≠ object.handle) := by
  induction objects with
  | nil => cases member
  | cons first rest ih =>
    obtain ⟨fresh, later⟩ := List.nodup_cons.mp distinct
    rcases List.mem_cons.mp member with rfl | inRest
    · have kept : rest.filter (fun other => other.handle ≠ object.handle) = rest := by
        apply List.filter_eq_self.mpr
        intro other otherMember
        have apart : other.handle ≠ object.handle := fun same =>
          fresh (same ▸ List.mem_map_of_mem otherMember)
        simpa using apart
      rw [List.filter_cons_of_neg (by simp), kept]
    · have apart : first.handle ≠ object.handle := fun same =>
        fresh (same ▸ List.mem_map_of_mem inRest)
      rw [List.filter_cons_of_pos (by simpa using apart)]
      exact ((ih later inRest).cons first).trans (.swap _ _ _)

theorem reachable_perm (heap : Heap) : ({ heap := heap, objects := objects } : Host).reachable.Perm
    (object.blocks ++
      (objects.filter fun other => other.handle ≠ object.handle).flatMap Object.blocks) :=
  (objects_perm distinct member).flatMap_right Object.blocks

end Objects

theorem find_some {host : Host} {handle : Nat} {object : Object} (found : host.find handle = some object) :
    object ∈ host.objects ∧ object.handle = handle :=
  ⟨List.mem_of_find?_eq_some found, by simpa using List.find?_some found⟩

theorem find_member {host : Host} {object : Object}
    (distinct : (host.objects.map Object.handle).Nodup) (member : object ∈ host.objects) :
    host.find object.handle = some object := by
  have found : (host.find object.handle).isSome := by
    rw [find, List.find?_isSome]
    exact ⟨object, member, by simp⟩
  obtain ⟨other, isOther⟩ := Option.isSome_iff_exists.mp found
  obtain ⟨otherMember, same⟩ := find_some isOther
  rw [isOther, object_unique distinct member otherMember same]

theorem update_distinct {host : Host} (distinct : (host.objects.map Object.handle).Nodup)
    (handle : Nat) (emulator : Emulator) :
    ((host.update handle emulator).objects.map Object.handle).Nodup := by
  have handles : (host.update handle emulator).objects.map Object.handle =
      host.objects.map Object.handle := by
    rw [update, List.map_map]
    exact List.map_congr_left fun other _ => other.follow_handle handle emulator
  exact handles ▸ distinct

section Update

variable {host : Host} (distinct : (host.objects.map Object.handle).Nodup) {object : Object}
  (member : object ∈ host.objects) (emulator : Emulator)

include distinct member

theorem mem_update {other : Object}
    (updated : other ∈ (host.update object.handle emulator).objects) :
    other = { object with emulator := emulator } ∨
      other ∈ host.objects ∧ other.handle ≠ object.handle := by
  obtain ⟨before, beforeMember, same⟩ := List.mem_map.mp updated
  by_cases called : before.handle = object.handle
  · rw [Object.follow, if_pos called] at same
    obtain rfl := object_unique distinct member beforeMember called
    exact .inl same.symm
  · rw [Object.follow, if_neg called] at same
    exact .inr (same ▸ ⟨beforeMember, called⟩)

theorem update_reachable : (host.update object.handle emulator).reachable.Perm
    ({ object with emulator := emulator : Object }.blocks ++
      (host.objects.filter fun other => other.handle ≠ object.handle).flatMap Object.blocks) := by
  let changed : Object := { object with emulator := emulator }
  have inside : changed ∈ (host.update object.handle emulator).objects :=
    List.mem_map.mpr ⟨object, member, if_pos rfl⟩
  have perm := reachable_perm (update_distinct distinct _ _) inside host.heap
  have others : (host.update object.handle emulator).objects.filter
      (fun other => other.handle ≠ changed.handle) =
        host.objects.filter fun other => other.handle ≠ object.handle := by
    rw [update, List.filter_map]
    simp only [Function.comp_def, Object.follow_handle]
    refine (List.map_congr_left fun other kept => ?_).trans (List.map_id _)
    have apart : other.handle ≠ object.handle := by simpa using (List.mem_filter.mp kept).2
    exact if_neg apart
  rw [others] at perm
  exact perm

end Update

theorem free_owned {pointer : Ptr Nat} {heap : Heap} {blocks : List Nat}
    (owns : heap.Owns (pointed pointer ++ blocks)) :
    ∃ after, free pointer heap = some after ∧ after.Owns blocks ∧ after.next = heap.next := by
  cases pointer with
  | null => exact ⟨heap, rfl, owns, rfl⟩
  | ref block => exact owns.release

section Create

variable (host : Host) (emulatorAllocated memoryAllocated : Bool) (config : Ptr Config)
  (outEmulator : Ptr (Ptr Nat))

/-- The heap aside, this is `mips64_create` on one emulator. What fails gives back what it took. -/
inductive CreateOutcome : Option (Status × Ptr (Ptr Nat) × Host) → Prop where
  | failed (status : Status) (out : Ptr (Ptr Nat)) (heap : Heap) (reported : status ≠ .ok)
      (refines : Mips64.create emulatorAllocated memoryAllocated config
        (outEmulator.map fun _ => .null) = (status, outEmulator.map fun _ => .null))
      (next : host.heap.next ≤ heap.next)
      (kept : ∀ blocks, host.heap.Owns blocks → heap.Owns blocks) :
      CreateOutcome (some (status, out, { host with heap := heap }))
  | created (emulator : Emulator)
      (refines : Mips64.create emulatorAllocated memoryAllocated config
        (outEmulator.map fun _ => .null) = (.ok, .ref (.ref emulator))) :
      CreateOutcome (some (.ok, .ref (.ref host.heap.next),
        { heap := host.heap.allocate.2.allocate.2
          objects := { handle := host.heap.next, emulator := emulator
                       block := host.heap.next + 1 } :: host.objects }))

theorem create_outcome : CreateOutcome host emulatorAllocated memoryAllocated config outEmulator
    (host.create emulatorAllocated memoryAllocated config outEmulator) := by
  have refused (status : Status) (out : Ptr (Ptr Nat)) (reported : status ≠ .ok)
      (ran : host.create emulatorAllocated memoryAllocated config outEmulator =
        some (status, out, host))
      (refines : Mips64.create emulatorAllocated memoryAllocated config
        (outEmulator.map fun _ => .null) = (status, outEmulator.map fun _ => .null)) :
      CreateOutcome host emulatorAllocated memoryAllocated config outEmulator
        (host.create emulatorAllocated memoryAllocated config outEmulator) :=
    ran ▸ .failed status out host.heap reported refines (Nat.le_refl _) fun _ owns => owns
  cases config with
  | null => exact refused .invalidArgument _ (by simp) rfl rfl
  | ref config =>
    cases outEmulator with
    | null => exact refused .invalidArgument _ (by simp) rfl rfl
    | ref out =>
      by_cases empty : config.memorySize = 0#64
      · exact refused .invalidArgument (.ref .null) (by simp) (by simp [create, empty])
          (by simp [Mips64.create, empty, Ptr.map])
      by_cases named : isValidEndian config.endian = true
      case neg =>
        exact refused .invalidArgument (.ref .null) (by simp) (by simp [create, empty, named])
          (by simp [Mips64.create, empty, named, Ptr.map])
      by_cases aligned : isInstructionAligned config.resetPc = true
      case neg =>
        exact refused .unalignedPc (.ref .null) (by simp) (by simp [create, empty, named, aligned])
          (by simp [Mips64.create, empty, named, aligned, Ptr.map])
      by_cases outside : config.resetPc > config.memorySize
      · exact refused .addressOutOfRange (.ref .null) (by simp)
          (by simp [create, empty, named, aligned, outside])
          (by simp [Mips64.create, empty, named, aligned, outside, Ptr.map])
      cases emulatorAllocated with
      | false =>
        exact refused .outOfMemory (.ref .null) (by simp)
          (by simp [create, empty, named, aligned, outside])
          (by simp [Mips64.create, empty, named, aligned, outside, Ptr.map])
      | true =>
        cases memoryAllocated with
        | false =>
          -- The block of the emulator goes back to the heap it came from.
          obtain ⟨after, released, owns, next⟩ :=
            (Heap.Owns.allocate (List.Perm.refl host.heap.live)).release
          have ran : host.create true false (.ref config) (.ref out) =
              some (.outOfMemory, .ref .null, { host with heap := after }) := by
            simp [create, empty, named, aligned, outside, calloc, free, released]
          rw [ran]
          exact .failed _ _ after (by simp)
            (by simp [Mips64.create, empty, named, aligned, outside, calloc, Ptr.map])
            (next ▸ Nat.le_succ _) fun blocks owned => owns.trans owned
        | true =>
          let emulator : Emulator :=
            { config := config
              memory := .ref (List.replicate config.memorySize.toNat 0)
              memorySize := config.memorySize
              cpu :=
                { gpr := Function.update (fun _ => 0) 0 0, pc := config.resetPc, hi := 0, lo := 0 } }
          have ran : host.create true true (.ref config) (.ref out) =
              some (.ok, .ref (.ref host.heap.next),
                { heap := host.heap.allocate.2.allocate.2
                  objects := { handle := host.heap.next, emulator := emulator
                               block := host.heap.next + 1 } :: host.objects }) := by
            simp [create, empty, named, aligned, outside, calloc, emulator, Heap.allocate]
          rw [ran]
          exact .created emulator
            (by simp [Mips64.create, empty, named, aligned, outside, calloc, emulator, Ptr.map])

end Create

theorem touched_memory {emulator after : Emulator} (touched : Touched emulator after) {A : Type}
    (value : A) : after.memory.map (fun _ => value) = emulator.memory.map fun _ => value := by
  obtain ⟨start, bytes, pc, -, -, rfl⟩ := touched
  simp only [Emulator.movePc, Emulator.splice]
  cases emulator.memory <;> rfl

theorem touched_null {emulator after : Emulator} (touched : Touched emulator after) :
    after.memory = .null ↔ emulator.memory = .null := by
  rw [← Ptr.map_eq_null_iff (fun _ => ()), touched_memory touched, Ptr.map_eq_null_iff]

end Host

end Mips64
