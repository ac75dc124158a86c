import Mips64Emulator.Guest.MemoryRuns

set_option autoImplicit false

namespace Mips64

def Access.written (endian : Endian) : Access → Nat → Option (BitVec 8)
  | .read _ _ _ => fun _ => none
  | .write width address value =>
    if accessStatus address width.bytes = .ok then
      Overlay.range address.toNat (orient endian (ByteOrder.split width.bytes value))
    else fun _ => none

def lastByte (endian : Endian) (history : List Access) (x : Nat) : BitVec 8 :=
  (Overlay.latest ((history.map (Access.written endian)).reverse) x).getD 0

theorem lastByte_snoc (endian : Endian) (history : List Access) (access : Access) :
    lastByte endian (history ++ [access]) =
      Overlay.apply (access.written endian) (lastByte endian history) := by
  funext x
  rw [lastByte, List.map_append, List.reverse_append]
  exact Overlay.latest_cons_getD _ _ (fun _ => 0) x

structure FlatAnswer (endian : Endian) (history : List Access) (access : Access)
    (before : Memory) (response : AccessResponse) (after : Memory) : Prop where
  status : response.status = accessStatus access.address access.width.bytes
  order : after.endian = endian
  rejected : response.status ≠ .ok → after = before ∧
    ∀ width address out, access = .read width address out →
      response = .read width response.status (.ref out)
  read : ∀ width address out, access = .read width address out → after = before
  value : ∀ width address out, access = .read width address out → response.status = .ok →
    ∃ value, response = .read width .ok (.ref value) ∧
      value.toNat = ByteOrder.number (orient endian
        ((List.range width.bytes).map fun i => lastByte endian history (address.toNat + i)))

def Memory.Holds (mem : Memory) (endian : Endian) (history : List Access) : Prop :=
  mem.endian = endian ∧ ∀ x < maxSize, mem.byte x = lastByte endian history x

theorem Memory.Holds.step {mem : Memory} {endian : Endian} {history : List Access}
    (holds : mem.Holds endian history) (access : Access) :
    (access.effect mem).Holds endian (history ++ [access]) := by
  obtain ⟨order, bytes⟩ := holds
  refine ⟨by rw [effect_endian, order], ?_⟩
  intro x inside
  rw [lastByte_snoc, Overlay.apply, ← bytes x inside]
  cases access with
  | read width address out => rfl
  | write width address value =>
    simp only [Access.effect, Access.written]
    split
    next => rw [patch_byte _ _ _ _ inside, Overlay.apply, order]
    next => rfl

theorem Memory.Holds.answer {mem : Memory} {endian : Endian} {history : List Access}
    (holds : mem.Holds endian history) (access : Access) :
    FlatAnswer endian history access mem (access.response mem) (access.effect mem) := by
  obtain ⟨order, bytes⟩ := holds
  refine ⟨response_status mem access, by rw [effect_endian, order], ?_, ?_, ?_⟩
  · rw [response_status]
    intro refused
    cases access with
    | read width address out =>
      refine ⟨rfl, ?_⟩
      rintro width' address' out' ⟨rfl, rfl, rfl⟩
      exact if_neg refused
    | write width address value => exact ⟨if_neg refused, by simp⟩
  · rintro width address out rfl
    rfl
  · rintro width address out rfl accepted
    rw [response_status] at accepted
    have inside : address.toNat + width.bytes ≤ maxSize :=
      ((accessStatus_ok_iff _ _).mp accepted).1
    have window : mem.window address.toNat width.bytes =
        (List.range width.bytes).map fun i => lastByte endian history (address.toNat + i) := by
      apply List.map_congr_left
      intro i member
      have within := List.mem_range.mp member
      exact bytes _ (by omega)
    refine ⟨mem.word width address, if_pos accepted, ?_⟩
    rw [Memory.word, ByteOrder.join_toNat _ _ (by simp [orient_length, window]), order, window]

theorem memoryRun_holds (mem : Memory) (endian : Endian) (holds : mem.Holds endian [])
    (history : List Access) :
    ∃ responses after, Transducer.run perform (.ref mem) history = some (responses, .ref after) ∧
      after.Holds endian history := by
  let Kept (history : List Access) (state : Ptr Memory) : Prop :=
    ∃ mem : Memory, state = .ref mem ∧ mem.Holds endian history
  have answers (history : List Access) (state : Ptr Memory) (access : Access)
      (kept : Kept history state) (_ : True) :
      ∃ response next, perform state access = some (response, next) ∧
        Kept (history ++ [access]) next := by
    obtain ⟨mem, rfl, holds⟩ := kept
    exact ⟨_, _, perform_correct mem access, _, rfl, holds.step access⟩
  obtain ⟨responses, _, ran, after, rfl, still⟩ :=
    Transducer.run_history Kept (fun _ => True) answers [] _ history ⟨mem, rfl, holds⟩
      (fun _ _ => trivial)
  exact ⟨responses, after, ran, still⟩

theorem memoryInit_holds (garbage : Memory) (endian : Endian) :
    ∃ start, memoryInit (.ref garbage) endian = (.ok, .ref start) ∧ start.Holds endian [] := by
  refine ⟨_, rfl, rfl, ?_⟩
  intro x inside
  have cleared : x < sizeOfMemory := Nat.lt_add_right 4 inside
  simp [Memory.byte, Memory.memset, inside, cleared, lastByte]

/-- After any history of accesses the next access, whatever it is, is answered as the flat byte map
answers it; a claim about a whole sequence is this one at each of its prefixes. -/
theorem memory_flatByteMap (garbage : Memory) (endian : Endian) (history : List Access)
    (access : Access) :
    ∃ start responses before response after,
      memoryInit (.ref garbage) endian = (.ok, .ref start) ∧
      Transducer.run perform (.ref start) history = some (responses, .ref before) ∧
      perform (.ref before) access = some (response, .ref after) ∧
      FlatAnswer endian history access before response after := by
  obtain ⟨start, initialised, holds⟩ := memoryInit_holds garbage endian
  obtain ⟨responses, before, ran, still⟩ := memoryRun_holds start endian holds history
  exact ⟨start, responses, before, _, _, initialised, ran, perform_correct before access,
    still.answer access⟩

end Mips64
