import Mips64Emulator.Guest.MemoryReset

set_option autoImplicit false

namespace Mips64

open Transducer

inductive MemoryCall where
  | init (endian : Endian)
  | reset
  | access (access : Access)

inductive MemoryAnswer where
  | status (status : MemoryStatus)
  | access (response : AccessResponse)

def MemoryCall.answer (mem : Ptr Memory) : MemoryCall → Option (MemoryAnswer × Ptr Memory)
  | init endian =>
    let (status, mem) := memoryInit mem endian
    some (.status status, mem)
  | reset =>
    let (status, mem) := memoryReset mem
    some (.status status, mem)
  | access request => (perform mem request).map fun (response, mem) => (.access response, mem)

structure Phase where
  order : Endian
  history : List Access

namespace Phase

def next (phase : Phase) : MemoryCall → Phase
  | .init endian => ⟨endian, []⟩
  | .reset => ⟨.little, []⟩
  | .access request => ⟨phase.order, phase.history ++ [request]⟩

def after (endian : Endian) (calls : List MemoryCall) : Phase := calls.foldl next ⟨endian, []⟩

end Phase

theorem blank_holds (endian : Endian) : (Memory.blank endian).Holds endian [] :=
  ⟨rfl, fun x _ => blank_byte endian x⟩

theorem answer_phase {mem : Memory} {phase : Phase} (holds : mem.Holds phase.order phase.history)
    (call : MemoryCall) :
    ∃ answer after, call.answer (.ref mem) = some (answer, .ref after) ∧
      after.Holds (phase.next call).order (phase.next call).history := by
  cases call with
  | init endian =>
    rw [MemoryCall.answer, memoryInit_correct]
    exact ⟨_, _, rfl, blank_holds endian⟩
  | reset =>
    rw [MemoryCall.answer, memoryReset_correct]
    exact ⟨_, _, rfl, blank_holds .little⟩
  | access request =>
    rw [MemoryCall.answer, perform_correct]
    exact ⟨_, _, rfl, holds.step request⟩

/-- After any calls the memory is the flat byte map of its last phase, and answers the next access
as that does. -/
theorem memoryCalls_lastPhase (garbage : Memory) (endian : Endian) (calls : List MemoryCall) :
    ∃ start answers before,
      memoryInit (.ref garbage) endian = (.ok, .ref start) ∧
      run MemoryCall.answer (.ref start) calls = some (answers, .ref before) ∧
      before.Holds (Phase.after endian calls).order (Phase.after endian calls).history ∧
      ∀ access, ∃ response after,
        perform (.ref before) access = some (response, .ref after) ∧
        FlatAnswer (Phase.after endian calls).order (Phase.after endian calls).history access before
          response after := by
  let Kept (calls : List MemoryCall) (state : Ptr Memory) : Prop :=
    ∃ mem : Memory, state = .ref mem ∧
      mem.Holds (Phase.after endian calls).order (Phase.after endian calls).history
  have answers (earlier : List MemoryCall) (state : Ptr Memory) (call : MemoryCall)
      (kept : Kept earlier state) (_ : True) :
      ∃ answer next, call.answer state = some (answer, next) ∧ Kept (earlier ++ [call]) next := by
    obtain ⟨mem, rfl, holds⟩ := kept
    obtain ⟨answer, after, answered, still⟩ := answer_phase holds call
    refine ⟨answer, _, answered, after, rfl, ?_⟩
    rwa [Phase.after, List.foldl_append]
  obtain ⟨responses, _, ran, before, rfl, holds⟩ :=
    run_history Kept (fun _ => True) answers [] _ calls ⟨_, rfl, blank_holds endian⟩
      fun _ _ => trivial
  exact ⟨_, responses, before, memoryInit_correct garbage endian, ran, holds,
    fun access => ⟨_, _, perform_correct before access, holds.answer access⟩⟩

section Observations

structure Memory.Similar (first second : Memory) : Prop where
  bytes : first.memory = second.memory
  little : first.endian = .little ↔ second.endian = .little

namespace Memory.Similar

variable {first second : Memory} (similar : first.Similar second)

include similar

theorem orient_eq (bytes : List (BitVec 8)) :
    orient first.endian bytes = orient second.endian bytes := by
  simp only [orient, similar.little]

theorem word_eq (width : AccessWidth) (address : BitVec 64) :
    first.word width address = second.word width address := by
  simp only [word, window, byte, similar.bytes, similar.orient_eq]

theorem response_eq (access : Access) : access.response first = access.response second := by
  cases access with
  | read width address out => simp only [Access.response, similar.word_eq]
  | write width address value => rfl

theorem effect (access : Access) : (access.effect first).Similar (access.effect second) where
  bytes := by
    cases access with
    | read width address out => exact similar.bytes
    | write width address value =>
      simp only [Access.effect]
      split
      · simp only [patch, similar.bytes, similar.orient_eq]
      · exact similar.bytes
  little := by
    rw [effect_endian, effect_endian]
    exact similar.little

end Memory.Similar

theorem answer_matches (first second : Ptr Memory) (call : MemoryCall)
    (similar : Ptr.Both Memory.Similar first second) :
    Matches (Ptr.Both Memory.Similar) (call.answer first) (call.answer second) := by
  obtain ⟨mem, other, rfl, rfl, similar⟩ := similar
  have blank (endian : Endian) :
      Ptr.Both Memory.Similar (.ref (.blank endian)) (.ref (.blank endian)) :=
    ⟨_, _, rfl, rfl, rfl, Iff.rfl⟩
  cases call with
  | init endian =>
    simp only [MemoryCall.answer, memoryInit_correct]
    exact .same (blank endian)
  | reset =>
    simp only [MemoryCall.answer, memoryReset_correct]
    exact .same (blank .little)
  | access request =>
    simp only [MemoryCall.answer, perform_correct, similar.response_eq, Option.map_some]
    exact .same ⟨_, _, rfl, rfl, similar.effect request⟩

section Probes

variable {mem other : Memory}
  (alike : Alike MemoryCall.answer MemoryCall.answer (.ref mem) (.ref other))

include alike

theorem access_alike (request : Access) :
    request.response mem = request.response other ∧
      Alike MemoryCall.answer MemoryCall.answer (.ref (request.effect mem))
        (.ref (request.effect other)) := by
  have answers (mem : Memory) : (MemoryCall.access request).answer (.ref mem) =
      some (.access (request.response mem), .ref (request.effect mem)) := by
    rw [MemoryCall.answer, perform_correct]
    rfl
  obtain ⟨same, further⟩ := alike.next (.access request) (answers mem) (answers other)
  exact ⟨MemoryAnswer.access.inj same, further⟩

omit alike in
theorem word_byte (mem : Memory) (address : BitVec 64) :
    mem.word .byte address = mem.byte address.toNat := by
  have window : mem.window address.toNat AccessWidth.byte.bytes = [mem.byte address.toNat] := rfl
  have oriented : orient mem.endian [mem.byte address.toNat] = [mem.byte address.toNat] := by
    rw [orient]
    split <;> rfl
  apply BitVec.eq_of_toNat_eq
  rw [Memory.word, window, oriented, ByteOrder.join_toNat _ _ (Nat.le_refl 8),
    ByteOrder.number_cons, ByteOrder.number_nil]
  rfl

theorem byte_alike (x : Nat) (inside : x < maxSize) : mem.byte x = other.byte x := by
  have small : (BitVec.ofNat 64 x).toNat = x := by
    rw [BitVec.toNat_ofNat, Nat.mod_eq_of_lt (by rw [maxSize_eq] at inside; omega)]
  have accepted : accessStatus (.ofNat 64 x) AccessWidth.byte.bytes = .ok := by
    rw [accessStatus_ok_iff, small]
    exact ⟨inside, Nat.one_dvd x⟩
  have same := (access_alike alike (.read .byte (.ofNat 64 x) 0)).1
  simp only [Access.response, accepted, if_true, word_byte, small, AccessResponse.read.injEq,
    heq_eq_eq, true_and] at same
  exact Ptr.ref.inj same

omit alike in
-- The half word 1 has its one byte first in little-endian order only.
theorem probe_byte (mem : Memory) :
    ((Access.write .half 0 1).effect mem).byte 0 = if mem.endian = .little then 1 else 0 := by
  have accepted : accessStatus 0 AccessWidth.half.bytes = .ok := by decide
  have split : ByteOrder.split AccessWidth.half.bytes (1 : BitVec AccessWidth.half.bits) =
      [1, 0] := by decide
  rw [Access.effect, if_pos accepted, patch_byte _ _ _ _ (by decide), Overlay.apply, split, orient]
  by_cases little : mem.endian = .little <;> simp [little, Overlay.range]

theorem little_alike : mem.endian = .little ↔ other.endian = .little := by
  have written := (access_alike alike (.write .half 0 1)).2
  have same := byte_alike written 0 (by decide)
  rw [probe_byte, probe_byte] at same
  by_cases little : mem.endian = .little <;> by_cases littleOther : other.endian = .little <;>
    simp [little, littleOther] at same ⊢

end Probes

/-- No calls tell two memories apart just when they hold the same bytes and both are little-endian
or neither is. -/
theorem memories_alike_iff (mem other : Memory) :
    Alike MemoryCall.answer MemoryCall.answer (.ref mem) (.ref other) ↔
      mem.memory = other.memory ∧ (mem.endian = .little ↔ other.endian = .little) := by
  constructor
  · intro alike
    refine ⟨?_, little_alike alike⟩
    funext index
    have same := byte_alike alike index index.isLt
    simpa [Memory.byte] using same
  · rintro ⟨bytes, little⟩
    exact alike_of_matches (Ptr.Both Memory.Similar) answer_matches ⟨mem, other, rfl, rfl, bytes, little⟩

end Observations

end Mips64
