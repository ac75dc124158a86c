import Mips64Emulator.Guest.MemoryRefinement

set_option autoImplicit false

namespace Mips64

def Memory.blank (endian : Endian) : Memory := { memory := fun _ => 0, endian := endian }

theorem blank_byte (endian : Endian) (x : Nat) : (Memory.blank endian).byte x = 0 := by
  simp [Memory.byte, Memory.blank]

theorem memset_whole (mem : Memory) : mem.memset sizeOfMemory = .blank .little := by
  have cleared (index : Fin maxSize) : index < sizeOfMemory := Nat.lt_add_right 4 index.isLt
  have whole : maxSize + 4 ≤ sizeOfMemory := Nat.le_refl _
  simp only [Memory.memset, Memory.blank, cleared, whole, if_true]

theorem memoryInit_correct (garbage : Memory) (endian : Endian) :
    memoryInit (.ref garbage) endian = (.ok, .ref (.blank endian)) := by
  rw [memoryInit, memset_whole]
  rfl

theorem memoryReset_correct (mem : Memory) :
    memoryReset (.ref mem) = (.ok, .ref (.blank .little)) := by
  rw [memoryReset, memset_whole]

def AnswersAsFresh (mem : Memory) (endian : Endian) : Prop :=
  ∀ garbage fresh accesses, memoryInit (.ref garbage) endian = (.ok, .ref fresh) →
    ∃ responses last lastFresh,
      Transducer.run perform (.ref mem) accesses = some (responses, last) ∧
      Transducer.run perform (.ref fresh) accesses = some (responses, lastFresh)

/-- What the comment in the function promises of the memory it leaves. -/
structure ResetPreserves (before after : Memory) : Prop where
  cleared : ∀ x < maxSize, after.byte x = 0
  endian : after.endian = before.endian
  answers : AnswersAsFresh after before.endian

theorem memoryRun_endian (mem : Memory) (history : List Access) :
    ∃ responses after, Transducer.run perform (.ref mem) history = some (responses, .ref after) ∧
      after.endian = mem.endian := by
  let Kept (state : Ptr Memory) : Prop :=
    ∃ after : Memory, state = .ref after ∧ after.endian = mem.endian
  have answers (state : Ptr Memory) (access : Access) (kept : Kept state) (_ : True) :
      ∃ response next, perform state access = some (response, next) ∧ Kept next := by
    obtain ⟨before, rfl, order⟩ := kept
    exact ⟨_, _, perform_correct before access, _, rfl, by rw [effect_endian, order]⟩
  obtain ⟨responses, _, ran, after, rfl, order⟩ :=
    Transducer.run_total Kept (fun _ => True) answers (.ref mem) history ⟨mem, rfl, rfl⟩
      (fun _ _ => trivial)
  exact ⟨responses, after, ran, order⟩

-- A half word written at 0 and its first byte read back tell the two byte orders apart.
def orderProbe : List Access := [.write .half 0 1, .read .byte 0 0]

theorem orderProbe_correct (endian : Endian) :
    ∃ last, Transducer.run perform (.ref (.blank endian)) orderProbe =
      some ([.write .ok, .read .byte .ok (.ref (if endian = .little then 1 else 0))], last) := by
  have written := perform_correct (.blank endian) (.write .half 0 1)
  have read := perform_correct ((Access.write .half 0 1).effect (.blank endian)) (.read .byte 0 0)
  have value : (Access.read .byte 0 0).response ((Access.write .half 0 1).effect (.blank endian)) =
      .read .byte .ok (.ref (if endian = .little then 1 else 0)) := by
    cases endian <;> rfl
  rw [value] at read
  exact ⟨_, (Transducer.run_cons _ _ _ _ _).mpr ⟨_, _, _, written,
    (Transducer.run_cons _ _ _ _ _).mpr ⟨_, _, _, read, rfl, rfl⟩, rfl⟩⟩

theorem blank_answers_iff (endian : Endian) :
    AnswersAsFresh (.blank .little) endian ↔ endian = .little := by
  constructor
  · intro alike
    obtain ⟨responses, last, lastFresh, ran, ranFresh⟩ :=
      alike (.blank endian) (.blank endian) orderProbe (memoryInit_correct _ _)
    obtain ⟨_, little⟩ := orderProbe_correct .little
    obtain ⟨_, fresh⟩ := orderProbe_correct endian
    rw [little] at ran
    rw [fresh] at ranFresh
    cases ran
    by_contra other
    simp [other, AccessWidth.bytes] at ranFresh
  · rintro rfl garbage fresh accesses initialised
    -- A little-endian reset and an initialisation leave one and the same memory.
    rw [memoryInit_correct] at initialised
    cases initialised
    obtain ⟨responses, last, ran, -⟩ := memoryRun_endian (.blank .little) accesses
    exact ⟨responses, .ref last, .ref last, ran, ran⟩

theorem blank_preserves_iff (before : Memory) :
    ResetPreserves before (.blank .little) ↔ before.endian = .little := by
  constructor
  · intro preserves
    exact preserves.endian.symm
  · intro order
    exact ⟨fun x _ => blank_byte .little x, order.symm, (blank_answers_iff _).mpr order⟩

/-- After any history a reset answers OK and clears the bytes, but keeps the byte order, and with it
every later answer, exactly when the memory was little-endian. -/
theorem memoryReset_preserves_iff (mem : Memory) (history : List Access) :
    ∃ responses before after,
      Transducer.run perform (.ref mem) history = some (responses, .ref before) ∧
      memoryReset (.ref before) = (.ok, .ref after) ∧
      (∀ x < maxSize, after.byte x = 0) ∧
      (AnswersAsFresh after before.endian ↔ mem.endian = .little) ∧
      (ResetPreserves before after ↔ mem.endian = .little) := by
  obtain ⟨responses, before, ran, order⟩ := memoryRun_endian mem history
  refine ⟨responses, before, _, ran, memoryReset_correct before, fun x _ => blank_byte .little x, ?_,
    ?_⟩
  · rw [blank_answers_iff, order]
  · rw [blank_preserves_iff, order]

-- A big-endian memory, just initialised: a half word written after the reset is read back as
-- other bytes than before it.
theorem memoryReset_big :
    ∃ before after, memoryInit (.ref (.blank .other)) .big = (.ok, .ref before) ∧
      memoryReset (.ref before) = (.ok, .ref after) ∧
      after.endian ≠ .big ∧ ¬ AnswersAsFresh after .big ∧ ¬ ResetPreserves before after := by
  refine ⟨_, _, memoryInit_correct _ _, memoryReset_correct _, by decide, ?_, ?_⟩
  · intro alike
    cases (blank_answers_iff .big).mp alike
  · intro preserves
    cases preserves.endian

end Mips64
