import Mips64Emulator.Api.Calls

set_option autoImplicit false

namespace Mips64

structure LoadsAtomically (emulator : Emulator) (image : ProgramImage) : Prop where
  rejected : ∀ status next, loadProgram (.ref emulator) (.ref image) = some (status, next) →
    status ≠ .ok → next = .ref emulator
  accepted : (∃ next, loadProgram (.ref emulator) (.ref image) = some (.ok, next)) ↔
    payload image.data image.size ≠ none ∧
      image.loadAddress.toNat + image.size.toNat ≤ emulator.memorySize.toNat ∧
      (image.setPcToEntry = 0 ∨ 4 ∣ image.entryPoint.toNat)
  effect : ∀ next, loadProgram (.ref emulator) (.ref image) = some (.ok, next) →
    ∃ bytes, payload image.data image.size = some bytes ∧
      next = .ref
        { emulator with
          memory := emulator.memory.map fun buffer =>
            Splice.splice buffer image.loadAddress.toNat bytes
          cpu :=
            { emulator.cpu with
              pc := if image.setPcToEntry ≠ 0 then image.entryPoint else emulator.cpu.pc } }

/-- The image is copied, to other bytes than were there, before its entry point is refused. -/
def LeavesHalf (emulator : Emulator) (image : ProgramImage) : Prop :=
  ∃ bytes, payload image.data image.size = some bytes ∧
    image.loadAddress.toNat + image.size.toNat ≤ emulator.memorySize.toNat ∧
    image.setPcToEntry ≠ 0 ∧ ¬ 4 ∣ image.entryPoint.toNat ∧
    Splice.slice emulator.buffer image.loadAddress.toNat image.size.toNat ≠ bytes

section Backed

variable {emulator : Emulator} (backed : emulator.Backed) (image : ProgramImage)

include backed

theorem loadProgram_accepted :
    (∃ next, loadProgram (.ref emulator) (.ref image) = some (.ok, next)) ↔
      payload image.data image.size ≠ none ∧
        image.loadAddress.toNat + image.size.toNat ≤ emulator.memorySize.toNat ∧
        (image.setPcToEntry = 0 ∨ 4 ∣ image.entryPoint.toNat) := by
  simp only [loadProgram_ok_iff backed, ne_eq, Option.ne_none_iff_exists']
  constructor
  · intro ⟨_, bytes, valid, inside, entry, _⟩
    exact ⟨⟨bytes, valid⟩, inside, entry⟩
  · intro ⟨⟨bytes, valid⟩, inside, entry⟩
    exact ⟨_, bytes, valid, inside, entry, rfl⟩

theorem loadProgram_effect (next : Ptr Emulator)
    (ran : loadProgram (.ref emulator) (.ref image) = some (.ok, next)) :
    ∃ bytes, payload image.data image.size = some bytes ∧
      next = .ref
        { emulator with
          memory := emulator.memory.map fun buffer =>
            Splice.splice buffer image.loadAddress.toNat bytes
          cpu :=
            { emulator.cpu with
              pc := if image.setPcToEntry ≠ 0 then image.entryPoint else emulator.cpu.pc } } := by
  obtain ⟨bytes, valid, -, -, rfl⟩ := (loadProgram_ok_iff backed image next).mp ran
  refine ⟨bytes, valid, ?_⟩
  rw [loaded]
  by_cases keep : image.setPcToEntry = 0
  · rw [if_pos keep, if_neg (not_not_intro keep)]
    rfl
  · rw [if_neg keep, if_pos keep]
    rfl

theorem loadProgram_half (half : LeavesHalf emulator image) :
    ∃ after, loadProgram (.ref emulator) (.ref image) = some (.unalignedPc, .ref after) ∧
      after ≠ emulator := by
  obtain ⟨bytes, valid, inside, jumps, odd, differs⟩ := half
  have length := payload_length valid
  have fits := payload_fits backed valid inside
  refine ⟨emulator.splice image.loadAddress.toNat bytes, ?_, ?_⟩
  · rw [loadProgram_valid backed image bytes valid, if_pos inside, if_neg jumps, if_neg odd]
  · intro same
    apply differs
    rw [← length]
    exact (Emulator.splice_eq_self_iff emulator _ bytes fits).mp same

theorem loadProgram_rejected (whole : ¬ LeavesHalf emulator image) (status : Status)
    (next : Ptr Emulator)
    (ran : loadProgram (.ref emulator) (.ref image) = some (status, next))
    (refused : status ≠ .ok) : next = .ref emulator := by
  cases valid : payload image.data image.size with
  | none =>
    rw [loadProgram_invalid image valid] at ran
    split at ran
    · cases ran
      rfl
    · split at ran
      · cases ran
      · cases ran
        rfl
  | some bytes =>
    have length := payload_length valid
    rw [loadProgram_valid backed image bytes valid] at ran
    split at ran
    next inside =>
      split at ran
      next keep =>
        cases ran
        exact absurd rfl refused
      next jumps =>
        split at ran
        next aligned =>
          cases ran
          exact absurd rfl refused
        next odd =>
          cases ran
          have already : Splice.slice emulator.buffer image.loadAddress.toNat image.size.toNat =
              bytes := by
            by_contra differs
            exact whole ⟨bytes, valid, inside, jumps, odd, differs⟩
          have fits := payload_fits backed valid inside
          rw [(Emulator.splice_eq_self_iff emulator _ bytes fits).mpr (by rw [length, already])]
    next =>
      cases ran
      rfl

end Backed

theorem loadProgram_atomic_iff (emulator : Emulator) (backed : emulator.Backed)
    (image : ProgramImage) :
    LoadsAtomically emulator image ↔ ¬ LeavesHalf emulator image := by
  constructor
  · intro atomic half
    obtain ⟨after, ran, differs⟩ := loadProgram_half backed image half
    have same := atomic.rejected _ _ ran (by decide)
    exact differs (Ptr.ref.inj same)
  · intro whole
    exact ⟨loadProgram_rejected backed image whole, loadProgram_accepted backed image,
      loadProgram_effect backed image⟩

-- Two bytes at the end of a fresh memory, with an entry point that is a multiple of four.
theorem loadProgram_atomic_entry :
    let config : Config :=
      { memorySize := 8, resetPc := 0, endian := .little, clearMemoryOnReset := 0 }
    let image : ProgramImage :=
      { data := .ref [0xAA, 0xBB], size := 2, loadAddress := 6, entryPoint := 4, setPcToEntry := 1 }
    LoadsAtomically (fresh config) image := by
  intro config image
  apply (loadProgram_atomic_iff (fresh config) (fresh_backed config) image).mpr
  intro half
  obtain ⟨bytes, valid, inside, jumps, odd, differs⟩ := half
  exact odd (by decide)

-- The same image with entry point 2 is refused after its bytes were copied.
theorem loadProgram_half_entry :
    let config : Config :=
      { memorySize := 8, resetPc := 0, endian := .little, clearMemoryOnReset := 0 }
    let image : ProgramImage :=
      { data := .ref [0xAA, 0xBB], size := 2, loadAddress := 6, entryPoint := 2, setPcToEntry := 1 }
    Created config (fresh config) ∧ ¬ LoadsAtomically (fresh config) image := by
  intro config image
  refine ⟨(created_iff _ _).mpr ⟨by decide, rfl⟩, ?_⟩
  intro atomic
  have half : LeavesHalf (fresh config) image :=
    ⟨[0xAA, 0xBB], rfl, by decide, by decide, by decide, by decide⟩
  obtain ⟨after, ran, differs⟩ := loadProgram_half (fresh_backed config) image half
  exact differs (Ptr.ref.inj (atomic.rejected _ _ ran (by decide)))

end Mips64
