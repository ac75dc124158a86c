import Mips64Emulator.Api.Calls

set_option autoImplicit false

namespace Mips64

structure Emulator.Sound (config : Config) (emulator : Emulator) : Prop where
  configKept : emulator.config = config
  memory : ∃ bytes, emulator.memory = .ref bytes ∧ bytes.length = emulator.memorySize.toNat
  memorySize : emulator.memorySize = config.memorySize
  positive : 0 < emulator.memorySize.toNat
  pcAligned : 4 ∣ emulator.cpu.pc.toNat
  gprZero : emulator.cpu.gpr 0 = 0

/-- What the calls that read `pc` or write memory do; an answer also says that every byte they touch
is one of the `memory_size` bytes. -/
structure Emulator.Safe (emulator : Emulator) : Prop where
  step : ∀ outInfo, ∃ status report,
    step (.ref emulator) outInfo = some (status, report, .ref emulator) ∧
      status ≠ .unalignedPc ∧
      (status = .addressOutOfRange ↔
        emulator.memorySize.toNat < emulator.cpu.pc.toNat + 4)
  fetch : ∀ out, ∃ status word,
    fetchInstruction (.ref emulator) emulator.cpu.pc (.ref out) = some (status, word) ∧
      (status = .ok → ∀ i < 4, emulator.cpu.pc.toNat + i < emulator.memorySize.toNat)
  setPc : ∀ pc status next, setPc (.ref emulator) pc = (status, next) →
    status ≠ .ok → next = .ref emulator
  writeMemory : ∀ guestAddress data size status next,
    writeMemory (.ref emulator) guestAddress data size = some (status, next) →
      (status ≠ .ok → next = .ref emulator) ∧
      (status = .ok → ∀ i < size.toNat, guestAddress.toNat + i < emulator.memorySize.toNat)

theorem fresh_sound (config : Config) (valid : config.Valid) : (fresh config).Sound config := by
  obtain ⟨positive, -, aligned, -⟩ := valid
  refine ⟨rfl, ⟨_, rfl, List.length_replicate⟩, rfl, ?_, aligned, rfl⟩
  exact Nat.pos_of_ne_zero fun zero => positive (BitVec.eq_of_toNat_eq zero)

namespace Emulator.Sound

variable {config : Config} {emulator : Emulator} (sound : emulator.Sound config)

include sound

theorem backed : emulator.Backed := by
  obtain ⟨bytes, present, length⟩ := sound.memory
  rw [Backed, buffer, present]
  exact length

theorem splice (start : Nat) (bytes : List (BitVec 8))
    (fits : start + bytes.length ≤ emulator.memorySize.toNat) :
    (emulator.splice start bytes).Sound config := by
  obtain ⟨content, present, length⟩ := sound.memory
  refine ⟨sound.configKept, ⟨Splice.splice content start bytes, ?_, ?_⟩, sound.memorySize,
    sound.positive, sound.pcAligned, sound.gprZero⟩
  · rw [Emulator.splice, present]
    rfl
  · rw [Splice.splice_length _ _ _ (length ▸ fits)]
    exact length

theorem movePc (pc : BitVec 64) (aligned : 4 ∣ pc.toNat) : (emulator.movePc pc).Sound config :=
  ⟨sound.configKept, sound.memory, sound.memorySize, sound.positive, aligned, sound.gprZero⟩

theorem touched {after : Emulator} (touched : Touched emulator after) : after.Sound config := by
  obtain ⟨start, bytes, pc, fits, moved, rfl⟩ := touched
  have written := sound.splice start bytes fits
  rcases moved with rfl | aligned
  · exact written
  · exact written.movePc pc aligned

theorem safe : emulator.Safe := by
  have backed := sound.backed
  constructor
  case step =>
    intro outInfo
    refine ⟨_, _, step_correct backed outInfo, ?_⟩
    rw [stepStatus_aligned emulator sound.pcAligned]
    by_cases outside : emulator.memorySize.toNat < emulator.cpu.pc.toNat + 4
    · simp [outside]
    · simp [outside]
  case fetch =>
    intro out
    refine ⟨_, _, fetchInstruction_correct backed _ _, ?_⟩
    intro accepted i within
    obtain ⟨-, inside⟩ := (fetchStatus_ok_iff _ _).mp accepted
    omega
  case setPc =>
    intro pc status next answered refused
    rw [setPc_correct] at answered
    split at answered
    · cases answered
      exact absurd rfl refused
    · cases answered
      rfl
  case writeMemory =>
    intro guestAddress data size status next answered
    cases valid : payload data size with
    | none =>
      rw [writeMemory_invalid _ _ _ valid] at answered
      split at answered
      · cases answered
        simp
      · split at answered
        · cases answered
        · cases answered
          simp
    | some bytes =>
      rw [writeMemory_valid backed _ _ _ _ valid] at answered
      split at answered
      next inside =>
        cases answered
        refine ⟨fun refused => absurd rfl refused, fun _ i within => ?_⟩
        omega
      next =>
        cases answered
        simp

end Emulator.Sound

theorem apply_sound {config : Config} (call : Call) (noReset : call.isReset = false)
    {emulator : Emulator} (sound : emulator.Sound config) {response : Response}
    {next : Ptr Emulator} (applied : call.apply (.ref emulator) = some (response, next)) :
    ∃ after, next = .ref after ∧ after.Sound config := by
  obtain ⟨after, rfl, effect⟩ := apply_cases sound.backed applied
  rcases effect with ⟨-, touched⟩ | ⟨reset, -⟩
  · exact ⟨after, rfl, sound.touched touched⟩
  · rw [noReset] at reset
    cases reset

/-- After any calls but resets the invariant holds, and the calls answer as long as their data
pointers keep their promise. A prefix of a sequence is a sequence of its own. -/
theorem apiCalls_invariant (config : Config) (start : Emulator) (created : Created config start)
    (calls : List Call) (noReset : ∀ call ∈ calls, call.isReset = false) :
    (∀ responses next, Transducer.run Call.apply (.ref start) calls = some (responses, next) →
      ∃ after, next = .ref after ∧ after.Sound config ∧ after.Safe) ∧
    ((∀ call ∈ calls, call.Promised) →
      ∃ responses after,
        Transducer.run Call.apply (.ref start) calls = some (responses, .ref after)) := by
  obtain ⟨valid, rfl⟩ := (created_iff config start).mp created
  let Kept (state : Ptr Emulator) : Prop := ∃ after, state = .ref after ∧ after.Sound config
  have initial : Kept (.ref (fresh config)) := ⟨_, rfl, fresh_sound config valid⟩
  constructor
  · intro responses next ran
    have preserved (state : Ptr Emulator) (call : Call) (response : Response)
        (next : Ptr Emulator) (kept : Kept state) (noReset : call.isReset = false)
        (applied : call.apply state = some (response, next)) : Kept next := by
      obtain ⟨emulator, rfl, sound⟩ := kept
      exact apply_sound call noReset sound applied
    obtain ⟨after, rfl, sound⟩ :=
      Transducer.run_invariant Kept (fun call => call.isReset = false) preserved initial noReset ran
    exact ⟨after, rfl, sound, sound.safe⟩
  · intro promised
    have answers (state : Ptr Emulator) (call : Call) (kept : Kept state)
        (admissible : call.isReset = false ∧ call.Promised) :
        ∃ response next, call.apply state = some (response, next) ∧ Kept next := by
      obtain ⟨emulator, rfl, sound⟩ := kept
      obtain ⟨response, next, applied⟩ := apply_answers sound.backed call admissible.2
      exact ⟨response, next, applied, apply_sound call admissible.1 sound applied⟩
    obtain ⟨responses, _, ran, after, rfl, -⟩ :=
      Transducer.run_total Kept (fun call => call.isReset = false ∧ call.Promised) answers _ calls
        initial fun call member => ⟨noReset call member, promised call member⟩
    exact ⟨responses, after, ran⟩

-- Eight bytes of memory, a pc moved far outside it, a step, and a write at the end.
theorem apiCalls_farPc :
    let config : Config :=
      { memorySize := 8, resetPc := 8, endian := .big, clearMemoryOnReset := 0 }
    let calls : List Call :=
      [.setPc 0xFFFFFFFFFFFFFFFC, .step .null, .writeMemory 7 (.ref [0x55#8]) 1]
    ∃ responses after,
      Transducer.run Call.apply (.ref (fresh config)) calls = some (responses, .ref after) ∧
        after.Sound config ∧ after.Safe := by
  intro config calls
  have promised : ∀ call ∈ calls, call.Promised := by
    simp [calls, Call.Promised, Call.Readable, payload]
  obtain ⟨kept, answers⟩ := apiCalls_invariant config (fresh config)
    ((created_iff config _).mpr ⟨by decide, rfl⟩) calls (by decide)
  obtain ⟨responses, after, ran⟩ := answers promised
  obtain ⟨_, same, sound, safe⟩ := kept responses _ ran
  cases same
  exact ⟨responses, after, ran, sound, safe⟩

end Mips64
