import Mips64Emulator.Api.CoreCalls
import Mips64Emulator.Shared.Transducer

set_option autoImplicit false

namespace Mips64

inductive Call where
  | loadProgram (image : Ptr ProgramImage)
  | writeMemory (guestAddress : BitVec 64) (data : Ptr (List (BitVec 8))) (size : BitVec 64)
  | readMemory (guestAddress : BitVec 64) (outData : Ptr (List (BitVec 8))) (size : BitVec 64)
  | setPc (pc : BitVec 64)
  | getPc (outPc : Ptr (BitVec 64))
  | setGpr (index : BitVec 32) (value : BitVec 64)
  | getGpr (index : BitVec 32) (out : Ptr (BitVec 64))
  | step (outInfo : Ptr StepInfo)
  | runProgram (maxSteps : BitVec 64) (outInfo : Ptr RunInfo)
  | debugDump (writeFn : Ptr Unit)
  | machineReset (status : Status)

inductive Response where
  | status (status : Status)
  | bytes (status : Status) (outData : Ptr (List (BitVec 8)))
  | value (status : Status) (out : Ptr (BitVec 64))
  | step (status : Status) (outInfo : Ptr StepInfo)
  | run (status : Status) (outInfo : Ptr RunInfo)
  | dump (status : Status) (lines : List String)
  deriving DecidableEq

namespace Call

def apply (emulator : Ptr Emulator) : Call → Option (Response × Ptr Emulator)
  | loadProgram image =>
    (Mips64.loadProgram emulator image).map fun (status, emulator) => (.status status, emulator)
  | writeMemory guestAddress data size =>
    (Mips64.writeMemory emulator guestAddress data size).map fun (status, emulator) =>
      (.status status, emulator)
  | readMemory guestAddress outData size =>
    let (status, outData) := Mips64.readMemory emulator guestAddress outData size
    some (.bytes status outData, emulator)
  | setPc pc =>
    let (status, emulator) := Mips64.setPc emulator pc
    some (.status status, emulator)
  | getPc outPc =>
    let (status, out) := Mips64.getPc emulator outPc
    some (.value status out, emulator)
  | setGpr index value =>
    let (status, emulator) := Mips64.setGpr emulator index value
    some (.status status, emulator)
  | getGpr index out =>
    let (status, out) := Mips64.getGpr emulator index out
    some (.value status out, emulator)
  | step outInfo =>
    (Mips64.step emulator outInfo).map fun (status, outInfo, emulator) =>
      (.step status outInfo, emulator)
  | runProgram maxSteps outInfo =>
    (Mips64.runProgram emulator maxSteps outInfo).map fun (status, outInfo, emulator) =>
      (.run status outInfo, emulator)
  | debugDump writeFn =>
    let (status, lines) := Mips64.debugDump emulator writeFn
    some (.dump status lines, emulator)
  | machineReset status =>
    (Mips64.machineReset emulator status).map fun (status, emulator) => (.status status, emulator)

def isReset : Call → Bool
  | machineReset _ => true
  | _ => false

-- The pointer is NULL or the bytes it promises are there.
def Readable (data : Ptr (List (BitVec 8))) (size : BitVec 64) : Prop :=
  data ≠ .null → payload data size ≠ none

def Promised : Call → Prop
  | loadProgram (.ref image) => Readable image.data image.size
  | writeMemory _ data size => Readable data size
  | _ => True

end Call

/-- A call other than a reset lays bytes into the memory, moves the pc, or does neither. -/
def Touched (emulator after : Emulator) : Prop :=
  ∃ start bytes pc, start + bytes.length ≤ emulator.memorySize.toNat ∧
    (pc = emulator.cpu.pc ∨ 4 ∣ pc.toNat) ∧ after = (emulator.splice start bytes).movePc pc

namespace Touched

theorem refl (emulator : Emulator) : Touched emulator emulator := by
  refine ⟨0, [], emulator.cpu.pc, Nat.zero_le _, Or.inl rfl, ?_⟩
  rw [Emulator.splice_nil, Emulator.movePc_self]

theorem splice (emulator : Emulator) (start : Nat) (bytes : List (BitVec 8))
    (fits : start + bytes.length ≤ emulator.memorySize.toNat) :
    Touched emulator (emulator.splice start bytes) :=
  ⟨start, bytes, emulator.cpu.pc, fits, Or.inl rfl, rfl⟩

theorem movePc (emulator : Emulator) (pc : BitVec 64) (aligned : 4 ∣ pc.toNat) :
    Touched emulator (emulator.movePc pc) := by
  refine ⟨0, [], pc, Nat.zero_le _, Or.inr aligned, ?_⟩
  rw [Emulator.splice_nil]

theorem backed {emulator after : Emulator} (backed : emulator.Backed)
    (touched : Touched emulator after) : after.Backed := by
  obtain ⟨start, bytes, pc, fits, -, rfl⟩ := touched
  exact backed.splice start bytes fits

end Touched

theorem afterReset_backed (emulator : Emulator) : emulator.afterReset.Backed := rfl

section Effects

variable {emulator : Emulator} (backed : emulator.Backed)

include backed

theorem writeMemory_touched {guestAddress : BitVec 64} {data : Ptr (List (BitVec 8))}
    {size : BitVec 64} {status : Status} {next : Ptr Emulator}
    (applied : writeMemory (.ref emulator) guestAddress data size = some (status, next)) :
    ∃ after, next = .ref after ∧ Touched emulator after := by
  cases valid : payload data size with
  | none =>
    rw [writeMemory_invalid _ _ _ valid] at applied
    split at applied
    · cases applied
      exact ⟨emulator, rfl, .refl _⟩
    · split at applied
      · cases applied
      · cases applied
        exact ⟨emulator, rfl, .refl _⟩
  | some bytes =>
    have length := payload_length valid
    rw [writeMemory_valid backed _ _ _ _ valid] at applied
    split at applied
    next inside =>
      cases applied
      exact ⟨_, rfl, .splice _ _ _ (length ▸ inside)⟩
    next =>
      cases applied
      exact ⟨emulator, rfl, .refl _⟩

theorem loadProgram_touched {image : Ptr ProgramImage} {status : Status} {next : Ptr Emulator}
    (applied : loadProgram (.ref emulator) image = some (status, next)) :
    ∃ after, next = .ref after ∧ Touched emulator after := by
  cases image with
  | null =>
    cases applied
    exact ⟨emulator, rfl, .refl _⟩
  | ref image =>
    cases valid : payload image.data image.size with
    | none =>
      rw [loadProgram_invalid _ valid] at applied
      split at applied
      · cases applied
        exact ⟨emulator, rfl, .refl _⟩
      · split at applied
        · cases applied
        · cases applied
          exact ⟨emulator, rfl, .refl _⟩
    | some bytes =>
      have length := payload_length valid
      rw [loadProgram_valid backed _ _ valid] at applied
      split at applied
      next inside =>
        rw [← length] at inside
        split at applied
        · cases applied
          exact ⟨_, rfl, .splice _ _ _ inside⟩
        · split at applied
          next aligned =>
            cases applied
            exact ⟨_, rfl, _, _, image.entryPoint, inside, Or.inr aligned, rfl⟩
          next =>
            cases applied
            exact ⟨_, rfl, .splice _ _ _ inside⟩
      next =>
        cases applied
        exact ⟨emulator, rfl, .refl _⟩

omit backed in
theorem setPc_touched (pc : BitVec 64) :
    ∃ status after, setPc (.ref emulator) pc = (status, .ref after) ∧ Touched emulator after := by
  rw [setPc_correct]
  split
  next aligned => exact ⟨_, _, rfl, .movePc emulator pc aligned⟩
  next => exact ⟨_, _, rfl, .refl emulator⟩

theorem apply_cases {call : Call} {response : Response} {next : Ptr Emulator}
    (applied : call.apply (.ref emulator) = some (response, next)) :
    ∃ after, next = .ref after ∧
      (call.isReset = false ∧ Touched emulator after ∨
        call.isReset = true ∧ after = emulator.afterReset) := by
  cases call with
  | loadProgram image =>
    obtain ⟨⟨status, loaded⟩, ran, same⟩ := Option.map_eq_some_iff.mp applied
    cases same
    obtain ⟨after, rfl, touched⟩ := loadProgram_touched backed ran
    exact ⟨after, rfl, Or.inl ⟨rfl, touched⟩⟩
  | writeMemory guestAddress data size =>
    obtain ⟨⟨status, written⟩, ran, same⟩ := Option.map_eq_some_iff.mp applied
    cases same
    obtain ⟨after, rfl, touched⟩ := writeMemory_touched backed ran
    exact ⟨after, rfl, Or.inl ⟨rfl, touched⟩⟩
  | setPc pc =>
    obtain ⟨status, after, moved, touched⟩ := setPc_touched pc
    rw [Call.apply, moved] at applied
    cases applied
    exact ⟨after, rfl, Or.inl ⟨rfl, touched⟩⟩
  | step outInfo =>
    rw [Call.apply, step_correct backed] at applied
    cases applied
    exact ⟨emulator, rfl, Or.inl ⟨rfl, .refl _⟩⟩
  | runProgram maxSteps outInfo =>
    rw [Call.apply, runProgram_correct backed] at applied
    cases applied
    exact ⟨emulator, rfl, Or.inl ⟨rfl, .refl _⟩⟩
  | machineReset status =>
    rw [Call.apply, machineReset_correct] at applied
    cases applied
    exact ⟨_, rfl, Or.inr ⟨rfl, rfl⟩⟩
  | readMemory _ _ _ | getPc _ | setGpr _ _ | getGpr _ _ | debugDump _ =>
    cases applied
    exact ⟨emulator, rfl, Or.inl ⟨rfl, .refl _⟩⟩

/-- A call whose data pointers keep their promise touches no byte outside an object. -/
theorem apply_answers (call : Call) (promised : call.Promised) :
    ∃ response next, call.apply (.ref emulator) = some (response, next) := by
  cases call with
  | loadProgram image =>
    cases image with
    | null => exact ⟨_, _, rfl⟩
    | ref image =>
      rw [Call.apply]
      cases valid : payload image.data image.size with
      | none =>
        have missing : image.data = .null := by_contra fun present => promised present valid
        rw [loadProgram_invalid _ valid, if_pos missing]
        exact ⟨_, _, rfl⟩
      | some bytes =>
        rw [loadProgram_valid backed _ _ valid]
        exact ⟨_, _, rfl⟩
  | writeMemory guestAddress data size =>
    rw [Call.apply]
    cases valid : payload data size with
    | none =>
      have missing : data = .null := by_contra fun present => promised present valid
      rw [writeMemory_invalid _ _ _ valid, if_pos missing]
      exact ⟨_, _, rfl⟩
    | some bytes =>
      rw [writeMemory_valid backed _ _ _ _ valid]
      exact ⟨_, _, rfl⟩
  | step outInfo =>
    rw [Call.apply, step_correct backed]
    exact ⟨_, _, rfl⟩
  | runProgram maxSteps outInfo =>
    rw [Call.apply, runProgram_correct backed]
    exact ⟨_, _, rfl⟩
  | machineReset status =>
    rw [Call.apply, machineReset_correct]
    exact ⟨_, _, rfl⟩
  | _ => exact ⟨_, _, rfl⟩

end Effects

def Created (config : Config) (emulator : Emulator) : Prop :=
  ∃ emulatorAllocated memoryAllocated out,
    create emulatorAllocated memoryAllocated (.ref config) (.ref out) =
      (.ok, .ref (.ref emulator))

theorem created_iff (config : Config) (emulator : Emulator) :
    Created config emulator ↔ config.Valid ∧ emulator = fresh config := by
  simp only [Created, create_correct]
  constructor
  · rintro ⟨_, _, _, _, _, valid, same⟩
    exact ⟨valid, same⟩
  · rintro ⟨valid, same⟩
    exact ⟨true, true, .null, rfl, rfl, valid, same⟩

theorem fresh_backed (config : Config) : (fresh config).Backed := List.length_replicate

end Mips64
