import Mips64Emulator.Api.Calls
import Mips64Emulator.Api.DebugDump

set_option autoImplicit false

namespace Mips64

structure Machine where
  resetPc : BitVec 64
  memory : List (BitVec 8)
  pc : BitVec 64
  aligned : 4 ∣ pc.toNat
  -- Register 30. A reset stores its pc there.
  frame : BitVec 64

namespace Machine

def start (config : Config) (valid : config.Valid) : Machine where
  resetPc := config.resetPc
  memory := List.replicate config.memorySize.toNat 0
  pc := config.resetPc
  aligned := valid.2.2.1
  frame := 0

def reset (machine : Machine) : Machine where
  resetPc := machine.resetPc
  memory := []
  pc := 0
  aligned := Nat.dvd_zero 4
  frame := machine.resetPc

def put (machine : Machine) (start : Nat) (bytes : List (BitVec 8)) : Machine :=
  { machine with memory := Splice.splice machine.memory start bytes }

def jump (machine : Machine) (pc : BitVec 64) (aligned : 4 ∣ pc.toNat) : Machine :=
  { machine with pc := pc, aligned := aligned }

def store (machine : Machine) (address : BitVec 64) (data : Ptr (List (BitVec 8)))
    (size : BitVec 64) : Option (Status × Machine) :=
  match payload data size with
  | some bytes =>
    if address.toNat + size.toNat ≤ machine.memory.length then
      some (.ok, machine.put address.toNat bytes)
    else some (.addressOutOfRange, machine)
  | none =>
    if data = .null then some (.invalidArgument, machine)
    -- The range is checked before the bytes are read, and those are not there.
    else if address.toNat + size.toNat ≤ machine.memory.length then none
    else some (.addressOutOfRange, machine)

def setPc (machine : Machine) (pc : BitVec 64) : Status × Machine :=
  if aligned : 4 ∣ pc.toNat then (.ok, machine.jump pc aligned) else (.unalignedPc, machine)

def load (machine : Machine) (image : ProgramImage) : Option (Status × Machine) :=
  (machine.store image.loadAddress image.data image.size).map fun (status, stored) =>
    if status = .ok ∧ image.setPcToEntry ≠ 0 then stored.setPc image.entryPoint
    else (status, stored)

def beyond (machine : Machine) : Prop := machine.memory.length < machine.pc.toNat + 4

instance (machine : Machine) : Decidable machine.beyond :=
  inferInstanceAs (Decidable (_ < _))

def status (machine : Machine) : Status :=
  if machine.beyond then .addressOutOfRange else .notImplemented

-- All a fetch tells of the four bytes is whether they are zero.
def word (machine : Machine) : BitVec 32 :=
  if machine.beyond then 0 else truth (Splice.slice machine.memory machine.pc.toNat 4)

def report (machine : Machine) : StepInfo where
  pcBefore := machine.pc
  pcAfter := machine.pc
  instruction := machine.word
  stopReason := if machine.beyond then .error else .stopNotImplemented

def runStatus (machine : Machine) (maxSteps : BitVec 64) : Status :=
  if maxSteps = 0 then .stepLimitReached else machine.status

def summary (machine : Machine) (maxSteps : BitVec 64) : RunInfo where
  stepsExecuted := 0
  stepFinal := 0
  finalPc := machine.pc
  stopReason := stopReasonFromStatus (machine.runStatus maxSteps)
  lastStatus := machine.runStatus maxSteps

def snapshot (machine : Machine) : Snapshot where
  pc := machine.pc
  gpr := Function.update (fun _ => 0) 30 machine.frame
  zero := Function.update_of_ne (by decide) _ _

def answer (machine : Machine) : Call → Option (Response × Machine)
  | .loadProgram .null => some (.status .invalidArgument, machine)
  | .loadProgram (.ref image) =>
    (machine.load image).map fun (status, machine) => (.status status, machine)
  | .writeMemory address data size =>
    (machine.store address data size).map fun (status, machine) => (.status status, machine)
  | .readMemory _ .null _ => some (.bytes .invalidArgument .null, machine)
  | .readMemory _ (.ref out) _ => some (.bytes .notImplemented (.ref out), machine)
  | .setPc pc => some (.status (machine.setPc pc).1, (machine.setPc pc).2)
  | .getPc .null => some (.value .invalidArgument .null, machine)
  | .getPc (.ref _) => some (.value .ok (.ref machine.pc), machine)
  | .setGpr _ _ => some (.status .ok, machine)
  | .getGpr _ out => some (.value .ok out, machine)
  | .step outInfo => some (.step machine.status (outInfo.map fun _ => machine.report), machine)
  | .runProgram maxSteps outInfo =>
    some (.run (machine.runStatus maxSteps) (outInfo.map fun _ => machine.summary maxSteps),
      machine)
  | .debugDump .null => some (.dump .invalidArgument [], machine)
  | .debugDump (.ref _) => some (.dump .ok machine.snapshot.lines, machine)
  | .machineReset _ => some (.status .ok, machine.reset)

end Machine

structure Represents (machine : Machine) (emulator : Emulator) : Prop where
  buffer : emulator.buffer = machine.memory
  size : emulator.memorySize.toNat = machine.memory.length
  pc : emulator.cpu.pc = machine.pc
  gpr : emulator.cpu.gpr = Function.update (fun _ => 0) 30 machine.frame
  resetPc : emulator.config.resetPc = machine.resetPc

def Refers (emulator : Ptr Emulator) (machine : Machine) : Prop :=
  ∃ object, emulator = .ref object ∧ Represents machine object

namespace Represents

theorem start (config : Config) (valid : config.Valid) :
    Represents (Machine.start config valid) (fresh config) where
  buffer := rfl
  size := List.length_replicate.symm
  pc := rfl
  gpr := (Function.update_eq_self_iff.mpr rfl).symm
  resetPc := rfl

variable {machine : Machine} {emulator : Emulator} (represents : Represents machine emulator)

include represents

theorem backed : emulator.Backed := by
  rw [Emulator.Backed, represents.buffer, represents.size]

theorem refers : Refers (.ref emulator) machine := ⟨emulator, rfl, represents⟩

theorem put (start : Nat) (bytes : List (BitVec 8))
    (fits : start + bytes.length ≤ machine.memory.length) :
    Represents (machine.put start bytes) (emulator.splice start bytes) where
  buffer := by
    rw [← represents.buffer] at fits
    rw [Emulator.splice_buffer emulator start bytes fits, represents.buffer, Machine.put]
  size := by
    rw [Emulator.splice_memorySize, represents.size, Machine.put, Splice.splice_length _ _ _ fits]
  pc := represents.pc
  gpr := represents.gpr
  resetPc := represents.resetPc

theorem jump (pc : BitVec 64) (aligned : 4 ∣ pc.toNat) :
    Represents (machine.jump pc aligned) (emulator.movePc pc) where
  buffer := represents.buffer
  size := represents.size
  pc := rfl
  gpr := represents.gpr
  resetPc := represents.resetPc

theorem reset : Represents machine.reset emulator.afterReset where
  buffer := rfl
  size := rfl
  pc := rfl
  gpr := by rw [Emulator.afterReset, represents.resetPc, Machine.reset]
  resetPc := represents.resetPc

end Represents

section Calls

open Transducer (Matches)

variable {machine : Machine} {emulator : Emulator} (represents : Represents machine emulator)

include represents

theorem writeMemory_matches (address : BitVec 64) (data : Ptr (List (BitVec 8)))
    (size : BitVec 64) :
    Matches Refers (writeMemory (.ref emulator) address data size)
      (machine.store address data size) := by
  cases valid : payload data size with
  | some bytes =>
    rw [writeMemory_valid represents.backed _ _ _ _ valid, Machine.store, valid, represents.size]
    by_cases inside : address.toNat + size.toNat ≤ machine.memory.length
    · have fits := payload_length valid ▸ inside
      simp only [inside, if_true]
      exact .same (represents.put _ _ fits).refers
    · simp only [inside, if_false]
      exact .same represents.refers
  | none =>
    rw [writeMemory_invalid _ _ _ valid, Machine.store, valid, represents.size]
    by_cases missing : data = .null
    · simp only [missing, if_true]
      exact .same represents.refers
    · by_cases inside : address.toNat + size.toNat ≤ machine.memory.length
      · simp only [missing, inside, if_true, if_false]
        exact .fault
      · simp only [missing, inside, if_false]
        exact .same represents.refers

theorem setPc_matches (pc : BitVec 64) :
    Matches Refers (some (setPc (.ref emulator) pc)) (some (machine.setPc pc)) := by
  rw [setPc_correct, Machine.setPc]
  by_cases aligned : 4 ∣ pc.toNat
  · rw [if_pos aligned, dif_pos aligned]
    exact .same (represents.jump pc aligned).refers
  · rw [if_neg aligned, dif_neg aligned]
    exact .same represents.refers

omit represents in
-- The check `mips64_load_program` makes itself is the one `mips64_write_memory` makes again.
theorem loadProgram_writes (image : ProgramImage) :
    loadProgram (.ref emulator) (.ref image) =
      (writeMemory (.ref emulator) image.loadAddress image.data image.size).map
        fun (status, emulator) =>
          if status = .ok ∧ image.setPcToEntry ≠ 0 then setPc emulator image.entryPoint
          else (status, emulator) := by
  rw [loadProgram]
  by_cases pointer : image.size ≠ 0 ∧ image.data = .null
  · rw [if_pos pointer, writeMemory, if_pos pointer]
    rfl
  · rw [if_neg pointer]
    cases writeMemory (.ref emulator) image.loadAddress image.data image.size with
    | none => rfl
    | some result =>
      obtain ⟨status, written⟩ := result
      by_cases accepted : status = .ok
      · by_cases keep : image.setPcToEntry = 0#32
        · simp [accepted, keep]
        · cases moved : setPc written image.entryPoint with
          | mk status after => by_cases aligned : status = .ok <;> simp [accepted, keep, moved, aligned]
      · simp [accepted]

theorem loadProgram_matches (image : ProgramImage) :
    Matches Refers (loadProgram (.ref emulator) (.ref image)) (machine.load image) := by
  rw [loadProgram_writes, Machine.load]
  rcases (writeMemory_matches represents image.loadAddress image.data image.size).split with
    ⟨faults, faultsImage⟩ | ⟨status, _, stored, written, answered, after, rfl, kept⟩
  · rw [faults, faultsImage]
    exact .fault
  · rw [written, answered]
    simp only [Option.map_some]
    split
    · exact setPc_matches kept image.entryPoint
    · exact .same kept.refers

theorem fetchStatus_correct :
    fetchStatus emulator machine.pc = if machine.beyond then .addressOutOfRange else .ok := by
  rw [fetchStatus, if_neg (not_not.mpr machine.aligned), represents.size]
  rfl

theorem status_correct : stepStatus emulator = machine.status := by
  rw [stepStatus, represents.pc, fetchStatus_correct represents, Machine.status]
  by_cases beyond : machine.beyond <;> simp [beyond]

theorem report_correct : stepReport emulator = machine.report := by
  have fetches := fetchStatus_correct represents
  by_cases beyond : machine.beyond
  · rw [if_pos beyond] at fetches
    simp [stepReport, Machine.report, Machine.word, fetched, fetches, beyond, represents.pc,
      stopReasonFromStatus]
  · rw [if_neg beyond] at fetches
    simp [stepReport, Machine.report, Machine.word, fetched, fetches, instructionBytes, beyond,
      represents.pc, represents.buffer]

theorem summary_correct (maxSteps : BitVec 64) :
    runReport emulator maxSteps = machine.summary maxSteps := by
  rw [runReport, Machine.summary, Machine.runStatus, status_correct represents, represents.pc]
  split <;> rfl

theorem snapshot_correct : Snapshot.of emulator = machine.snapshot := by
  ext1
  · exact represents.pc
  · rw [Snapshot.of, represents.gpr]
    exact Function.update_eq_self_iff.mpr machine.snapshot.zero.symm

theorem apply_matches (call : Call) :
    Matches Refers (call.apply (.ref emulator)) (machine.answer call) := by
  have unchanged (response : Response) :
      Matches Refers (some (response, .ref emulator)) (some (response, machine)) :=
    .same represents.refers
  cases call with
  | loadProgram image =>
    cases image with
    | null => exact unchanged _
    | ref image => exact (loadProgram_matches represents image).map Response.status
  | writeMemory address data size =>
    exact (writeMemory_matches represents address data size).map Response.status
  | readMemory address out size => cases out <;> exact unchanged _
  | setPc pc => exact (setPc_matches represents pc).map Response.status
  | getPc out =>
    cases out with
    | null => exact unchanged _
    | ref value =>
      rw [Call.apply, getPc, represents.pc]
      exact unchanged _
  | setGpr index value => exact unchanged _
  | getGpr index out => exact unchanged _
  | step outInfo =>
    rw [Call.apply, step_correct represents.backed, report_correct represents,
      status_correct represents]
    exact unchanged _
  | runProgram maxSteps outInfo =>
    rw [Call.apply, runProgram_correct represents.backed, summary_correct represents,
      status_correct represents]
    exact unchanged _
  | debugDump writeFn =>
    cases writeFn with
    | null => exact unchanged _
    | ref sink =>
      rw [Call.apply, debugDump_correct, snapshot_correct represents]
      exact unchanged _
  | machineReset status =>
    rw [Call.apply, machineReset_correct]
    exact .same represents.reset.refers

end Calls

section Runs

open Transducer (Matches)

theorem refers_matches (emulator : Ptr Emulator) (machine : Machine) (call : Call)
    (refers : Refers emulator machine) :
    Matches Refers (call.apply emulator) (machine.answer call) := by
  obtain ⟨object, rfl, represents⟩ := refers
  exact apply_matches represents call

theorem created_refers {config : Config} {emulator : Emulator}
    (created : Created config emulator) :
    ∃ valid : config.Valid, Refers (.ref emulator) (Machine.start config valid) := by
  obtain ⟨valid, rfl⟩ := (created_iff config emulator).mp created
  exact ⟨valid, (Represents.start config valid).refers⟩

/-- Every sequence of calls on a created emulator answers as the abstract machine does, call by
call, or faults where that does. -/
theorem apiCalls_refine_machine {config : Config} {emulator : Emulator}
    (created : Created config emulator) (calls : List Call) :
    ∃ valid : config.Valid,
      Matches Refers (Transducer.run Call.apply (.ref emulator) calls)
        (Transducer.run Machine.answer (Machine.start config valid) calls) := by
  obtain ⟨valid, refers⟩ := created_refers created
  exact ⟨valid, Transducer.run_matches Refers refers_matches refers calls⟩

-- A write, a fetch of what it wrote, a reset and a dump, on an emulator of eight bytes.
theorem apiCalls_refine_machine_small :
    let config : Config :=
      { memorySize := 8, resetPc := 4, endian := .little, clearMemoryOnReset := 0 }
    let calls : List Call :=
      [.writeMemory 4 (.ref [0#8, 7#8]) 2, .step (.ref ⟨0, 0, 0, .none⟩), .machineReset .ok,
        .debugDump (.ref ())]
    ∃ valid : config.Valid,
      Matches Refers (Transducer.run Call.apply (.ref (fresh config)) calls)
        (Transducer.run Machine.answer (Machine.start config valid) calls) := by
  intro config calls
  exact apiCalls_refine_machine ((created_iff config _).mpr ⟨by decide, rfl⟩) calls

end Runs

end Mips64
