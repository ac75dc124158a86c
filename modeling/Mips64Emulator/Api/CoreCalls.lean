import Mips64Emulator.Core.Emulator
import Mips64Emulator.Shared.BitFields

set_option autoImplicit false

namespace Mips64

namespace Emulator

def buffer (emulator : Emulator) : List (BitVec 8) :=
  match emulator.memory with
  | .null => []
  | .ref bytes => bytes

def Backed (emulator : Emulator) : Prop := emulator.buffer.length = emulator.memorySize.toNat

def splice (emulator : Emulator) (start : Nat) (bytes : List (BitVec 8)) : Emulator :=
  { emulator with memory := emulator.memory.map fun buffer => Splice.splice buffer start bytes }

def movePc (emulator : Emulator) (pc : BitVec 64) : Emulator :=
  { emulator with cpu := { emulator.cpu with pc := pc } }

def afterReset (emulator : Emulator) : Emulator :=
  { config := emulator.config
    memory := .null
    memorySize := 0
    cpu :=
      { gpr := Function.update (fun _ => 0) 30 emulator.config.resetPc
        pc := 0
        hi := emulator.cpu.hi
        lo := emulator.cpu.lo } }

@[simp] theorem splice_memorySize (emulator : Emulator) (start : Nat) (bytes : List (BitVec 8)) :
    (emulator.splice start bytes).memorySize = emulator.memorySize := rfl

@[simp] theorem movePc_memorySize (emulator : Emulator) (pc : BitVec 64) :
    (emulator.movePc pc).memorySize = emulator.memorySize := rfl

theorem movePc_self (emulator : Emulator) : emulator.movePc emulator.cpu.pc = emulator := rfl

theorem splice_nil (emulator : Emulator) (start : Nat) : emulator.splice start [] = emulator := by
  obtain ⟨config, memory, memorySize, cpu⟩ := emulator
  cases memory <;> simp [splice, Ptr.map, Splice.splice]

theorem memory_of_buffer (emulator : Emulator) (nonempty : emulator.buffer ≠ []) :
    emulator.memory = .ref emulator.buffer := by
  obtain ⟨config, memory, memorySize, cpu⟩ := emulator
  cases memory with
  | null => exact absurd rfl nonempty
  | ref bytes => rfl

theorem splice_buffer (emulator : Emulator) (start : Nat) (bytes : List (BitVec 8))
    (fits : start + bytes.length ≤ emulator.buffer.length) :
    (emulator.splice start bytes).buffer = Splice.splice emulator.buffer start bytes := by
  obtain ⟨config, memory, memorySize, cpu⟩ := emulator
  cases memory with
  | null =>
    have empty : bytes = [] := by
      apply List.eq_nil_of_length_eq_zero
      simp only [buffer, List.length_nil] at fits
      omega
    subst empty
    simp [splice, buffer, Ptr.map, Splice.splice]
  | ref content => rfl

theorem splice_eq_self_iff (emulator : Emulator) (start : Nat) (bytes : List (BitVec 8))
    (fits : start + bytes.length ≤ emulator.buffer.length) :
    emulator.splice start bytes = emulator ↔
      Splice.slice emulator.buffer start bytes.length = bytes := by
  rw [← Splice.splice_eq_self_iff emulator.buffer start bytes fits]
  constructor
  · intro same
    rw [← splice_buffer emulator start bytes fits, same]
  · intro same
    obtain ⟨config, memory, memorySize, cpu⟩ := emulator
    cases memory with
    | null => rfl
    | ref content =>
      simp only [buffer] at same
      simp [splice, Ptr.map, same]

theorem Backed.splice {emulator : Emulator} (backed : emulator.Backed) (start : Nat)
    (bytes : List (BitVec 8)) (fits : start + bytes.length ≤ emulator.memorySize.toNat) :
    (emulator.splice start bytes).Backed := by
  rw [← backed] at fits
  rw [Backed, splice_buffer emulator start bytes fits, Splice.splice_length _ _ _ fits]
  exact backed

end Emulator

theorem loadByte_correct (emulator : Emulator) (index : Nat) :
    loadByte emulator.memory index = emulator.buffer[index]? := by
  obtain ⟨config, memory, memorySize, cpu⟩ := emulator
  cases memory <;> rfl

theorem isInstructionAligned_correct (address : BitVec 64) :
    isInstructionAligned address = decide (4 ∣ address.toNat) :=
  decide_eq_decide.mpr (BitFields.and_mask_eq_zero_iff address 2 (by decide))

theorem memoryRangeIsValid_correct (emulator : Emulator) (guestAddress size : BitVec 64) :
    memoryRangeIsValid (.ref emulator) guestAddress size =
      decide (guestAddress.toNat + size.toNat ≤ emulator.memorySize.toNat) := by
  rw [memoryRangeIsValid]
  split
  next beyond =>
    rw [gt_iff_lt, BitVec.lt_def] at beyond
    rw [eq_comm, decide_eq_false_iff_not]
    omega
  next inside =>
    rw [gt_iff_lt, BitVec.lt_def] at inside
    apply decide_eq_decide.mpr
    rw [BitVec.le_def, BitVec.toNat_sub_of_le (by rw [BitVec.le_def]; omega)]
    omega

section Fetch

def truth (bytes : List (BitVec 8)) : BitVec 32 := if ∀ byte ∈ bytes, byte = 0 then 0 else 1

theorem truth_cons (byte : BitVec 8) (rest : List (BitVec 8)) :
    truth (byte :: rest) = if byte = 0 then truth rest else 1 := by
  by_cases zero : byte = 0#8 <;> simp [truth, zero]

theorem shifted_eq_zero_iff (byte : BitVec 8) (shift : Nat) (fits : shift ≤ 24) :
    byte.setWidth 32 <<< shift = 0 ↔ byte = 0 := by
  have byteBound := byte.isLt
  have scale := Nat.pow_le_pow_right (n := 2) (by omega) fits
  have positive := Nat.two_pow_pos shift
  have product : byte.toNat * 2 ^ shift < 2 ^ 32 :=
    calc byte.toNat * 2 ^ shift < 2 ^ 8 * 2 ^ shift := Nat.mul_lt_mul_of_pos_right byteBound positive
      _ ≤ 2 ^ 8 * 2 ^ 24 := Nat.mul_le_mul_left _ scale
  have small : byte.toNat % 2 ^ 32 = byte.toNat := Nat.mod_eq_of_lt (by omega)
  rw [BitVec.toNat_eq, BitVec.toNat_eq, BitVec.toNat_shiftLeft, BitVec.toNat_setWidth, small,
    Nat.shiftLeft_eq, Nat.mod_eq_of_lt product]
  simp only [BitVec.ofNat_eq_ofNat, BitVec.toNat_ofNat, Nat.zero_mod, Nat.mul_eq_zero]
  omega

theorem logicalOr_correct (load : Nat → Option (BitVec 8)) (byte : Nat → BitVec 8)
    (terms : List (Nat × Nat))
    (loads : ∀ term ∈ terms, load term.1 = some (byte term.1) ∧ term.2 ≤ 24) :
    logicalOr load terms = some (truth (terms.map fun term => byte term.1)) := by
  induction terms with
  | nil => simp [logicalOr, truth]
  | cons term rest ih =>
    obtain ⟨loaded, fits⟩ := loads term (by simp)
    have later := ih fun other member => loads other (List.mem_cons_of_mem _ member)
    have nonzero := shifted_eq_zero_iff (byte term.1) term.2 fits
    rw [logicalOr, loaded, later, List.map_cons, truth_cons]
    by_cases zero : byte term.1 = 0#8
    · simp [zero]
    · have shifted : (byte term.1).setWidth 32 <<< term.2 ≠ 0#32 := mt nonzero.mp zero
      simp [shifted, zero]

theorem readU32FromBytes_correct (load : Nat → Option (BitVec 8)) (bytes : List (BitVec 8))
    (length : bytes.length = 4) (loads : ∀ i < 4, load i = bytes[i]?) (endian : Endian) :
    readU32FromBytes load endian = some (truth bytes) := by
  obtain ⟨byte0, byte1, byte2, byte3, rfl⟩ := List.length_eq_four.mp length
  let byte (i : Nat) : BitVec 8 := [byte0, byte1, byte2, byte3].getD i 0
  have value (terms : List (Nat × Nat))
      (inside : ∀ term ∈ terms, term.1 < 4 ∧ term.2 ≤ 24) :
      logicalOr load terms = some (truth (terms.map fun term => byte term.1)) := by
    apply logicalOr_correct
    intro term member
    obtain ⟨index, fits⟩ := inside term member
    refine ⟨?_, fits⟩
    have loaded := loads term.1 index
    rw [loaded, List.getElem?_eq_getElem index]
    simp [byte, index]
  rw [readU32FromBytes]
  split
  · rw [value _ (by decide)]
    rfl
  · rw [value _ (by decide)]
    rfl

def fetchStatus (emulator : Emulator) (pc : BitVec 64) : Status :=
  if ¬ 4 ∣ pc.toNat then .unalignedPc
  else if emulator.memorySize.toNat < pc.toNat + 4 then .addressOutOfRange
  else .ok

def instructionBytes (emulator : Emulator) (pc : BitVec 64) : List (BitVec 8) :=
  Splice.slice emulator.buffer pc.toNat 4

def fetched (emulator : Emulator) (pc : BitVec 64) (otherwise : BitVec 32) : BitVec 32 :=
  if fetchStatus emulator pc = .ok then truth (instructionBytes emulator pc) else otherwise

theorem fetchStatus_ok_iff (emulator : Emulator) (pc : BitVec 64) :
    fetchStatus emulator pc = .ok ↔
      4 ∣ pc.toNat ∧ pc.toNat + 4 ≤ emulator.memorySize.toNat := by
  unfold fetchStatus
  split
  next unaligned => simp [unaligned]
  next aligned => split <;> simp <;> omega

variable {emulator : Emulator} (backed : emulator.Backed)

include backed

theorem fetchInstruction_correct (pc : BitVec 64) (out : BitVec 32) :
    fetchInstruction (.ref emulator) pc (.ref out) =
      some (fetchStatus emulator pc, .ref (fetched emulator pc out)) := by
  rw [fetchInstruction, isInstructionAligned_correct, memoryRangeIsValid_correct]
  by_cases aligned : 4 ∣ pc.toNat
  · by_cases inside : pc.toNat + 4 ≤ emulator.memorySize.toNat
    · have status := (fetchStatus_ok_iff emulator pc).mpr ⟨aligned, inside⟩
      have reach : pc.toNat + 4 ≤ emulator.buffer.length := backed.symm ▸ inside
      have assembled := readU32FromBytes_correct
        (fun index => loadByte emulator.memory (pc.toNat + index)) (instructionBytes emulator pc)
        (by simp only [instructionBytes, Splice.slice, List.length_take, List.length_drop]; omega)
        (fun i within => by
          rw [loadByte_correct, instructionBytes, Splice.slice, List.getElem?_take, if_pos within,
            List.getElem?_drop])
        emulator.config.endian
      simp [aligned, inside, instructionSize, assembled, fetched, status]
    · have status : fetchStatus emulator pc = .addressOutOfRange := by
        simp [fetchStatus, aligned, Nat.lt_of_not_le inside]
      simp [aligned, inside, instructionSize, fetched, status]
  · have status : fetchStatus emulator pc = .unalignedPc := by simp [fetchStatus, aligned]
    simp [aligned, fetched, status]

end Fetch

section Step

def stepStatus (emulator : Emulator) : Status :=
  if fetchStatus emulator emulator.cpu.pc = .ok then .notImplemented
  else fetchStatus emulator emulator.cpu.pc

def stepReport (emulator : Emulator) : StepInfo :=
  { pcBefore := emulator.cpu.pc
    pcAfter := emulator.cpu.pc
    instruction := fetched emulator emulator.cpu.pc 0
    stopReason :=
      if fetchStatus emulator emulator.cpu.pc = .ok then .stopNotImplemented
      else stopReasonFromStatus (fetchStatus emulator emulator.cpu.pc) }

def runReport (emulator : Emulator) (maxSteps : BitVec 64) : RunInfo :=
  { stepsExecuted := 0
    stepFinal := 0
    finalPc := emulator.cpu.pc
    stopReason :=
      if maxSteps = 0 then .stepLimit else stopReasonFromStatus (stepStatus emulator)
    lastStatus := if maxSteps = 0 then .stepLimitReached else stepStatus emulator }

theorem stepStatus_ne_ok (emulator : Emulator) : stepStatus emulator ≠ .ok := by
  unfold stepStatus
  split
  · simp
  next refused => exact refused

theorem stepStatus_aligned (emulator : Emulator) (aligned : 4 ∣ emulator.cpu.pc.toNat) :
    stepStatus emulator =
      if emulator.memorySize.toNat < emulator.cpu.pc.toNat + 4 then .addressOutOfRange
      else .notImplemented := by
  by_cases outside : emulator.memorySize.toNat < emulator.cpu.pc.toNat + 4
  · simp [stepStatus, fetchStatus, aligned, outside]
  · simp [stepStatus, fetchStatus, aligned, outside]

variable {emulator : Emulator} (backed : emulator.Backed)

include backed

theorem step_correct (outInfo : Ptr StepInfo) :
    step (.ref emulator) outInfo =
      some (stepStatus emulator, outInfo.map fun _ => stepReport emulator, .ref emulator) := by
  rw [step, fetchInstruction_correct backed]
  by_cases accepted : fetchStatus emulator emulator.cpu.pc = .ok
  · simp [accepted, stepStatus, stepReport]
  · simp [accepted, stepStatus, stepReport]

theorem runProgram_correct (maxSteps : BitVec 64) (outInfo : Ptr RunInfo) :
    runProgram (.ref emulator) maxSteps outInfo =
      some (if maxSteps = 0 then .stepLimitReached else stepStatus emulator,
        outInfo.map fun _ => runReport emulator maxSteps, .ref emulator) := by
  have quiet : stepQuietly emulator = some (stepStatus emulator, emulator) := by
    rw [stepQuietly, step_correct backed]
    rfl
  rw [runProgram, runProgramWith]
  by_cases none : maxSteps = 0#64
  · simp [none, runSteps, runReport]
  · obtain ⟨count, positive⟩ : ∃ count, maxSteps.toNat = count + 1 := by
      apply Nat.exists_eq_succ_of_ne_zero
      exact fun zero => none (BitVec.eq_of_toNat_eq zero)
    have stopped := stepStatus_ne_ok emulator
    simp [none, positive, runSteps, quiet, stopped, runReport]

end Step

section Write

/-- The bytes a call may read through a data pointer: none at all when the pointer is not valid for
the size. -/
def payload (data : Ptr (List (BitVec 8))) (size : BitVec 64) : Option (List (BitVec 8)) :=
  match data with
  | .null => if size = 0 then some [] else none
  | .ref bytes => if size.toNat ≤ bytes.length then some (bytes.take size.toNat) else none

theorem payload_empty (data : Ptr (List (BitVec 8))) : payload data 0 = some [] := by
  cases data <;> simp [payload]

theorem payload_null (size : BitVec 64) (positive : size ≠ 0) : payload .null size = none :=
  if_neg positive

theorem payload_length {data : Ptr (List (BitVec 8))} {size : BitVec 64}
    {bytes : List (BitVec 8)} (valid : payload data size = some bytes) :
    bytes.length = size.toNat := by
  cases data with
  | null =>
    simp only [payload, Option.ite_none_right_eq_some, Option.some.injEq] at valid
    obtain ⟨rfl, rfl⟩ := valid
    rfl
  | ref content =>
    simp only [payload, Option.ite_none_right_eq_some, Option.some.injEq] at valid
    obtain ⟨long, rfl⟩ := valid
    exact List.length_take_of_le long

variable {emulator : Emulator} (backed : emulator.Backed)

include backed

theorem payload_fits {start : Nat} {data : Ptr (List (BitVec 8))} {size : BitVec 64}
    {bytes : List (BitVec 8)} (valid : payload data size = some bytes)
    (inside : start + size.toNat ≤ emulator.memorySize.toNat) :
    start + bytes.length ≤ emulator.buffer.length := by
  rw [payload_length valid, backed]
  exact inside

theorem writeMemory_valid (guestAddress : BitVec 64) (data : Ptr (List (BitVec 8)))
    (size : BitVec 64) (bytes : List (BitVec 8)) (valid : payload data size = some bytes) :
    writeMemory (.ref emulator) guestAddress data size =
      some (if guestAddress.toNat + size.toNat ≤ emulator.memorySize.toNat then
        (.ok, .ref (emulator.splice guestAddress.toNat bytes))
      else (.addressOutOfRange, .ref emulator)) := by
  have pointer : ¬ (size ≠ 0 ∧ data = .null) := by
    rintro ⟨positive, rfl⟩
    rw [payload_null size positive] at valid
    cases valid
  have length := payload_length valid
  rw [writeMemory, if_neg pointer, memoryRangeIsValid_correct]
  by_cases inside : guestAddress.toNat + size.toNat ≤ emulator.memorySize.toNat
  · by_cases empty : size = 0#64
    · have nothing : bytes = [] := by
        apply List.eq_nil_of_length_eq_zero
        rw [length, empty]
        rfl
      simp [empty, nothing, Emulator.splice_nil, show guestAddress.toNat ≤ _ by
        simpa [empty] using inside]
    · have positive : size.toNat ≠ 0 := fun zero => empty (BitVec.eq_of_toNat_eq zero)
      have reach : guestAddress.toNat + size.toNat ≤ emulator.buffer.length :=
        backed.symm ▸ inside
      have memory := emulator.memory_of_buffer (by
        intro nothing
        rw [nothing, List.length_nil] at reach
        omega)
      cases data with
      | null => exact absurd ⟨empty, rfl⟩ pointer
      | ref content =>
        simp only [payload, Option.ite_none_right_eq_some, Option.some.injEq] at valid
        obtain ⟨long, rfl⟩ := valid
        simp [inside, empty, memcpy, memory, reach, long, Emulator.splice, Ptr.map]
  · simp [inside]

omit backed in
theorem writeMemory_invalid (guestAddress : BitVec 64) (data : Ptr (List (BitVec 8)))
    (size : BitVec 64) (invalid : payload data size = none) :
    writeMemory (.ref emulator) guestAddress data size =
      if data = .null then some (.invalidArgument, .ref emulator)
      else if guestAddress.toNat + size.toNat ≤ emulator.memorySize.toNat then none
      else some (.addressOutOfRange, .ref emulator) := by
  have positive : size ≠ 0#64 := by
    rintro rfl
    cases (payload_empty data).symm.trans invalid
  rw [writeMemory]
  cases data with
  | null => simp [positive]
  | ref content =>
    have short : ¬ size.toNat ≤ content.length := by
      intro long
      simp [payload, long] at invalid
    rw [memoryRangeIsValid_correct]
    by_cases inside : guestAddress.toNat + size.toNat ≤ emulator.memorySize.toNat
    · cases stored : emulator.memory <;> simp [inside, positive, memcpy, short]
    · simp [inside]

omit backed in
theorem setPc_correct (pc : BitVec 64) :
    setPc (.ref emulator) pc =
      if 4 ∣ pc.toNat then (.ok, .ref (emulator.movePc pc)) else (.unalignedPc, .ref emulator) := by
  have aligned : pc &&& 3 = 0 ↔ 4 ∣ pc.toNat := BitFields.and_mask_eq_zero_iff pc 2 (by decide)
  by_cases multiple : 4 ∣ pc.toNat
  · simp only [setPc, ne_eq, aligned.mpr multiple, not_true, if_false, multiple, if_true]
    rfl
  · simp only [setPc, ne_eq, aligned, multiple, not_false_eq_true, if_true, if_false]

theorem loadProgram_valid (image : ProgramImage) (bytes : List (BitVec 8))
    (valid : payload image.data image.size = some bytes) :
    loadProgram (.ref emulator) (.ref image) =
      some (if image.loadAddress.toNat + image.size.toNat ≤ emulator.memorySize.toNat then
        if image.setPcToEntry = 0 then
          (.ok, .ref (emulator.splice image.loadAddress.toNat bytes))
        else if 4 ∣ image.entryPoint.toNat then
          (.ok, .ref ((emulator.splice image.loadAddress.toNat bytes).movePc image.entryPoint))
        else (.unalignedPc, .ref (emulator.splice image.loadAddress.toNat bytes))
      else (.addressOutOfRange, .ref emulator)) := by
  have pointer : ¬ (image.size ≠ 0 ∧ image.data = .null) := by
    rintro ⟨positive, missing⟩
    rw [missing, payload_null image.size positive] at valid
    cases valid
  rw [loadProgram, if_neg pointer, writeMemory_valid backed _ _ _ bytes valid]
  by_cases inside : image.loadAddress.toNat + image.size.toNat ≤ emulator.memorySize.toNat
  · by_cases keep : image.setPcToEntry = 0#32
    · simp [inside, keep]
    · by_cases aligned : 4 ∣ image.entryPoint.toNat <;>
        simp [inside, keep, setPc_correct, aligned]
  · simp [inside]

omit backed in
theorem loadProgram_invalid (image : ProgramImage)
    (invalid : payload image.data image.size = none) :
    loadProgram (.ref emulator) (.ref image) =
      if image.data = .null then some (.invalidArgument, .ref emulator)
      else if image.loadAddress.toNat + image.size.toNat ≤ emulator.memorySize.toNat then none
      else some (.addressOutOfRange, .ref emulator) := by
  have positive : image.size ≠ 0#64 := by
    intro zero
    rw [zero] at invalid
    cases (payload_empty image.data).symm.trans invalid
  rw [loadProgram]
  by_cases missing : image.data = .null
  · simp [positive, missing]
  · rw [if_neg (fun pointer => missing pointer.2), writeMemory_invalid _ _ _ invalid,
      if_neg missing]
    by_cases inside :
        image.loadAddress.toNat + image.size.toNat ≤ emulator.memorySize.toNat <;>
      simp [inside]

def loaded (emulator : Emulator) (image : ProgramImage) (bytes : List (BitVec 8)) : Emulator :=
  if image.setPcToEntry = 0 then emulator.splice image.loadAddress.toNat bytes
  else (emulator.splice image.loadAddress.toNat bytes).movePc image.entryPoint

theorem loadProgram_ok_iff (image : ProgramImage) (next : Ptr Emulator) :
    loadProgram (.ref emulator) (.ref image) = some (.ok, next) ↔
      ∃ bytes, payload image.data image.size = some bytes ∧
        image.loadAddress.toNat + image.size.toNat ≤ emulator.memorySize.toNat ∧
        (image.setPcToEntry = 0 ∨ 4 ∣ image.entryPoint.toNat) ∧
        next = .ref (loaded emulator image bytes) := by
  cases valid : payload image.data image.size with
  | none =>
    rw [loadProgram_invalid _ valid]
    split
    · simp
    · split <;> simp
  | some bytes =>
    rw [loadProgram_valid backed _ _ valid]
    simp only [Option.some.injEq, exists_eq_left', loaded]
    by_cases inside : image.loadAddress.toNat + image.size.toNat ≤ emulator.memorySize.toNat
    · by_cases keep : image.setPcToEntry = 0#32
      · simp [inside, keep, eq_comm]
      · by_cases aligned : 4 ∣ image.entryPoint.toNat <;> simp [inside, keep, aligned, eq_comm]
    · simp [inside]

end Write

theorem machineReset_correct (emulator : Emulator) (status : Status) :
    machineReset (.ref emulator) status = some (.ok, .ref emulator.afterReset) := by
  rw [machineReset, cpuResetAt_memory]
  by_cases clear : emulator.config.clearMemoryOnReset = 0#32
  · simp [clear, Emulator.afterReset]
  · simp [clear, memsetBuffer, Emulator.afterReset]

def Config.Valid (config : Config) : Prop :=
  config.memorySize ≠ 0 ∧ (config.endian = .little ∨ config.endian = .big) ∧
    4 ∣ config.resetPc.toNat ∧ config.resetPc.toNat ≤ config.memorySize.toNat

instance (config : Config) : Decidable config.Valid :=
  inferInstanceAs (Decidable (_ ∧ _ ∧ _ ∧ _))

def fresh (config : Config) : Emulator :=
  { config := config
    memory := .ref (List.replicate config.memorySize.toNat 0)
    memorySize := config.memorySize
    cpu := Cpu.cleared config.resetPc }

theorem create_correct (emulatorAllocated memoryAllocated : Bool) (config : Config)
    (out : Ptr Emulator) (emulator : Emulator) :
    create emulatorAllocated memoryAllocated (.ref config) (.ref out) =
        (.ok, .ref (.ref emulator)) ↔
      emulatorAllocated = true ∧ memoryAllocated = true ∧ config.Valid ∧
        emulator = fresh config := by
  have endian : isValidEndian config.endian = true ↔
      config.endian = .little ∨ config.endian = .big := by
    simp [isValidEndian]
  rw [create, isInstructionAligned_correct]
  by_cases empty : config.memorySize = 0#64
  · simp [empty, Config.Valid]
  by_cases named : isValidEndian config.endian = true
  case neg => simp [empty, named, ← endian, Config.Valid]
  by_cases aligned : 4 ∣ config.resetPc.toNat
  case neg => simp [empty, named, aligned, Config.Valid]
  by_cases inside : config.resetPc.toNat ≤ config.memorySize.toNat
  case neg => simp [empty, named, aligned, inside, BitVec.lt_def, Nat.lt_of_not_le, Config.Valid]
  have beyond : ¬ config.resetPc > config.memorySize := by
    rw [gt_iff_lt, BitVec.lt_def]
    omega
  have valid : config.Valid := ⟨empty, endian.mp named, aligned, inside⟩
  have start : ({ gpr := Function.update (fun _ => 0) 0 0, pc := config.resetPc, hi := 0, lo := 0 } :
      Cpu) = Cpu.cleared config.resetPc := by
    rw [Function.update_eq_self_iff.mpr rfl]
    rfl
  cases emulatorAllocated with
  | false => simp [empty, named, aligned, beyond]
  | true =>
    cases memoryAllocated with
    | false => simp [empty, named, aligned, beyond, calloc]
    | true =>
      have built := congrArg (Emulator.mk config
        (.ref (List.replicate config.memorySize.toNat 0)) config.memorySize) start
      simp only [BitVec.ofNat_eq_ofNat, empty, named, aligned, beyond, valid, calloc, true_and,
        if_false, if_true, Bool.not_true, Bool.false_eq_true, decide_true, Prod.mk.injEq,
        Ptr.ref.injEq]
      exact ⟨fun same => same.symm.trans built, fun same => built.trans same.symm⟩

theorem configDefault_valid {out config : Config} (filled : configDefault (.ref out) = .ref config) :
    config.Valid := by
  simp only [configDefault, Ptr.map, Ptr.ref.injEq] at filled
  subst filled
  decide

end Mips64
