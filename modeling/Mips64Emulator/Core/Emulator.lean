import Mips64Emulator.Core.Layout
import Mips64Emulator.Shared.Splice

set_option autoImplicit false

namespace Mips64

-- `calloc`: the buffer of zeros, or NULL when the allocation fails.
def calloc (allocated : Bool) (count : BitVec 64) : Ptr (List (BitVec 8)) :=
  if allocated then .ref (List.replicate count.toNat 0) else .null

-- `memcpy(buffer + offset, source, count)` with `count` not zero.
def memcpy (buffer : Ptr (List (BitVec 8))) (offset count : Nat)
    (source : Ptr (List (BitVec 8))) : Option (Ptr (List (BitVec 8))) :=
  match buffer, source with
  | .ref buffer, .ref source =>
    if offset + count ≤ buffer.length ∧ count ≤ source.length then
      some (.ref (Splice.splice buffer offset (source.take count)))
    else none
  | _, _ => none

-- `memset(buffer, 0, count)`. A count of zero touches no byte, through NULL neither.
def memsetBuffer (buffer : Ptr (List (BitVec 8))) (count : Nat) :
    Option (Ptr (List (BitVec 8))) :=
  match buffer with
  | .null => if count = 0 then some .null else none
  | .ref buffer =>
    if count ≤ buffer.length then
      some (.ref (Splice.splice buffer 0 (List.replicate count 0)))
    else none

def loadByte (buffer : Ptr (List (BitVec 8))) (index : Nat) : Option (BitVec 8) :=
  match buffer with
  | .null => none
  | .ref buffer => buffer[index]?

def instructionSize : BitVec 64 := 4

def isValidEndian (endian : Endian) : Bool := endian = .little || endian = .big

def isInstructionAligned (address : BitVec 64) : Bool := address &&& 3 = 0

def memoryRangeIsValid (emulator : Ptr Emulator) (guestAddress size : BitVec 64) : Bool :=
  match emulator with
  | .null => false
  | .ref emulator =>
    if guestAddress > emulator.memorySize then false
    else size ≤ emulator.memorySize - guestAddress

/-- `term || term || …` over shifted bytes: the first term that is not zero ends the evaluation, and
the value is 0 or 1. -/
def logicalOr (bytes : Nat → Option (BitVec 8)) : List (Nat × Nat) → Option (BitVec 32)
  | [] => some 0
  | (index, shift) :: rest => do
    let byte ← bytes index
    if byte.setWidth 32 <<< shift ≠ 0 then some 1 else logicalOr bytes rest

def readU32FromBytes (bytes : Nat → Option (BitVec 8)) (endian : Endian) : Option (BitVec 32) :=
  if endian = .big then logicalOr bytes [(0, 24), (1, 16), (2, 8), (3, 0)]
  else logicalOr bytes [(0, 0), (1, 8), (2, 16), (3, 24)]

def fetchInstruction (emulator : Ptr Emulator) (pc : BitVec 64)
    (outInstruction : Ptr (BitVec 32)) : Option (Status × Ptr (BitVec 32)) :=
  match emulator, outInstruction with
  | .ref emulator, .ref _ =>
    if !isInstructionAligned pc then some (.unalignedPc, outInstruction)
    else if !memoryRangeIsValid (.ref emulator) pc instructionSize then
      some (.addressOutOfRange, outInstruction)
    else do
      let word ← readU32FromBytes (fun index => loadByte emulator.memory (pc.toNat + index))
        emulator.config.endian
      some (.ok, .ref word)
  | _, _ => some (.invalidArgument, outInstruction)

def stopReasonFromStatus : Status → StopReason
  | .ok => .none
  | .notImplemented => .notImplemented
  | .stepLimitReached => .stepLimit
  | _ => .error

def configDefault (outConfig : Ptr Config) : Ptr Config := outConfig.map fun _ =>
  { memorySize := 1024 * 1024, resetPc := 0, endian := .big, clearMemoryOnReset := 1 }

-- The two allocations may fail; `out` is `*out_emulator`.
def create (emulatorAllocated memoryAllocated : Bool) (config : Ptr Config)
    (outEmulator : Ptr (Ptr Emulator)) : Status × Ptr (Ptr Emulator) :=
  match config, outEmulator with
  | .ref config, .ref _ =>
    if config.memorySize = 0 then (.invalidArgument, .ref .null)
    else if !isValidEndian config.endian then (.invalidArgument, .ref .null)
    else if !isInstructionAligned config.resetPc then (.unalignedPc, .ref .null)
    else if config.resetPc > config.memorySize then (.addressOutOfRange, .ref .null)
    else if !emulatorAllocated then (.outOfMemory, .ref .null)
    else
      match calloc memoryAllocated config.memorySize with
      | .null => (.outOfMemory, .ref .null)
      | .ref memory =>
        let cpu : Cpu :=
          { gpr := Function.update (fun _ => 0) 0 0, pc := config.resetPc, hi := 0, lo := 0 }
        (.ok, .ref (.ref
          { config := config, memory := .ref memory, memorySize := config.memorySize, cpu := cpu }))
  | _, _ => (.invalidArgument, outEmulator)

def writeMemory (emulator : Ptr Emulator) (guestAddress : BitVec 64)
    (data : Ptr (List (BitVec 8))) (size : BitVec 64) : Option (Status × Ptr Emulator) :=
  match emulator with
  | .null => some (.invalidArgument, .null)
  | .ref emulator =>
    if size ≠ 0 ∧ data = .null then some (.invalidArgument, .ref emulator)
    else if !memoryRangeIsValid (.ref emulator) guestAddress size then
      some (.addressOutOfRange, .ref emulator)
    else if size ≠ 0 then do
      let memory ← memcpy emulator.memory guestAddress.toNat size.toNat data
      some (.ok, .ref { emulator with memory := memory })
    else some (.ok, .ref emulator)

def setPc (emulator : Ptr Emulator) (pc : BitVec 64) : Status × Ptr Emulator :=
  match emulator with
  | .null => (.invalidArgument, .null)
  | .ref emulator =>
    if pc &&& 3 ≠ 0 then (.unalignedPc, .ref emulator)
    else (.ok, .ref { emulator with cpu := { emulator.cpu with pc := pc } })

def loadProgram (emulator : Ptr Emulator) (image : Ptr ProgramImage) :
    Option (Status × Ptr Emulator) :=
  match emulator, image with
  | .ref emulator, .ref image =>
    if image.size ≠ 0 ∧ image.data = .null then some (.invalidArgument, .ref emulator)
    else do
      let (status, emulator) ←
        writeMemory (.ref emulator) image.loadAddress image.data image.size
      if status ≠ .ok then some (status, emulator)
      else if image.setPcToEntry ≠ 0 then
        let (status, emulator) := setPc emulator image.entryPoint
        if status ≠ .ok then some (status, emulator)
        else some (.ok, emulator)
      else some (.ok, emulator)
  | _, _ => some (.invalidArgument, emulator)

def step (emulator : Ptr Emulator) (outInfo : Ptr StepInfo) :
    Option (Status × Ptr StepInfo × Ptr Emulator) :=
  match emulator with
  | .null => some (.invalidArgument, outInfo, .null)
  | .ref emulator => do
    let (status, instruction) ← fetchInstruction (.ref emulator) emulator.cpu.pc (.ref 0)
    let instruction ← match instruction with
      | .null => none
      | .ref instruction => some instruction
    let report (stopReason : StopReason) : Ptr StepInfo := outInfo.map fun _ =>
      { pcBefore := emulator.cpu.pc
        pcAfter := emulator.cpu.pc
        instruction := instruction
        stopReason := stopReason }
    if status ≠ .ok then some (status, report (stopReasonFromStatus status), .ref emulator)
    else some (.notImplemented, report .stopNotImplemented, .ref emulator)

-- `for (i = 0; i < max_steps; ++i)`: the status of the first step that is not OK, if any.
def runSteps {State : Type} (step : State → Option (Status × State)) :
    Nat → State → Option (Option Status × State)
  | 0, state => some (none, state)
  | count + 1, state => do
    let (status, state) ← step state
    if status ≠ .ok then some (some status, state) else runSteps step count state

/-- `mips64_run_program` over any step; the loop never advances `step_index`. -/
def runProgramWith (step : Emulator → Option (Status × Emulator)) (emulator : Ptr Emulator)
    (maxSteps : BitVec 64) (outInfo : Ptr RunInfo) :
    Option (Status × Ptr RunInfo × Ptr Emulator) :=
  match emulator with
  | .null => some (.invalidArgument, outInfo, .null)
  | .ref emulator => do
    let stepIndex : BitVec 64 := 0
    let (stopped, emulator) ← runSteps step maxSteps.toNat emulator
    let report (stepsExecuted : BitVec 64) (lastStatus : Status) (stopReason : StopReason) :
        Ptr RunInfo := outInfo.map fun _ =>
      { stepsExecuted := stepsExecuted
        stepFinal := 0
        finalPc := emulator.cpu.pc
        stopReason := stopReason
        lastStatus := lastStatus }
    match stopped with
    | some status =>
      some (status, report stepIndex status (stopReasonFromStatus status), .ref emulator)
    | none => some (.stepLimitReached, report maxSteps .stepLimitReached .stepLimit, .ref emulator)

-- `mips64_step(emulator, NULL)` as the loop calls it.
def stepQuietly (emulator : Emulator) : Option (Status × Emulator) := do
  let (status, _, emulator) ← step (.ref emulator) .null
  match emulator with
  | .null => none
  | .ref emulator => some (status, emulator)

def runProgram (emulator : Ptr Emulator) (maxSteps : BitVec 64) (outInfo : Ptr RunInfo) :
    Option (Status × Ptr RunInfo × Ptr Emulator) :=
  runProgramWith stepQuietly emulator maxSteps outInfo

def getPc (emulator : Ptr Emulator) (outPc : Ptr (BitVec 64)) : Status × Ptr (BitVec 64) :=
  match emulator, outPc with
  | .ref emulator, .ref _ => (.ok, .ref emulator.cpu.pc)
  | _, _ => (.invalidArgument, outPc)

-- Neither of the two looks at its register.
def getGpr (emulator : Ptr Emulator) (_index : BitVec 32) (out : Ptr (BitVec 64)) :
    Status × Ptr (BitVec 64) :=
  match emulator with
  | .null => (.invalidArgument, out)
  | .ref _ => (.ok, out)

def setGpr (emulator : Ptr Emulator) (_index : BitVec 32) (_value : BitVec 64) :
    Status × Ptr Emulator :=
  match emulator with
  | .null => (.invalidArgument, .null)
  | .ref emulator => (.ok, .ref emulator)

def readMemory (emulator : Ptr Emulator) (_guestAddress : BitVec 64)
    (outData : Ptr (List (BitVec 8))) (_size : BitVec 64) : Status × Ptr (List (BitVec 8)) :=
  match emulator, outData with
  | .ref _, .ref _ => (.notImplemented, outData)
  | _, _ => (.invalidArgument, outData)

def coreName : String := "MIPS64 Emulator"

def coreVersionString : String := "0.1.0"

-- `%0*x` and `%0*u`.
def padded (width base value : Nat) : String :=
  String.ofList ((Nat.toDigits base value).leftpad width '0')

/-- The calls of `write_fn`, up to the first line that does not fit the buffer of 128 characters. -/
def writeLines : List String → Status × List String
  | [] => (.ok, [])
  | line :: rest =>
    if line.length ≥ 128 then (.internalError, [])
    else
      let (status, lines) := writeLines rest
      (status, line :: lines)

def debugLines (emulator : Emulator) : List String :=
  let header := coreName ++ " " ++ coreVersionString ++ "\nPC = 0x" ++
    padded 64 16 emulator.cpu.pc.toNat ++ "\n"
  header :: (List.finRange gprCount).map fun index =>
    let value := if index = 0 then 0 else emulator.cpu.gpr index
    "r" ++ padded 2 10 index ++ " = 0x" ++ padded 16 16 value.toNat ++ "\n"

-- `writeFn` stands for the callback: NULL, or one that sees the lines and nothing else.
def debugDump (emulator : Ptr Emulator) (writeFn : Ptr Unit) : Status × List String :=
  match emulator, writeFn with
  | .ref emulator, .ref _ => writeLines (debugLines emulator)
  | _, _ => (.invalidArgument, [])

def machineReset (emulator : Ptr Emulator) (_status : Status) : Option (Status × Ptr Emulator) :=
  match emulator with
  | .null => some (.invalidArgument, .null)
  | .ref emulator => do
    -- `mips64_cpu_reset(&emulator->memory, …)`.
    let (status, emulator) ←
      cpuResetAt emulator Member.memory.offset emulator.config.resetPc
    if status ≠ .ok then some (status, .ref emulator)
    else if emulator.config.clearMemoryOnReset ≠ 0 then do
      let memory ← memsetBuffer emulator.memory emulator.memorySize.toNat
      some (.ok, .ref { emulator with memory := memory })
    else some (.ok, .ref emulator)

end Mips64
