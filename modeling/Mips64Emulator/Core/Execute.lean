import Mips64Emulator.Core.Cpu
import Mips64Emulator.Core.Decode

set_option autoImplicit false

namespace Mips64

def signExtension (value : BitVec 16) : BitVec 64 := value.signExtend 64

def executeNop (cpu : Ptr Cpu) (instruction : Ptr Decoded) : Option (Status × Ptr Cpu) :=
  match cpu, instruction with
  | .ref cpu, .ref _ => some (.ok, .ref { cpu with pc := cpu.pc + 4 })
  | _, _ => some (.invalidArgument, cpu)

-- The tail the handlers share: `if (target != 0) gpr[target] = result; gpr[0] = 0; pc += 4`.
def Cpu.retire (cpu : Cpu) (target : BitVec 8) (result : BitVec 64) :
    Option (Status × Ptr Cpu) := do
  let cpu ← cpu.assign target.toNat result
  some (.ok, .ref { cpu with pc := cpu.pc + 4 })

def executeDaddiu (cpu : Ptr Cpu) (instruction : Ptr Decoded) : Option (Status × Ptr Cpu) :=
  match cpu, instruction with
  | .ref cpu, .ref instruction => do
    let source ← cpu.load instruction.rs.toNat
    let immediate := signExtension instruction.immediate
    let result := source + immediate
    cpu.retire instruction.rt result
  | _, _ => some (.invalidArgument, cpu)

-- `(int64_t)(int32_t)(uint32_t)value`.
def lowWord (value : BitVec 64) : BitVec 64 := (value.setWidth 32).signExtend 64

def executeAddu (cpu : Ptr Cpu) (instruction : Ptr Decoded) : Option (Status × Ptr Cpu) :=
  match cpu, instruction with
  | .ref cpu, .ref instruction => do
    let left ← cpu.load instruction.rs.toNat
    let right ← cpu.load instruction.rt.toNat
    let temp := lowWord left + lowWord right
    cpu.retire instruction.rd (lowWord temp)
  | _, _ => some (.invalidArgument, cpu)

def executeAdd (cpu : Ptr Cpu) (instruction : Ptr Decoded) : Option (Status × Ptr Cpu) :=
  match cpu, instruction with
  | .ref object, .ref instruction => do
    let left ← object.load instruction.rs.toNat
    let right ← object.load instruction.rt.toNat
    let temp := lowWord left + lowWord right
    if temp.toInt > 2 ^ 31 - 1 ∨ temp.toInt < -2 ^ 31 then some (.integerOverflow, cpu)
    else object.retire instruction.rd (lowWord temp)
  | _, _ => some (.invalidArgument, cpu)

-- The one handler that dereferences both pointers without a test.
def executeDaddu (cpu : Ptr Cpu) (instruction : Ptr Decoded) : Option (Status × Ptr Cpu) :=
  match cpu, instruction with
  | .ref cpu, .ref instruction => do
    let left ← cpu.load instruction.rs.toNat
    let right ← cpu.load instruction.rt.toNat
    let result := left + right
    cpu.retire instruction.rd result
  | _, _ => none

def executeSpecial (cpu : Ptr Cpu) (instruction : Ptr Decoded) : Option (Status × Ptr Cpu) :=
  match cpu, instruction with
  | .null, _ => some (.invalidArgument, .null)
  | .ref _, .null => none
  | .ref _, .ref decoded =>
    if decoded.function = functDaddu then executeDaddu cpu instruction
    else some (.notImplemented, cpu)

def cpuExecute (cpu : Ptr Cpu) (rawInstruction : Ptr Decoded) : Option (Status × Ptr Cpu) :=
  match cpu, rawInstruction with
  | .ref _, .ref decoded =>
    if decoded.raw = 0 then executeNop cpu rawInstruction
    else if decoded.opcode = opcodeSpecial then executeSpecial cpu rawInstruction
    else if decoded.opcode = opcodeDaddiu then executeDaddiu cpu rawInstruction
    else some (.notImplemented, cpu)
  | _, _ => some (.invalidArgument, cpu)

def Cpu.advance (cpu : Cpu) : Cpu := { cpu with pc := cpu.pc + 4 }

namespace Cpu

@[simp] theorem advance_gpr (cpu : Cpu) : cpu.advance.gpr = cpu.gpr := rfl

@[simp] theorem advance_pc (cpu : Cpu) : cpu.advance.pc = cpu.pc + 4 := rfl

@[simp] theorem advance_hi (cpu : Cpu) : cpu.advance.hi = cpu.hi := rfl

@[simp] theorem advance_lo (cpu : Cpu) : cpu.advance.lo = cpu.lo := rfl

theorem retire_correct (cpu : Cpu) (target : BitVec 8) (index : Fin gprCount)
    (same : target.toNat = index) (result : BitVec 64) :
    cpu.retire target result = some (.ok, .ref (cpu.write index result).advance) := by
  simp [retire, same, assign_correct, advance]

end Cpu

section Handlers

variable (cpu : Cpu) (decoded : Decoded) (rs rt rd : Fin gprCount)
  (sourceIs : decoded.rs.toNat = rs) (otherIs : decoded.rt.toNat = rt)
  (targetIs : decoded.rd.toNat = rd)

include sourceIs otherIs in
theorem executeDaddiu_correct :
    executeDaddiu (.ref cpu) (.ref decoded) =
      some (.ok, .ref (cpu.write rt (cpu.gpr rs + signExtension decoded.immediate)).advance) := by
  simp [executeDaddiu, sourceIs, cpu.load_correct, cpu.retire_correct _ rt otherIs]

include sourceIs otherIs targetIs in
theorem executeDaddu_correct :
    executeDaddu (.ref cpu) (.ref decoded) =
      some (.ok, .ref (cpu.write rd (cpu.gpr rs + cpu.gpr rt)).advance) := by
  simp [executeDaddu, sourceIs, otherIs, cpu.load_correct, cpu.retire_correct _ rd targetIs]

end Handlers

end Mips64
