import Mips64Emulator.Core.Cpu

set_option autoImplicit false

/-!
# `struct Mips64Emulator` and its layout

The members in declaration order on an LP64 target, for the calls that reach a member through the
address of another.
-/

namespace Mips64

structure Emulator where
  config : Config
  memory : Ptr (List (BitVec 8))
  memorySize : BitVec 64
  cpu : Cpu

inductive Member where
  | configMemorySize
  | configResetPc
  | configEndian
  | configClearMemoryOnReset
  | memory
  | memorySize
  | cpuGpr (index : Fin gprCount)
  | cpuPc
  | cpuHi
  | cpuLo

namespace Member

def offset : Member → Nat
  | configMemorySize => 0
  | configResetPc => 8
  | configEndian => 16
  | configClearMemoryOnReset => 20
  | memory => 24
  | memorySize => 32
  | cpuGpr index => 40 + 8 * index
  | cpuPc => 296
  | cpuHi => 304
  | cpuLo => 312

def size : Member → Nat
  | configEndian => 4
  | configClearMemoryOnReset => 4
  | _ => 8

end Member

-- `offsetof(struct Mips64Emulator, cpu)`, `sizeof(Mips64CPU)` and `offsetof(Mips64CPU, pc)`.
def offsetOfCpu : Nat := 40
def sizeOfCpu : Nat := 280
def offsetOfPc : Nat := 256

/-- Whether `count` bytes from `start` on cover the member. A range of whole eight-byte words never
covers a part of one. -/
def Member.within (member : Member) (start count : Nat) : Bool :=
  start ≤ member.offset ∧ member.offset + member.size ≤ start + count

-- `memset((char*)emulator + start, 0, count)`.
def Emulator.memset (emulator : Emulator) (start count : Nat) : Emulator :=
  let cleared (member : Member) : Bool := member.within start count
  { config :=
      { memorySize := if cleared .configMemorySize then 0 else emulator.config.memorySize
        resetPc := if cleared .configResetPc then 0 else emulator.config.resetPc
        endian := if cleared .configEndian then .little else emulator.config.endian
        clearMemoryOnReset :=
          if cleared .configClearMemoryOnReset then 0 else emulator.config.clearMemoryOnReset }
    memory := if cleared .memory then .null else emulator.memory
    memorySize := if cleared .memorySize then 0 else emulator.memorySize
    cpu :=
      { gpr := fun index => if cleared (.cpuGpr index) then 0 else emulator.cpu.gpr index
        pc := if cleared .cpuPc then 0 else emulator.cpu.pc
        hi := if cleared .cpuHi then 0 else emulator.cpu.hi
        lo := if cleared .cpuLo then 0 else emulator.cpu.lo } }

-- `*(uint64_t*)((char*)emulator + offset) = value`, for the offset of a register of the CPU.
def Emulator.store64 (emulator : Emulator) (offset : Nat) (value : BitVec 64) : Option Emulator :=
  if offset = Member.cpuPc.offset then
    some { emulator with cpu := { emulator.cpu with pc := value } }
  else if offset = Member.cpuHi.offset then
    some { emulator with cpu := { emulator.cpu with hi := value } }
  else if offset = Member.cpuLo.offset then
    some { emulator with cpu := { emulator.cpu with lo := value } }
  else if offset < offsetOfCpu ∨ offset % 8 ≠ 0 then none
  else (emulator.cpu.store ((offset - offsetOfCpu) / 8) value).map fun cpu =>
    { emulator with cpu := cpu }

-- `mips64_cpu_reset` on whatever lies `cpu` bytes into the struct.
def cpuResetAt (emulator : Emulator) (cpu : Nat) (resetPc : BitVec 64) :
    Option (Status × Emulator) := do
  let cleared := emulator.memset cpu sizeOfCpu
  let emulator ← cleared.store64 (cpu + offsetOfPc) resetPc
  some (.ok, emulator)

/-- On the address of the `memory` member, sixteen bytes in front of the CPU, the last two words of
the CPU are out of reach and the new pc lands in register 30. -/
theorem cpuResetAt_memory (emulator : Emulator) (resetPc : BitVec 64) :
    cpuResetAt emulator Member.memory.offset resetPc =
      some (.ok,
        { config := emulator.config
          memory := .null
          memorySize := 0
          cpu :=
            { gpr := Function.update (fun _ => 0) 30 resetPc
              pc := 0
              hi := emulator.cpu.hi
              lo := emulator.cpu.lo } }) := by
  have gprs (index : Fin gprCount) :
      (Member.cpuGpr index).within Member.memory.offset sizeOfCpu = true := by
    have bound : (index : Nat) < 32 := index.isLt
    rw [Member.within, decide_eq_true_eq]
    simp only [Member.offset, Member.size, sizeOfCpu]
    omega
  simp only [cpuResetAt, Emulator.memset, gprs]
  rfl

end Mips64
