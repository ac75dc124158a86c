import Mathlib.Logic.Function.Basic
import Mips64Emulator.Shared.ByteOrder
import Mips64Emulator.X86.Format

set_option autoImplicit false

/-!
# The integer part of an x86-64 machine

A flag that an instruction leaves undefined is `none`, and so is the outcome of an instruction that
reads it, faults, or has no meaning given here. The parity and adjust flags are left out: no
instruction below reads them.
-/

namespace X86

abbrev Register := Fin 16

def rax : Register := 0
def rcx : Register := 1
def rdx : Register := 2
def rbx : Register := 3
def rsp : Register := 4
def rsi : Register := 6
def rdi : Register := 7
def r8 : Register := 8
def r9 : Register := 9
def r10 : Register := 10
def r11 : Register := 11
def r12 : Register := 12
def r13 : Register := 13
def r14 : Register := 14
def r15 : Register := 15

structure Flags where
  carry : Option Bool
  zero : Option Bool
  sign : Option Bool
  overflow : Option Bool
  deriving DecidableEq, Repr

def Flags.undefined : Flags := { carry := none, zero := none, sign := none, overflow := none }

-- The four bits of a condition code; its last bit negates the condition of the pair.
def Flags.holds (flags : Flags) (code : BitVec 4) : Option Bool := do
  let less : Option Bool := do
    let sign ← flags.sign
    let overflow ← flags.overflow
    some (sign != overflow)
  let condition ←
    if code >>> 1 = 0 then flags.overflow
    else if code >>> 1 = 1 then flags.carry
    else if code >>> 1 = 2 then flags.zero
    else if code >>> 1 = 3 then do
      let carry ← flags.carry
      let zero ← flags.zero
      some (carry || zero)
    else if code >>> 1 = 4 then flags.sign
    else if code >>> 1 = 6 then less
    else if code >>> 1 = 7 then do
      let less ← less
      let zero ← flags.zero
      some (less || zero)
    else none
  some (condition != code.getLsbD 0)

structure State where
  registers : Register → BitVec 64
  flags : Flags
  memory : BitVec 64 → Byte
  rip : BitVec 64

inductive Width where
  | dword
  | qword
  deriving DecidableEq, Repr

abbrev Width.bits : Width → Nat
  | dword => 32
  | qword => 64

structure Address where
  base : Option Register
  index : Option (Register × BitVec 2)
  displacement : BitVec 64
  ripRelative : Bool
  deriving DecidableEq, Repr

inductive Operand where
  | register (index : Register)
  | memory (address : Address)
  deriving DecidableEq, Repr

inductive Source where
  | operand (operand : Operand)
  | immediate (value : BitVec 64)
  deriving DecidableEq, Repr

inductive Alu where
  | add
  | or
  | and
  | sub
  | xor
  | cmp
  | test
  deriving DecidableEq, Repr

inductive Shift where
  | shl
  | shr
  | sar
  deriving DecidableEq, Repr

inductive Count where
  | immediate (count : Byte)
  | cl
  deriving DecidableEq, Repr

inductive Instruction where
  | alu (op : Alu) (width : Width) (destination : Operand) (source : Source)
  | mov (width : Width) (destination : Operand) (source : Source)
  | imul (width : Width) (destination : Register) (source : Operand)
  | shift (op : Shift) (width : Width) (destination : Operand) (count : Count)
  | idiv (width : Width) (divisor : Operand)
  | convert (width : Width)
  | set (code : BitVec 4) (destination : Register)
  | movzx (width : Width) (destination source : Register)
  | push (source : Register)
  | pop (destination : Register)
  | callNear (target : Operand)
  | call (offset : BitVec 64)
  | ret
  | jmp (offset : BitVec 64)
  | jcc (code : BitVec 4) (offset : BitVec 64)
  deriving DecidableEq, Repr

namespace State

def address (state : State) (address : Address) : BitVec 64 :=
  (address.base.map state.registers).getD 0 +
    (address.index.map fun (index, scale) => state.registers index <<< scale.toNat).getD 0 +
    (if address.ripRelative then state.rip else 0) + address.displacement

def load (state : State) (size : Nat) (start : BitVec 64) : BitVec (8 * size) :=
  ByteOrder.join (8 * size)
    ((List.range size).map fun i => state.memory (start + BitVec.ofNat 64 i))

def store (state : State) (start : BitVec 64) (bytes : List Byte) : State :=
  { state with
    memory := fun address =>
      (bytes[(address - start).toNat]?).getD (state.memory address) }

-- A write of 32 bits clears the upper half.
def setRegister (state : State) (index : Register) {n : Nat} (value : BitVec n) : State :=
  { state with registers := Function.update state.registers index (value.setWidth 64) }

def read (state : State) (width : Width) : Operand → BitVec width.bits
  | .register index => (state.registers index).setWidth width.bits
  | .memory address => (state.load (width.bits / 8) (state.address address)).setWidth width.bits

def write (state : State) (width : Width) (value : BitVec width.bits) : Operand → State
  | .register index => state.setRegister index value
  | .memory address =>
    state.store (state.address address) (ByteOrder.split (width.bits / 8) value)

def source (state : State) (width : Width) : Source → BitVec width.bits
  | .operand operand => state.read width operand
  | .immediate value => value.setWidth width.bits

def push (state : State) (value : BitVec 64) : State :=
  let top := state.registers rsp - 8
  (state.setRegister rsp top).store top (ByteOrder.split 8 value)

def jump (state : State) (offset : BitVec 64) : State := { state with rip := state.rip + offset }

theorem store_memory (state : State) (start : BitVec 64) (bytes : List Byte) (i : Nat)
    (inside : i < bytes.length) (bounded : bytes.length ≤ 2 ^ 64) :
    some ((state.store start bytes).memory (start + BitVec.ofNat 64 i)) = bytes[i]? := by
  have offset : (start + BitVec.ofNat 64 i - start).toNat = i := by
    rw [BitVec.add_comm, BitVec.add_sub_cancel, BitVec.toNat_ofNat, Nat.mod_eq_of_lt (by omega)]
  simp only [store, offset, List.getElem?_eq_getElem inside, Option.getD_some]

theorem load_store (state : State) (start : BitVec 64) (bytes : List Byte)
    (bounded : bytes.length ≤ 2 ^ 64) :
    (state.store start bytes).load bytes.length start =
      ByteOrder.join (8 * bytes.length) bytes := by
  have laid : (List.range bytes.length).map
      (fun i => (state.store start bytes).memory (start + BitVec.ofNat 64 i)) = bytes := by
    apply List.ext_getElem?
    intro i
    by_cases inside : i < bytes.length
    · rw [List.getElem?_map, List.getElem?_range inside, Option.map_some,
        store_memory state start bytes i inside bounded]
    · rw [List.getElem?_eq_none (by simpa using inside), List.getElem?_eq_none (by omega)]
  rw [load, laid]

theorem load_stored {n : Nat} (state other : State) (start : BitVec 64) (count : Nat)
    (value : BitVec n) (bounded : count ≤ 2 ^ 64)
    (stored : other.memory = (state.store start (ByteOrder.split count value)).memory) :
    other.load count start = value.setWidth (8 * count) := by
  have found := load_store state start (ByteOrder.split count value) (by simpa using bounded)
  rw [ByteOrder.split_length, ByteOrder.join_split_setWidth] at found
  simp only [load, stored] at found ⊢
  exact found

end State

namespace Alu

def value {n : Nat} (left right : BitVec n) : Alu → BitVec n
  | add => left + right
  | or => left ||| right
  | and => left &&& right
  | sub => left - right
  | xor => left ^^^ right
  | cmp => left - right
  | test => left &&& right

def flags {n : Nat} (left right : BitVec n) (op : Alu) : Flags :=
  let (carry, overflow) := match op with
    | add => (left.uaddOverflow right, left.saddOverflow right)
    | sub | cmp => (left.usubOverflow right, left.ssubOverflow right)
    | or | and | xor | test => (false, false)
  { carry := some carry
    zero := some (op.value left right = 0)
    sign := some (op.value left right).msb
    overflow := some overflow }

def keeps : Alu → Bool
  | cmp | test => false
  | _ => true

-- On overflow the operands differ in sign, and the sign of the difference is the wrong one.
theorem sub_sign {n : Nat} (left right : BitVec n) :
    ((left - right).msb != left.ssubOverflow right) = left.slt right := by
  by_cases overflow : left.ssubOverflow right = true
  · have leftSign : left.msb = decide (left.toInt < 0) := BitVec.msb_eq_toInt
    have rightSign : right.msb = decide (right.toInt < 0) := BitVec.msb_eq_toInt
    rw [BitVec.slt_eq_decide, BitVec.ssubOverflow_eq] at *
    cases leftMsb : left.msb <;> cases rightMsb : right.msb
    all_goals
      rw [leftMsb] at leftSign overflow
      rw [rightMsb] at rightSign overflow
      simp only [false_eq_decide_iff, true_eq_decide_iff] at leftSign rightSign
    · simp at overflow
    · have less : ¬ left.toInt < right.toInt := by omega
      simp [less]
    · have less : left.toInt < right.toInt := by omega
      simp [less]
    · simp at overflow
  · have same : left.toInt - right.toInt < 0 ↔ left.toInt < right.toInt := by omega
    rw [BitVec.msb_eq_toInt, BitVec.toInt_sub_of_not_ssubOverflow overflow, BitVec.slt_eq_decide,
      eq_false_of_ne_true overflow]
    simp [same]

theorem cmp_equal {n : Nat} (left right : BitVec n) :
    (flags left right cmp).holds 0x4 = some (decide (left = right)) := by
  have difference : left - right = 0#n ↔ left = right := by
    rw [BitVec.sub_eq_iff_eq_add, BitVec.zero_add]
  simp [flags, value, Flags.holds, difference]

theorem cmp_less {n : Nat} (left right : BitVec n) :
    (flags left right cmp).holds 0xC = some (left.slt right) := by
  simp [flags, value, Flags.holds, sub_sign]

end Alu

namespace Shift

def value {n : Nat} (operand : BitVec n) (count : Nat) : Shift → BitVec n
  | shl => operand <<< count
  | shr => operand >>> count
  | sar => operand.sshiftRight count

-- The last bit shifted out; overflow is defined for a count of one only.
def flags {n : Nat} (operand : BitVec n) (count : Nat) (before : Flags) (op : Shift) : Flags :=
  let result := op.value operand count
  let carry := match op with
    | shl => operand.getLsbD (n - count)
    | shr => operand.getLsbD (count - 1)
    | sar => (operand.sshiftRight (count - 1)).getLsbD 0
  let overflow := match op with
    | shl => result.msb != carry
    | shr => operand.msb
    | sar => false
  if count = 0 then before
  else
    { carry := some carry
      zero := some (result = 0)
      sign := some result.msb
      overflow := if count = 1 then some overflow else none }

end Shift

namespace Instruction

/-- One instruction, with `rip` already behind it. -/
def execute (state : State) : Instruction → Option State
  | alu op width destination source =>
    let left := state.read width destination
    let right := state.source width source
    let state := { state with flags := op.flags left right }
    some (if op.keeps then state.write width (op.value left right) destination else state)
  | mov width destination source =>
    some (state.write width (state.source width source) destination)
  | imul width destination source =>
    let left := state.read width (.register destination)
    let right := state.read width source
    let overflow := some (left.smulOverflow right)
    let flags := { Flags.undefined with carry := overflow, overflow := overflow }
    some ({ state with flags := flags }.setRegister destination (left * right))
  | shift op width destination count =>
    let operand := state.read width destination
    let count := match count with
      | .immediate count => count.toNat % width.bits
      | .cl => (state.registers rcx).toNat % width.bits
    let state := { state with flags := op.flags operand count state.flags }
    some (state.write width (op.value operand count) destination)
  | idiv width divisor =>
    let high := state.read width (.register rdx)
    let low := state.read width (.register rax)
    let dividend := (high ++ low).toInt
    let divisor := (state.read width divisor).toInt
    let quotient := dividend.tdiv divisor
    if divisor = 0 ∨ (BitVec.ofInt width.bits quotient).toInt ≠ quotient then none
    else
      let state := { state with flags := .undefined }
      let state := state.setRegister rax (BitVec.ofInt width.bits quotient)
      some (state.setRegister rdx (BitVec.ofInt width.bits (dividend.tmod divisor)))
  | convert width =>
    let low := state.read width (.register rax)
    some (state.setRegister rdx (if low.msb then BitVec.allOnes width.bits else 0))
  | set code destination => do
    let holds ← state.flags.holds code
    let upper := (state.registers destination).extractLsb' 8 56
    some (state.setRegister destination (upper ++ (BitVec.ofBool holds).setWidth 8))
  | movzx _ destination source =>
    some (state.setRegister destination ((state.registers source).setWidth 8))
  | push source => some (state.push (state.registers source))
  | pop destination =>
    let top := state.registers rsp
    let value := state.load 8 top
    some ((state.setRegister rsp (top + 8)).setRegister destination value)
  | callNear target =>
    let target := state.read .qword target
    some { state.push state.rip with rip := target }
  | call offset => some ((state.push state.rip).jump offset)
  | ret =>
    let top := state.registers rsp
    some { state.setRegister rsp (top + 8) with rip := (state.load 8 top).setWidth 64 }
  | jmp offset => some (state.jump offset)
  | jcc code offset => do
    let holds ← state.flags.holds code
    some (if holds then state.jump offset else state)

end Instruction

def registerNumber (extension : Bool) (low : BitVec 3) : Register :=
  ⟨8 * extension.toNat + low.toNat, by have bound := low.isLt; cases extension <;> simp <;> omega⟩

def signedBytes (bytes : List Byte) : BitVec 64 :=
  (ByteOrder.join (8 * bytes.length) bytes).signExtend 64

def groupOne (row : BitVec 3) : Option Alu :=
  [some .add, some .or, none, none, some .and, some .sub, some .xor, some .cmp][row.toNat]?.join

def groupTwo (row : BitVec 3) : Option Shift :=
  [none, none, none, none, some .shl, some .shr, none, some .sar][row.toNat]?.join

namespace Encoded

def rexBit (encoded : Encoded) (bit : Rex → Bool) : Bool := encoded.rex.any bit

def width (encoded : Encoded) : Width := if encoded.rexBit Rex.w then .qword else .dword

def regOperand (encoded : Encoded) (modrm : ModRm) : Register :=
  registerNumber (encoded.rexBit Rex.r) modrm.reg

def rmRegister (encoded : Encoded) (modrm : ModRm) : Register :=
  registerNumber (encoded.rexBit Rex.b) modrm.rm

-- Index 100 stands for no index; base 101 without a displacement of its own for no base.
def rmAddress (encoded : Encoded) (modrm : ModRm) : Address :=
  let displacement := signedBytes encoded.displacement
  match encoded.sib with
  | some sib =>
    let index := registerNumber (encoded.rexBit Rex.x) sib.index
    { base :=
        if modrm.mod = 0 ∧ sib.base = 5 then none
        else some (registerNumber (encoded.rexBit Rex.b) sib.base)
      index := if index = 4 then none else some (index, sib.scale)
      displacement := displacement
      ripRelative := false }
  | none =>
    let relative := modrm.mod = 0 ∧ modrm.rm = 5
    { base := if relative then none else some (encoded.rmRegister modrm)
      index := none
      displacement := displacement
      ripRelative := relative }

def rmOperand (encoded : Encoded) (modrm : ModRm) : Operand :=
  if modrm.mod = 3 then .register (encoded.rmRegister modrm)
  else .memory (encoded.rmAddress modrm)

-- Without a REX byte the numbers 4 to 7 name other bytes, which have no meaning here.
def byteRegister (encoded : Encoded) (modrm : ModRm) : Option Register :=
  if modrm.mod = 3 ∧ (encoded.rex.isSome ∨ modrm.rm.toNat < 4) then some (encoded.rmRegister modrm)
  else none

def twoOperand (encoded : Encoded) (modrm : ModRm) : Option Instruction :=
  let rm := encoded.rmOperand modrm
  let reg := Operand.register (encoded.regOperand modrm)
  let alu (op : Alu) := some (.alu op encoded.width rm (.operand reg))
  if encoded.opcode = 0x01 then alu .add
  else if encoded.opcode = 0x09 then alu .or
  else if encoded.opcode = 0x21 then alu .and
  else if encoded.opcode = 0x29 then alu .sub
  else if encoded.opcode = 0x31 then alu .xor
  else if encoded.opcode = 0x39 then alu .cmp
  else if encoded.opcode = 0x85 then alu .test
  else if encoded.opcode = 0x89 then some (.mov encoded.width rm (.operand reg))
  else if encoded.opcode = 0x8B then some (.mov encoded.width reg (.operand rm))
  else none

def oneOperand (encoded : Encoded) (modrm : ModRm) : Option Instruction :=
  let rm := encoded.rmOperand modrm
  let immediate := signedBytes encoded.immediate
  let shift (count : Count) :=
    (groupTwo modrm.reg).map fun op => .shift op encoded.width rm count
  if encoded.opcode = 0x81 ∨ encoded.opcode = 0x83 then
    (groupOne modrm.reg).map fun op => .alu op encoded.width rm (.immediate immediate)
  else if encoded.opcode = 0xC1 then shift (.immediate (encoded.immediate.headD 0))
  else if encoded.opcode = 0xD1 then shift (.immediate 1)
  else if encoded.opcode = 0xD3 then shift .cl
  else if encoded.opcode = 0xC7 ∧ modrm.reg = 0 then
    some (.mov encoded.width rm (.immediate immediate))
  else if encoded.opcode = 0xF7 ∧ modrm.reg = 7 then some (.idiv encoded.width rm)
  else if encoded.opcode = 0xFF ∧ modrm.reg = 2 then some (.callNear rm)
  else none

def noOperand (encoded : Encoded) : Option Instruction :=
  let register := registerNumber (encoded.rexBit Rex.b) (encoded.opcode.extractLsb' 0 3)
  let offset := signedBytes encoded.immediate
  if 0x50 ≤ encoded.opcode ∧ encoded.opcode ≤ 0x57 then some (.push register)
  else if 0x58 ≤ encoded.opcode ∧ encoded.opcode ≤ 0x5F then some (.pop register)
  else if encoded.opcode = 0x99 then some (.convert encoded.width)
  else if encoded.opcode = 0xC3 then some .ret
  else if encoded.opcode = 0xE8 then some (.call offset)
  else if encoded.opcode = 0xE9 then some (.jmp offset)
  else none

def escapedOperand (encoded : Encoded) (modrm : ModRm) : Option Instruction :=
  if encoded.opcode = 0xAF then
    some (.imul encoded.width (encoded.regOperand modrm) (encoded.rmOperand modrm))
  else if encoded.opcode = 0xB6 then
    (encoded.byteRegister modrm).map (.movzx encoded.width (encoded.regOperand modrm))
  else if encoded.opcode.extractLsb' 4 4 = 0x9 then
    (encoded.byteRegister modrm).map (.set (encoded.opcode.extractLsb' 0 4))
  else none

/-- What an encoded instruction does; SSE instructions are given no meaning. -/
def instruction (encoded : Encoded) : Option Instruction :=
  match encoded.legacy, encoded.escape, encoded.modrm with
  | none, false, some modrm => (encoded.twoOperand modrm).or (encoded.oneOperand modrm)
  | none, false, none => encoded.noOperand
  | none, true, some modrm => encoded.escapedOperand modrm
  | none, true, none =>
    some (.jcc (encoded.opcode.extractLsb' 0 4) (signedBytes encoded.immediate))
  | some _, _, _ => none

def size (encoded : Encoded) : BitVec 64 := BitVec.ofNat 64 encoded.bytes.length

def execute (encoded : Encoded) (state : State) : Option State :=
  encoded.instruction.bind fun instruction =>
    instruction.execute { state with rip := state.rip + encoded.size }

end Encoded

def executeAll : List Encoded → State → Option State
  | [], state => some state
  | encoded :: rest, state => do
    let next ← encoded.execute state
    if next.rip = state.rip + encoded.size then executeAll rest next else some next

/-- Runs the bytes at `rip` until control leaves their row. -/
def run (bytes : List Byte) (state : State) : Option State := do
  let instructions ← sweep bytes
  executeAll instructions state

end X86
