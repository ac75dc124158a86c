import Mips64Emulator.Jit.FloatCode
import Mips64Emulator.Jit.LoadedTransfers

set_option autoImplicit false

/-!
# Programs of calls

A row of calls, read by what their names say. Calls whose code does something else have no place in
it, nor has `JIT_LOADF`: emitting it stores through a pointer left in `info1`. `JIT_LESSF` is read as
its code goes.
-/

namespace Jit

open X86

inductive JitTarget where
  | re
  | register (index : JitRegister)
  deriving DecidableEq, Repr

namespace JitTarget

def number (abi : Abi) : JitTarget → Register
  | re => rax
  | register index => index.number abi

def int (abi : Abi) (target : JitTarget) : BitVec 32 := intOfRegister (target.number abi)

def operand : JitTarget → JitInteger
  | re => .re
  | register index => .register index

theorem number_ne_rsp (abi : Abi) (target : JitTarget) : target.number abi ≠ rsp := by
  have distinct : rax ≠ rsp := by decide
  cases target with
  | re => exact distinct
  | register index => exact index.number_ne_rsp abi

@[simp] theorem operand_number? (abi : Abi) (target : JitTarget) :
    target.operand.number? abi = some (target.number abi) := by
  cases target <;> rfl

theorem number_inj (abi : Abi) (left right : JitTarget) :
    left.number abi = right.number abi ↔ left = right := by
  cases left with
  | re =>
    cases right with
    | re => simp
    | register right => simpa [number] using (right.number_ne_rax abi).symm
  | register left =>
    cases right with
    | re => simpa [number] using left.number_ne_rax abi
    | register right => simpa [number] using JitRegister.number_inj abi left right

end JitTarget

inductive FloatStatement where
  | operatef (op : FloatOp) (span : Span) (d s t : Register)
  | lessf (d : JitTarget) (s t : Register)
  | itof (d : Register) (s : JitInteger)
  | ftoi (d : JitTarget) (s : Register)
  | loadf4 (d : Register) (b : JitBase) (o : BitVec 32)
  | storef (span : Span) (b : JitBase) (o : BitVec 32) (v : Register)
  deriving DecidableEq, Repr

inductive Statement where
  | operate (op : Operation) (d : JitTarget) (s t : JitInteger)
  | shift (op : ShiftOperation) (d s t : JitTarget)
  | divide (d s t : JitTarget)
  | constant (d : JitTarget) (i : BitVec 32)
  | load (width : Width) (d : JitTarget) (b : JitBase) (o : BitVec 32)
  | store (width : Width) (b v : JitRegister)
  | jump (o : BitVec 32)
  | branch (s t : JitInteger) (o : BitVec 32)
  | nbranch (s t : JitInteger) (o : BitVec 32)
  | call (o : BitVec 32)
  | callex (s : JitTarget)
  | return
  | float (statement : FloatStatement)
  deriving DecidableEq, Repr

namespace FloatStatement

def toCall (abi : Abi) : FloatStatement → JitCall
  | operatef op span d s t => floatCall (intOfRegister d) (intOfRegister s) (intOfRegister t) op span
  | lessf d s t => .lessf (d.int abi) (intOfRegister s) (intOfRegister t)
  | itof d s => .itof (intOfRegister d) (s.int abi)
  | ftoi d s => .ftoi (d.int abi) (intOfRegister s)
  | loadf4 d b o => loadfCall (intOfRegister d) (b.int abi) o .packed
  | storef span b o v => storefCall (b.int abi) o (intOfRegister v) span

def Faithful (abi : Abi) : FloatStatement → Prop
  | operatef _ _ d s t => d = t → s = t
  | loadf4 _ b _ | storef _ b _ _ => b.number abi ≠ r12
  | lessf .. | itof .. | ftoi .. => True

instance (abi : Abi) (statement : FloatStatement) : Decidable (statement.Faithful abi) :=
  match statement with
  | operatef _ _ d s t => inferInstanceAs (Decidable (d = t → s = t))
  | loadf4 _ b _ | storef _ b _ _ => inferInstanceAs (Decidable (b.number abi ≠ r12))
  | lessf .. | itof .. | ftoi .. => inferInstanceAs (Decidable True)

def destination : FloatStatement → Option JitTarget
  | lessf d .. | ftoi d _ => some d
  | operatef .. | itof .. | loadf4 .. | storef .. => none

def vectorDestination : FloatStatement → Option Register
  | operatef _ _ d _ _ | itof d _ | loadf4 d _ _ => some d
  | lessf .. | ftoi .. | storef .. => none

end FloatStatement

namespace Statement

-- A constant is added to `JIT_R0`. A store has the number of its register for a displacement.
def toCall (abi : Abi) : Statement → JitCall
  | operate op d s t => op.call (d.int abi) (s.int abi) (t.int abi)
  | shift op d s t => op.call (d.int abi) (s.int abi) (t.int abi)
  | divide d s t => .div (d.int abi) (s.int abi) (t.int abi)
  | constant d i => .addi (d.int abi) jitR0 i
  | load width d b o => loadCall (d.int abi) (b.int abi) o width
  | store width b v => storeCall (b.int abi) (v.int abi) (v.int abi) width
  | jump o => .jump o
  | branch s t o => .branch (s.int abi) (t.int abi) o
  | nbranch s t o => .nbranch (s.int abi) (t.int abi) o
  | call o => .call o
  | callex s => .callex (s.int abi)
  | .return => .return
  | float statement => statement.toCall abi

/-- The operands for which the call does what its name says. -/
def Faithful (abi : Abi) : Statement → Prop
  | operate op d s t => op.Faithful (d.number abi) (s.number? abi) (t.number? abi)
  | shift _ d s t => d.number abi ≠ rcx ∧ (d = t → s = t)
  | divide d _ t => d.number abi ≠ rdx ∧ t.number abi ≠ rdx ∧ t ≠ .re
  | load _ _ b _ => b.number abi ≠ r12
  | store _ b _ => b.number abi ≠ r12
  | jump o | branch _ _ o | nbranch _ _ o | call o => jumpsAway o
  | float statement => statement.Faithful abi
  | constant .. | callex _ | .return => True

instance (abi : Abi) (statement : Statement) : Decidable (statement.Faithful abi) :=
  match statement with
  | operate op d s t =>
    inferInstanceAs (Decidable (op.Faithful (d.number abi) (s.number? abi) (t.number? abi)))
  | shift _ d s t => inferInstanceAs (Decidable (d.number abi ≠ rcx ∧ (d = t → s = t)))
  | divide d _ t =>
    inferInstanceAs (Decidable (d.number abi ≠ rdx ∧ t.number abi ≠ rdx ∧ t ≠ .re))
  | load _ _ b _ => inferInstanceAs (Decidable (b.number abi ≠ r12))
  | store _ b _ => inferInstanceAs (Decidable (b.number abi ≠ r12))
  | jump o | branch _ _ o | nbranch _ _ o | call o => inferInstanceAs (Decidable (jumpsAway o))
  | float statement => inferInstanceAs (Decidable (statement.Faithful abi))
  | constant .. | callex _ | .return => inferInstanceAs (Decidable True)

-- The register a call writes. `JIT_RE` may be lost besides.
def destination : Statement → Option JitTarget
  | operate _ d .. | shift _ d .. | divide d .. | constant d _ | load _ d .. => some d
  | float statement => statement.destination
  | store .. | jump _ | branch .. | nbranch .. | call _ | callex _ | .return => none

def vectorDestination : Statement → Option Register
  | float statement => statement.vectorDestination
  | operate .. | shift .. | divide .. | constant .. | load .. | store .. | jump _ | branch .. |
      nbranch .. | call _ | callex _ | .return => none

end Statement

section Layout

variable (abi : Abi) (program : List Statement)

def programCalls : List JitCall := program.map (Statement.toCall abi)

def programCode : List Byte := codeOf (programCalls abi program)

def programOffset (k : Nat) : Nat := (codeOf ((programCalls abi program).take k)).length

end Layout

/-- A program in memory. The stack holds `depth` return addresses and one saved register, with the
return address of the caller above them. -/
structure Layout where
  abi : Abi
  program : List Statement
  base : BitVec 64
  stackTop : BitVec 64
  depth : Nat
  faithful : ∀ statement ∈ program, statement.Faithful abi
  codeFits : (programCode abi program).length ≤ 2 ^ 64
  stackFits : 8 * (depth + 2) ≤ 2 ^ 64
  apart : ∀ address, Covers (stackTop - BitVec.ofNat 64 (8 * (depth + 1))) (8 * (depth + 1)) address →
    ¬ Covers base (programCode abi program).length address

namespace Layout

variable (layout : Layout)

def calls : List JitCall := programCalls layout.abi layout.program

def code : List Byte := programCode layout.abi layout.program

def address (k : Nat) : BitVec 64 :=
  layout.base + BitVec.ofNat 64 (programOffset layout.abi layout.program k)

-- The first call whose code begins there; the end of the program counts as one.
def target (address : BitVec 64) : Option Nat :=
  (List.range (layout.program.length + 1)).find? fun k => layout.address k = address

def OnStack (address : BitVec 64) : Prop :=
  Covers (layout.stackTop - BitVec.ofNat 64 (8 * (layout.depth + 1))) (8 * (layout.depth + 1)) address

-- The return address of the caller.
def OnTop (address : BitVec 64) : Prop := Covers layout.stackTop 8 address

def InCode (address : BitVec 64) : Prop := Covers layout.base layout.code.length address

instance (address : BitVec 64) : Decidable (layout.OnStack address) :=
  inferInstanceAs (Decidable (Covers _ _ _))

instance (address : BitVec 64) : Decidable (layout.OnTop address) :=
  inferInstanceAs (Decidable (Covers _ _ _))

instance (address : BitVec 64) : Decidable (layout.InCode address) :=
  inferInstanceAs (Decidable (Covers _ _ _))

-- Where the return address of the call with `n` calls around it lies.
def slot (n : Nat) : BitVec 64 := layout.stackTop - BitVec.ofNat 64 (8 * (n + 1))

end Layout

structure Source where
  pc : Nat
  registers : JitRegister → BitVec 64
  -- `JIT_RE`, where it is known.
  result : Option (BitVec 64)
  returns : List Nat
  memory : BitVec 64 → Byte
  vectors : Register → BitVec 128

namespace Source

section Values

variable (layout : Layout) (source : Source)

def stackPointer : BitVec 64 := layout.stackTop - BitVec.ofNat 64 (8 * source.returns.length)

def value : JitInteger → Option (BitVec 64)
  | .r0 => some 0
  | .re => source.result
  | .sp => some (source.stackPointer layout)
  | .register index => some (source.registers index)

def baseValue : JitBase → BitVec 64
  | .sp => source.stackPointer layout
  | .register index => source.registers index

end Values

-- The emitters work in RAX, so writing another register loses `JIT_RE`.
def write (source : Source) (value : BitVec 64) : JitTarget → Source
  | .re => { source with pc := source.pc + 1, result := some value }
  | .register index =>
    { source with
      pc := source.pc + 1, registers := Function.update source.registers index value
      result := none }

-- So does a float call that leaves the other registers alone.
def writeVector (source : Source) (value : BitVec 128) (d : Register) : Source :=
  { source with
    pc := source.pc + 1, vectors := Function.update source.vectors d value
    result := none }

def load (source : Source) (count : Nat) (start : BitVec 64) : BitVec (8 * count) :=
  ByteOrder.join (8 * count)
    ((List.range count).map fun i => source.memory (start + BitVec.ofNat 64 i))

def fetch (source : Source) (width : Width) (start : BitVec 64) : BitVec 64 :=
  ((source.load (width.bits / 8) start).setWidth width.bits).setWidth 64

def place (source : Source) (start : BitVec 64) (bytes : List Byte) : Source :=
  { source with
    pc := source.pc + 1
    memory := fun address =>
      (bytes[(address - start).toNat]?).getD (source.memory address) }

section Steps

variable (layout : Layout) (unit : FloatUnit) (source : Source)

-- Control goes `o` bytes on from behind the current call.
def jump (o : BitVec 32) : Option Source := do
  let target ← layout.target (layout.address (source.pc + 1) + o.signExtend 64)
  some { source with pc := target, result := none }

def enter (address : BitVec 64) : Option Source := do
  let target ← layout.target address
  if source.returns.length < layout.depth then
    some { source with pc := target, returns := (source.pc + 1) :: source.returns }
  else none

def decideJump (taken : Bool) (o : BitVec 32) : Option Source :=
  if taken then source.jump layout o
  else some { source with pc := source.pc + 1, result := none }

def Readable (start : BitVec 64) (count : Nat) : Prop :=
  ∀ i < count, ¬ layout.OnStack (start + BitVec.ofNat 64 i)

def Writable (start : BitVec 64) (count : Nat) : Prop :=
  ∀ i < count, ¬ layout.OnStack (start + BitVec.ofNat 64 i) ∧
    ¬ layout.OnTop (start + BitVec.ofNat 64 i) ∧ ¬ layout.InCode (start + BitVec.ofNat 64 i)

instance (start : BitVec 64) (count : Nat) : Decidable (Readable layout start count) :=
  inferInstanceAs (Decidable (∀ i < count, _))

instance (start : BitVec 64) (count : Nat) : Decidable (Writable layout start count) :=
  inferInstanceAs (Decidable (∀ i < count, _))

def performFloat : FloatStatement → Option Source
  | .operatef op span d s t =>
    let result := mapLanes (unit.arithmetic op) (source.vectors s) (source.vectors t)
    some (source.writeVector (span.blend (source.vectors d) result) d)
  | .lessf d s t =>
    let order := unit.compare (lane (source.vectors s) 0) (lane (source.vectors t) 0)
    some (source.write (if order = some .gt then 1 else 0) d)
  | .itof d s => do
    let value ← source.value layout s
    some (source.writeVector (withLow 0 (unit.ofInteger value)) d)
  | .ftoi d s => some (source.write (unit.toInteger (lane (source.vectors s) 0)) d)
  | .loadf4 d b o =>
    let start := source.baseValue layout b + o.signExtend 64
    if Readable layout start Span.packed.bytes then
      some (source.writeVector ((source.load Span.packed.bytes start).setWidth 128) d)
    else none
  | .storef span b o v =>
    let start := source.baseValue layout b + o.signExtend 64
    if Writable layout start span.bytes then
      let stored := source.place start (ByteOrder.split span.bytes (source.vectors v))
      some { stored with result := none }
    else none

/-- One call by what its name says. A program that reads a lost `JIT_RE`, touches the stack, writes
its own code or its caller's return address, divides by zero or a number out of range, or runs out of
stack goes no further. -/
def perform : Statement → Option Source
  | .operate op d s t => do
    let left ← source.value layout s
    let right ← source.value layout t
    some (source.write (op.value left right) d)
  | .shift op d s t => do
    let operand ← source.value layout s.operand
    let count ← source.value layout t.operand
    some (source.write (op.value operand count.toNat) d)
  | .divide d s t => do
    let left ← source.value layout s.operand
    let right ← source.value layout t.operand
    if right ≠ 0 ∧ 0 ≤ left.toInt ∧ left.getLsbD 31 = false then
      some (source.write (left.sdiv right) d)
    else none
  | .constant d i => some (source.write (i.signExtend 64) d)
  | .load width d b o =>
    let start := source.baseValue layout b + o.signExtend 64
    if Readable layout start (width.bits / 8) then
      some (source.write (source.fetch width start) d)
    else none
  | .store width b v =>
    let start := source.registers b + (v.int layout.abi).signExtend 64
    if Writable layout start (width.bits / 8) then
      let value := (source.registers v).setWidth width.bits
      some (source.place start (ByteOrder.split (width.bits / 8) value))
    else none
  | .jump o => source.jump layout o
  | .branch s t o => do
    let left ← source.value layout s
    let right ← source.value layout t
    source.decideJump layout (left = right) o
  | .nbranch s t o => do
    let left ← source.value layout s
    let right ← source.value layout t
    source.decideJump layout (left ≠ right) o
  | .call o => source.enter layout (layout.address (source.pc + 1) + o.signExtend 64)
  | .callex s => do
    let address ← source.value layout s.operand
    source.enter layout address
  | .return =>
    match source.returns with
    | [] => none
    | pc :: rest => some { source with pc := pc, returns := rest }
  | .float statement => source.performFloat layout unit statement

def step : Option Source := do
  let statement ← layout.program[source.pc]?
  source.perform layout unit statement

end Steps

end Source

end Jit
