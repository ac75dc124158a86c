import Mips64Emulator.Jit.Encoder

set_option autoImplicit false

namespace Jit

open X86 (Byte Register)
open EncoderUse

abbrev raxInt : BitVec 32 := 0
abbrev rcxInt : BitVec 32 := 1
abbrev rdxInt : BitVec 32 := 2
abbrev al : BitVec 32 := raxInt

abbrev jitR0 : BitVec 32 := -1
abbrev jitSp : BitVec 32 := 4

-- The header names other registers for Windows.
inductive Abi where
  | windows
  | systemV
  deriving DecidableEq, Repr

inductive JitRegister where
  | r1
  | r2
  | r3
  | r4
  | r5
  | r6
  | r7
  | a1
  | a2
  | a3
  | a4
  deriving DecidableEq, Repr

def JitRegister.number (abi : Abi) (register : JitRegister) : Register :=
  match abi, register with
  | .windows, r1 => X86.r10
  | .windows, r2 => X86.r11
  | .systemV, r1 => X86.r8
  | .systemV, r2 => X86.r9
  | _, r3 => X86.rbx
  | _, r4 => X86.r12
  | _, r5 => X86.r13
  | _, r6 => X86.r14
  | _, r7 => X86.r15
  | .windows, a1 => X86.rcx
  | .windows, a2 => X86.rdx
  | .windows, a3 => X86.r8
  | .windows, a4 => X86.r9
  | .systemV, a1 => X86.rdi
  | .systemV, a2 => X86.rsi
  | .systemV, a3 => X86.rdx
  | .systemV, a4 => X86.rcx

theorem JitRegister.number_inj (abi : Abi) (left right : JitRegister) :
    left.number abi = right.number abi ↔ left = right := by
  cases abi <;> cases left <;> cases right <;> decide

theorem JitRegister.number_ne_rax (abi : Abi) (register : JitRegister) :
    register.number abi ≠ X86.rax := by
  cases abi <;> cases register <;> decide

theorem JitRegister.number_ne_rsp (abi : Abi) (register : JitRegister) :
    register.number abi ≠ X86.rsp := by
  cases abi <;> cases register <;> decide

inductive JitAction where
  | info
  | infoOfTarget
  | emit (use : EncoderUse)
  | info2
  deriving DecidableEq, Repr

def onlyIf (condition : Prop) [Decidable condition] (use : EncoderUse) : List EncoderUse :=
  if condition then [use] else []

def recorded (uses : List EncoderUse) : List JitAction := .info :: uses.map .emit

def linked (uses : List EncoderUse) : List JitAction := uses.map .emit ++ [.info2]

def throughStackPointer (access : BitVec 32 → EncoderUse) (base : BitVec 32) : List EncoderUse :=
  if base = jitSp then [mov raxInt base, access raxInt] else [access base]

def accessLike (access : BitVec 32 → BitVec 32 → BitVec 32 → EncoderUse) (d s o : BitVec 32) :
    List EncoderUse :=
  if d ≠ jitR0 ∧ s ≠ jitR0 then throughStackPointer (fun base => access d base o) s else []

def jitLoad32 (d s o : BitVec 32) : List JitAction := recorded (accessLike load32 d s o)

def jitStore32 (d o s : BitVec 32) : List JitAction := recorded (accessLike store32 d s o)

def jitLoad64 (d s o : BitVec 32) : List JitAction := recorded (accessLike load64 d s o)

def jitStore64 (d o s : BitVec 32) : List JitAction := recorded (accessLike store64 d s o)

def addLike (op : BitVec 32 → BitVec 32 → EncoderUse) (d s t : BitVec 32) : List EncoderUse :=
  if d ≠ jitR0 then
    if s = jitR0 ∧ t = jitR0 then [movi32 d 0]
    else if s = jitR0 then onlyIf (t ≠ d) (mov d t)
    else if t = jitR0 then onlyIf (s ≠ d) (mov d s)
    else onlyIf (s ≠ d) (mov d s) ++ [op d t]
  else []

def jitAdd (d s t : BitVec 32) : List JitAction := recorded (addLike add d s t)

-- The `else` belongs to the outer test, so a register source with a destination emits nothing.
def jitAddi (d s i : BitVec 32) : List JitAction :=
  recorded
    (if d ≠ jitR0 then
      if s = jitR0 then [movi32 d i] else []
    else onlyIf (s ≠ d) (mov d s) ++ onlyIf (i ≠ 0) (mov d i))

def jitSub (d s t : BitVec 32) : List JitAction := recorded (addLike sub d s t)

def jitMul (d s t : BitVec 32) : List JitAction :=
  recorded
    (if d ≠ jitR0 then
      if s = jitR0 ∨ t = jitR0 then [movi32 d 0]
      else onlyIf (s ≠ d) (mov d s) ++ [imul d t]
    else [])

def jitDiv (d s t : BitVec 32) : List JitAction :=
  recorded
    (if d ≠ jitR0 then
      if s = jitR0 ∨ t = jitR0 then [movi32 d 0]
      else [push rdxInt, mov raxInt s, cdq, idiv64 t, mov d raxInt, pop rdxInt]
    else [])

def shiftLike (shift : BitVec 32 → EncoderUse) (d s t : BitVec 32) : List EncoderUse :=
  if d ≠ jitR0 then
    if s = jitR0 then [movi32 d 0]
    else if t = jitR0 then onlyIf (s ≠ d) (movi32 s t)
    else onlyIf (s ≠ d) (mov d s) ++ [push rcxInt, mov rcxInt t, shift d, pop rcxInt]
  else []

def jitShiftl (d s t : BitVec 32) : List JitAction := recorded (shiftLike sal d s t)

def jitShiftr (d s t : BitVec 32) : List JitAction := recorded (shiftLike sar d s t)

-- The immediate is compared with the number of `JIT_R0`.
def shiftImmediateLike (shift : BitVec 32 → BitVec 32 → EncoderUse) (d s i : BitVec 32) :
    List EncoderUse :=
  if d ≠ jitR0 then
    if s = jitR0 then [movi32 d 0]
    else if i = jitR0 then onlyIf (s ≠ d) (movi32 d s) ++ [shift d i]
    else []
  else []

def jitShiftli (d s i : BitVec 32) : List JitAction := recorded (shiftImmediateLike sali d s i)

def jitShiftri (d s i : BitVec 32) : List JitAction := recorded (shiftImmediateLike sari d s i)

def logicalLike (op : BitVec 32 → BitVec 32 → EncoderUse) (d s t : BitVec 32) : List EncoderUse :=
  if d ≠ jitR0 then
    if s = t then
      if s = jitR0 then [movi32 d 0] else onlyIf (s ≠ d) (mov d s)
    else if s = jitR0 then onlyIf (t ≠ d) (mov d t)
    else if t = jitR0 then onlyIf (s ≠ d) (mov d s)
    else onlyIf (s ≠ d) (mov d s) ++ [op d t]
  else []

def jitAnd (d s t : BitVec 32) : List JitAction := recorded (logicalLike EncoderUse.and d s t)

def jitOr (d s t : BitVec 32) : List JitAction := recorded (logicalLike EncoderUse.or d s t)

def jitXor (d s t : BitVec 32) : List JitAction := recorded (logicalLike EncoderUse.xor d s t)

def comparison (s t : BitVec 32) : EncoderUse :=
  if s = jitR0 then cmpi8 t 0
  else if t = jitR0 then cmpi8 s 0
  else cmp64 s t

def jitLess (d s t : BitVec 32) : List JitAction :=
  recorded
    (if d ≠ jitR0 then
      if s = t then [movi32 d 0]
      else [comparison s t, setl al, movzx raxInt al, mov d raxInt]
    else [])

def jitJump (o : BitVec 32) : List JitAction :=
  .info :: if o ≠ jitR0 ∨ o.slt (-1) then linked [jmp o] else []

def jumpsAway (o : BitVec 32) : Prop := BitVec.slt 0 o ∨ o.slt (-1)

instance (o : BitVec 32) : Decidable (jumpsAway o) := inferInstanceAs (Decidable (_ ∨ _))

def jitBranch (s t o : BitVec 32) : List JitAction :=
  if s = t then jitJump o
  else
    .info :: if jumpsAway o then
      linked [comparison s t, sete al, movzx raxInt al, jnz o] else []

def jitNbranch (s t o : BitVec 32) : List JitAction :=
  .info :: if jumpsAway o ∧ s ≠ t then
    linked [comparison s t, sete al, movzx raxInt al, jz o] else []

def jitCall (o : BitVec 32) : List JitAction :=
  .info :: if jumpsAway o then linked [calli32 o] else []

def jitCallex (s : BitVec 32) : List JitAction := recorded (onlyIf (s ≠ jitR0) (call64 s))

def jitReturn : List JitAction := recorded [ret]

def jitLoadf (d s o : BitVec 32) : List JitAction :=
  .infoOfTarget :: (accessLike loadss d s o).map .emit

def jitStoref (d o s : BitVec 32) : List JitAction :=
  recorded
    (if d ≠ jitR0 ∧ s ≠ jitR0 then throughStackPointer (fun base => storess base o s) d else [])

def jitItof (d s : BitVec 32) : List JitAction :=
  recorded (pxor d d :: onlyIf (s ≠ jitR0) (cvtsi2ss d s))

def jitFtoi (d s : BitVec 32) : List JitAction := recorded (onlyIf (d ≠ jitR0) (cvtss2si d s))

def floatLike (move op : BitVec 32 → BitVec 32 → EncoderUse) (d s t : BitVec 32) :
    List JitAction :=
  recorded (onlyIf (s ≠ d) (move d s) ++ [op d t])

def jitAddf (d s t : BitVec 32) : List JitAction := floatLike movss addss d s t
def jitSubf (d s t : BitVec 32) : List JitAction := floatLike movss subss d s t
def jitMulf (d s t : BitVec 32) : List JitAction := floatLike movss mulss d s t
def jitDivf (d s t : BitVec 32) : List JitAction := floatLike movss divss d s t

def jitLessf (d s t : BitVec 32) : List JitAction :=
  recorded [ucomiss s t, seta al, movzx raxInt al, mov d raxInt]

def jitMinf (d s t : BitVec 32) : List JitAction := floatLike movss minss d s t
def jitMaxf (d s t : BitVec 32) : List JitAction := floatLike movss maxss d s t

def jitLoadf4 (d s o : BitVec 32) : List JitAction := recorded (accessLike loadups d s o)

def jitStoref4 (d o s : BitVec 32) : List JitAction :=
  recorded
    (if d ≠ jitR0 then throughStackPointer (fun base => storeups base o s) d else [])

def jitAddf4 (d s t : BitVec 32) : List JitAction := floatLike movups addps d s t
def jitSubf4 (d s t : BitVec 32) : List JitAction := floatLike movups subps d s t
def jitMulf4 (d s t : BitVec 32) : List JitAction := floatLike movups mulps d s t
def jitDivf4 (d s t : BitVec 32) : List JitAction := floatLike movups divps d s t
def jitMinf4 (d s t : BitVec 32) : List JitAction := floatLike movups minps d s t
def jitMaxf4 (d s t : BitVec 32) : List JitAction := floatLike movups maxps d s t

inductive JitCall where
  | load32 (d s o : BitVec 32)
  | store32 (d o s : BitVec 32)
  | load64 (d s o : BitVec 32)
  | store64 (d o s : BitVec 32)
  | add (d s t : BitVec 32)
  | addi (d s i : BitVec 32)
  | sub (d s t : BitVec 32)
  | mul (d s t : BitVec 32)
  | div (d s t : BitVec 32)
  | shiftl (d s t : BitVec 32)
  | shiftr (d s t : BitVec 32)
  | shiftli (d s i : BitVec 32)
  | shiftri (d s i : BitVec 32)
  | and (d s t : BitVec 32)
  | or (d s t : BitVec 32)
  | xor (d s t : BitVec 32)
  | less (d s t : BitVec 32)
  | jump (o : BitVec 32)
  | branch (s t o : BitVec 32)
  | nbranch (s t o : BitVec 32)
  | call (o : BitVec 32)
  | callex (s : BitVec 32)
  | return
  | loadf (d s o : BitVec 32)
  | storef (d o s : BitVec 32)
  | itof (d s : BitVec 32)
  | ftoi (d s : BitVec 32)
  | addf (d s t : BitVec 32)
  | subf (d s t : BitVec 32)
  | mulf (d s t : BitVec 32)
  | divf (d s t : BitVec 32)
  | lessf (d s t : BitVec 32)
  | minf (d s t : BitVec 32)
  | maxf (d s t : BitVec 32)
  | loadf4 (d s o : BitVec 32)
  | storef4 (d o s : BitVec 32)
  | addf4 (d s t : BitVec 32)
  | subf4 (d s t : BitVec 32)
  | mulf4 (d s t : BitVec 32)
  | divf4 (d s t : BitVec 32)
  | minf4 (d s t : BitVec 32)
  | maxf4 (d s t : BitVec 32)
  deriving DecidableEq, Repr

def JitCall.actions : JitCall → List JitAction
  | load32 d s o => jitLoad32 d s o
  | store32 d o s => jitStore32 d o s
  | load64 d s o => jitLoad64 d s o
  | store64 d o s => jitStore64 d o s
  | add d s t => jitAdd d s t
  | addi d s i => jitAddi d s i
  | sub d s t => jitSub d s t
  | mul d s t => jitMul d s t
  | div d s t => jitDiv d s t
  | shiftl d s t => jitShiftl d s t
  | shiftr d s t => jitShiftr d s t
  | shiftli d s i => jitShiftli d s i
  | shiftri d s i => jitShiftri d s i
  | and d s t => jitAnd d s t
  | or d s t => jitOr d s t
  | xor d s t => jitXor d s t
  | less d s t => jitLess d s t
  | jump o => jitJump o
  | branch s t o => jitBranch s t o
  | nbranch s t o => jitNbranch s t o
  | call o => jitCall o
  | callex s => jitCallex s
  | .return => jitReturn
  | loadf d s o => jitLoadf d s o
  | storef d o s => jitStoref d o s
  | itof d s => jitItof d s
  | ftoi d s => jitFtoi d s
  | addf d s t => jitAddf d s t
  | subf d s t => jitSubf d s t
  | mulf d s t => jitMulf d s t
  | divf d s t => jitDivf d s t
  | lessf d s t => jitLessf d s t
  | minf d s t => jitMinf d s t
  | maxf d s t => jitMaxf d s t
  | loadf4 d s o => jitLoadf4 d s o
  | storef4 d o s => jitStoref4 d o s
  | addf4 d s t => jitAddf4 d s t
  | subf4 d s t => jitSubf4 d s t
  | mulf4 d s t => jitMulf4 d s t
  | divf4 d s t => jitDivf4 d s t
  | minf4 d s t => jitMinf4 d s t
  | maxf4 d s t => jitMaxf4 d s t

def JitAction.use? : JitAction → Option EncoderUse
  | emit use => some use
  | info | infoOfTarget | info2 => none

namespace JitCall

def uses (call : JitCall) : List EncoderUse := call.actions.filterMap JitAction.use?

def code (call : JitCall) : List Byte := usesBytes call.uses

end JitCall

@[simp] theorem use?_comp_emit : JitAction.use? ∘ JitAction.emit = some := rfl

@[simp] theorem recorded_uses (uses : List EncoderUse) :
    (recorded uses).filterMap JitAction.use? = uses := by
  simp [recorded, List.filterMap_cons, JitAction.use?]

@[simp] theorem linked_uses (uses : List EncoderUse) :
    (linked uses).filterMap JitAction.use? = uses := by
  simp [linked, List.filterMap_cons, JitAction.use?]

theorem linked_uses_eq {call : JitCall} {condition : Prop} [Decidable condition]
    {uses : List EncoderUse}
    (actions : call.actions = .info :: if condition then linked uses else []) :
    call.uses = if condition then uses else [] := by
  by_cases taken : condition <;>
    simp [JitCall.uses, actions, taken, List.filterMap_cons, JitAction.use?]

-- What lies in front of the two cursors before anything is written.
structure Leftover where
  buffer : Nat → Byte
  info1 : Nat → BitVec 64

-- A cursor is given by what it has passed. `elsewhere` are the stores through a pointer that is none
-- of the cursors; where in memory they land is not followed.
structure JitParsing where
  buffer : List Byte
  info1 : List (BitVec 64)
  info2 : List (BitVec 16)
  i1 : BitVec 64
  elsewhere : List (BitVec 64 × Byte)

namespace JitParsing

def start : JitParsing := { buffer := [], info1 := [], info2 := [], i1 := 0, elsewhere := [] }

section Run

variable (base : BitVec 64) (leftover : Leftover)

-- `i1` is a `uint16_t *`: `i1++` adds the size of its target.
def perform (p : JitParsing) : JitAction → JitParsing
  | .info =>
    { p with
      info1 := p.info1 ++ [base + BitVec.ofNat 64 p.buffer.length]
      i1 := p.i1 + 2 }
  | .infoOfTarget =>
    -- `*p->info1[0] = *p->buffer`, then both cursors move on.
    let pointer := leftover.info1 p.info1.length
    { p with
      info1 := p.info1 ++ [pointer]
      i1 := p.i1 + 2
      elsewhere := p.elsewhere ++ [(pointer, leftover.buffer p.buffer.length)] }
  | .emit use => { p with buffer := p.buffer ++ use.bytes }
  | .info2 => { p with info2 := p.info2 ++ [p.i1.setWidth 16] }

def performCall (p : JitParsing) (call : JitCall) : JitParsing :=
  call.actions.foldl (perform base leftover) p

def performCalls (p : JitParsing) (calls : List JitCall) : JitParsing :=
  calls.foldl (performCall base leftover) p

end Run

end JitParsing

end Jit
