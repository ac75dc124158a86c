import Mathlib.Tactic.IntervalCases
import Mips64Emulator.X86.Block

set_option autoImplicit false

/-!
# The encoder macros of the JIT compiler

A macro use writes its bytes at the buffer cursor and moves the cursor behind them. C's `int` is 32
bits wide, and a shift count or a register number is an `int` like any other.
-/

namespace Jit

open X86

def intOfBool (condition : Bool) : BitVec 32 := (BitVec.ofBool condition).setWidth 32

def x8664EncodeRex (dest src op64 : BitVec 32) : Byte :=
  (intOfBool (BitVec.slt 7 dest) ||| intOfBool (BitVec.slt 7 src) <<< 2 ||| op64 <<< 3 |||
    0x40).setWidth 8

def x8664EncodeModrm (dest src mod : BitVec 32) : Byte :=
  (dest &&& 7 ||| (src &&& 7) <<< 3 ||| mod <<< 6).setWidth 8

inductive EncoderUse where
  | opi32 (opcode : Byte) (im : BitVec 32)
  | op0 (opcode : Byte) (dest src : BitVec 32)
  | rr (opcode : Byte) (dest src : BitVec 32) (op64 : Bool)
  | rr0 (opcode : Byte) (dest src mod : BitVec 32) (op64 : Bool)
  | rrf (legacy opcode : Byte) (dest src : BitVec 32) (op64 : Bool)
  | rmf (opcode : Byte) (dest src off : BitVec 32)
  | rmf4 (opcode : Byte) (dest src off : BitVec 32)
  | ri8 (opcode : Byte) (dest src im mod : BitVec 32) (op64 : Bool)
  | ri32 (opcode : Byte) (dest src im mod : BitVec 32) (op64 : Bool)
  | jz (off : BitVec 32)
  | jnz (off : BitVec 32)
  | push (src : BitVec 32)
  | pop (src : BitVec 32)
  | cdq
  | ret
  deriving DecidableEq, Repr

namespace EncoderUse

-- A store through a `uint32_t *` on the host, which keeps the low byte first.
def le32 (value : BitVec 32) : List Byte := ByteOrder.split 4 value

def bytes : EncoderUse → List Byte
  | opi32 opcode im => opcode :: le32 im
  | op0 opcode dest src => [0x0F, opcode, x8664EncodeModrm dest src 3]
  | rr opcode dest src op64 =>
    [x8664EncodeRex dest src (intOfBool op64), opcode, x8664EncodeModrm dest src 3]
  | rr0 opcode dest src mod op64 =>
    [x8664EncodeRex dest src (intOfBool op64), 0x0F, opcode, x8664EncodeModrm dest src mod]
  | rrf legacy opcode dest src op64 =>
    [legacy, x8664EncodeRex src dest (intOfBool op64), 0x0F, opcode, x8664EncodeModrm src dest 3]
  | rmf opcode dest src off =>
    [0xF3, x8664EncodeRex dest src 0, 0x0F, opcode, x8664EncodeModrm dest src 2] ++ le32 off
  | rmf4 opcode dest src off =>
    [x8664EncodeRex dest src 0, 0x0F, opcode, x8664EncodeModrm dest src 2] ++ le32 off
  | ri8 opcode dest src im mod op64 =>
    [x8664EncodeRex dest src (intOfBool op64), opcode, x8664EncodeModrm dest src mod,
      im.setWidth 8]
  | ri32 opcode dest src im mod op64 =>
    [x8664EncodeRex dest src (intOfBool op64), opcode, x8664EncodeModrm dest src mod] ++ le32 im
  | jz off => le32 0x840FC085 ++ le32 off
  | jnz off => le32 0x850FC085 ++ le32 off
  | push src =>
    if src.slt 8 then [(80 + src).setWidth 8] else [0x41, (80 + src - 8).setWidth 8]
  | pop src =>
    if src.slt 8 then [(88 + src).setWidth 8] else [0x41, (88 + src - 8).setWidth 8]
  | cdq => [0x99]
  | ret => [0xC3]

-- The arguments a macro takes for register numbers. An opcode's row stands in the same place.
def registers : EncoderUse → List (BitVec 32)
  | op0 _ dest src | rr _ dest src _ | rr0 _ dest src _ _ | rrf _ _ dest src _ |
      rmf _ dest src _ | rmf4 _ dest src _ | ri8 _ dest src _ _ _ | ri32 _ dest src _ _ _ =>
    [dest, src]
  | push src | pop src => [src]
  | opi32 .. | jz _ | jnz _ | cdq | ret => []

def jmp (off : BitVec 32) : EncoderUse := opi32 0xE9 off
def calli32 (off : BitVec 32) : EncoderUse := opi32 0xE8 off

def setl (src : BitVec 32) : EncoderUse := op0 0x9C 0 src
def sete (src : BitVec 32) : EncoderUse := op0 0x94 0 src
def seta (src : BitVec 32) : EncoderUse := op0 0x97 0 src
def movzx (dest src : BitVec 32) : EncoderUse := op0 0xB6 dest src

def mov (dest src : BitVec 32) : EncoderUse := rr 0x89 dest src true
def add (dest src : BitVec 32) : EncoderUse := rr 0x01 dest src true
def sub (dest src : BitVec 32) : EncoderUse := rr 0x29 dest src true
protected def and (dest src : BitVec 32) : EncoderUse := rr 0x21 dest src true
protected def or (dest src : BitVec 32) : EncoderUse := rr 0x09 dest src true
protected def xor (dest src : BitVec 32) : EncoderUse := rr 0x31 dest src true
def idiv64 (src : BitVec 32) : EncoderUse := rr 0xF7 src 0b111 true
def sar (src : BitVec 32) : EncoderUse := rr 0xD3 src 0b111 true
def sal (src : BitVec 32) : EncoderUse := rr 0xD3 src 0b100 true
def cmp64 (dest src : BitVec 32) : EncoderUse := rr 0x39 dest src true
def call64 (src : BitVec 32) : EncoderUse := rr 0xFF src 0b010 true

def imul (dest src : BitVec 32) : EncoderUse := rr0 0xAF src dest 3 true
def ucomiss (dest src : BitVec 32) : EncoderUse := rr0 0x2E src dest 3 false
def movups (dest src : BitVec 32) : EncoderUse := rr0 0x10 src dest 3 false
def addps (dest src : BitVec 32) : EncoderUse := rr0 0x58 src dest 3 false
def subps (dest src : BitVec 32) : EncoderUse := rr0 0x5C src dest 3 false
def mulps (dest src : BitVec 32) : EncoderUse := rr0 0x59 src dest 3 false
def divps (dest src : BitVec 32) : EncoderUse := rr0 0x5E src dest 3 false
def minps (dest src : BitVec 32) : EncoderUse := rr0 0x5D src dest 3 false
def maxps (dest src : BitVec 32) : EncoderUse := rr0 0x5F src dest 3 false

def sari (src im : BitVec 32) : EncoderUse := ri8 0xC1 src 0b111 im 3 true
def sali (src im : BitVec 32) : EncoderUse := ri8 0xC1 src 0b100 im 3 true
def cmpi8 (dest im : BitVec 32) : EncoderUse := ri8 0x83 dest 0b111 im 3 true

def movi32 (dest im : BitVec 32) : EncoderUse := ri32 0xC7 dest 0b000 im 3 true
def load64 (dest src off : BitVec 32) : EncoderUse := ri32 0x8B src dest off 2 true
def store64 (dest off src : BitVec 32) : EncoderUse := ri32 0x89 dest src off 2 true
def load32 (dest src off : BitVec 32) : EncoderUse := ri32 0x8B src dest off 2 false
def store32 (dest off src : BitVec 32) : EncoderUse := ri32 0x89 dest src off 2 false

def movss (dest src : BitVec 32) : EncoderUse := rrf 0xF3 0x10 dest src false
def addss (dest src : BitVec 32) : EncoderUse := rrf 0xF3 0x58 dest src false
def subss (dest src : BitVec 32) : EncoderUse := rrf 0xF3 0x5C dest src false
def mulss (dest src : BitVec 32) : EncoderUse := rrf 0xF3 0x59 dest src false
def divss (dest src : BitVec 32) : EncoderUse := rrf 0xF3 0x5E dest src false
def minss (dest src : BitVec 32) : EncoderUse := rrf 0xF3 0x5D dest src false
def maxss (dest src : BitVec 32) : EncoderUse := rrf 0xF3 0x5F dest src false
def cvtsi2ss (dest src : BitVec 32) : EncoderUse := rrf 0xF3 0x2A dest src true
def cvtss2si (dest src : BitVec 32) : EncoderUse := rrf 0xF3 0x2D dest src true
def pxor (dest src : BitVec 32) : EncoderUse := rrf 0x66 0xEF dest src false

def loadss (dest src off : BitVec 32) : EncoderUse := rmf 0x10 src dest off
def storess (dest off src : BitVec 32) : EncoderUse := rmf 0x11 dest src off

def loadups (dest src off : BitVec 32) : EncoderUse := rmf4 0x10 src dest off
def storeups (dest off src : BitVec 32) : EncoderUse := rmf4 0x11 dest src off

def rexOf (dest src : BitVec 32) (op64 : Bool) : Rex :=
  { w := op64, r := BitVec.slt 7 src, x := false, b := BitVec.slt 7 dest }

def modrmOf (dest src mod : BitVec 32) : ModRm :=
  { mod := mod.setWidth 2, reg := src.setWidth 3, rm := dest.setWidth 3 }

def bare (opcode : Byte) : Encoded :=
  { legacy := none, rex := none, escape := false, opcode := opcode, modrm := none, sib := none,
    displacement := [], immediate := [] }

def inOpcode (first src : BitVec 32) : Encoded :=
  if src.slt 8 then bare ((first + src).setWidth 8)
  else
    { bare ((first + src - 8).setWidth 8) with
      rex := some { w := false, r := false, x := false, b := true } }

def testJump (opcode : Byte) (off : BitVec 32) : List Encoded :=
  [{ bare 0x85 with modrm := some (modrmOf 0 0 3) },
    { bare opcode with escape := true, immediate := le32 off }]

/-- The instructions a macro use stands for, in the byte format of x86-64. With `mod` 2 the constant
of `ri32` is a displacement. -/
def encoded : EncoderUse → List Encoded
  | opi32 opcode im => [{ bare opcode with immediate := le32 im }]
  | op0 opcode dest src =>
    [{ bare opcode with escape := true, modrm := some (modrmOf dest src 3) }]
  | rr opcode dest src op64 =>
    [{ bare opcode with
       rex := some (rexOf dest src op64), modrm := some (modrmOf dest src 3) }]
  | rr0 opcode dest src mod op64 =>
    [{ bare opcode with
       rex := some (rexOf dest src op64), escape := true, modrm := some (modrmOf dest src mod) }]
  | rrf legacy opcode dest src op64 =>
    [{ bare opcode with
       legacy := some legacy, rex := some (rexOf src dest op64), escape := true
       modrm := some (modrmOf src dest 3) }]
  | rmf opcode dest src off =>
    [{ bare opcode with
       legacy := some 0xF3, rex := some (rexOf dest src false), escape := true
       modrm := some (modrmOf dest src 2), displacement := le32 off }]
  | rmf4 opcode dest src off =>
    [{ bare opcode with
       rex := some (rexOf dest src false), escape := true, modrm := some (modrmOf dest src 2)
       displacement := le32 off }]
  | ri8 opcode dest src im mod op64 =>
    [{ bare opcode with
       rex := some (rexOf dest src op64), modrm := some (modrmOf dest src mod)
       immediate := [im.setWidth 8] }]
  | ri32 opcode dest src im mod op64 =>
    let constant := le32 im
    [{ bare opcode with
       rex := some (rexOf dest src op64), modrm := some (modrmOf dest src mod)
       displacement := if mod = 2 then constant else []
       immediate := if mod = 2 then [] else constant }]
  | jz off => testJump 0x84 off
  | jnz off => testJump 0x85 off
  | push src => [inOpcode 80 src]
  | pop src => [inOpcode 88 src]
  | cdq => [bare 0x99]
  | ret => [bare 0xC3]

theorem x8664EncodeRex_correct (dest src : BitVec 32) (op64 : Bool) :
    x8664EncodeRex dest src (intOfBool op64) = (rexOf dest src op64).byte := by
  unfold x8664EncodeRex rexOf
  generalize BitVec.slt 7 dest = b, BitVec.slt 7 src = r
  cases op64 <;> cases r <;> cases b <;> rfl

theorem x8664EncodeModrm_correct (dest src mod : BitVec 32) :
    x8664EncodeModrm dest src mod = (modrmOf dest src mod).byte := by
  apply BitVec.eq_of_getLsbD_eq
  intro i inside
  change _ = (mod.setWidth 2 ++ src.setWidth 3 ++ dest.setWidth 3).getLsbD i
  rw [x8664EncodeModrm, BitVec.getLsbD_append, BitVec.getLsbD_append]
  interval_cases i <;> simp

theorem inOpcode_bytes (first src : BitVec 32) :
    (inOpcode first src).bytes =
      if src.slt 8 then [(first + src).setWidth 8] else [0x41, (first + src - 8).setWidth 8] := by
  unfold inOpcode
  split <;> rfl

theorem testJump_bytes (opcode : Byte) (off : BitVec 32) :
    (testJump opcode off).flatMap Encoded.bytes = [0x85, 0xC0, 0x0F, opcode] ++ le32 off := by
  simp only [testJump, bare, List.flatMap_cons, List.flatMap_nil, Encoded.bytes,
    Encoded.body, Encoded.escapeByte]
  simp [modrmOf, ModRm.byte]

theorem bytes_correct (use : EncoderUse) :
    use.bytes = use.encoded.flatMap Encoded.bytes := by
  have rexOfFalse (dest src : BitVec 32) :
      x8664EncodeRex dest src 0#32 = (rexOf dest src false).byte :=
    x8664EncodeRex_correct dest src false
  cases use with
  | jz off =>
    rw [encoded, testJump_bytes]
    rfl
  | jnz off =>
    rw [encoded, testJump_bytes]
    rfl
  | push src => simp [encoded, inOpcode_bytes, bytes]
  | pop src => simp [encoded, inOpcode_bytes, bytes]
  | ri32 opcode dest src im mod op64 =>
    by_cases memory : mod = 2#32 <;>
      simp [encoded, bytes, bare, memory, x8664EncodeRex_correct, x8664EncodeModrm_correct,
        Encoded.bytes, Encoded.body, Encoded.escapeByte]
  | _ =>
    simp [encoded, bytes, bare, x8664EncodeRex_correct, x8664EncodeModrm_correct, rexOfFalse,
      Encoded.bytes, Encoded.body, Encoded.escapeByte]

end EncoderUse

def instructions (uses : List EncoderUse) : List Encoded := uses.flatMap EncoderUse.encoded

def usesBytes (uses : List EncoderUse) : List Byte := uses.flatMap EncoderUse.bytes

theorem instructions_append (uses others : List EncoderUse) :
    instructions (uses ++ others) = instructions uses ++ instructions others :=
  List.flatMap_append

theorem usesBytes_correct (uses : List EncoderUse) :
    usesBytes uses = (instructions uses).flatMap Encoded.bytes := by
  induction uses with
  | nil => rfl
  | cons use rest ih =>
    have behind : (use :: rest).flatMap EncoderUse.bytes = use.bytes ++ usesBytes rest := rfl
    rw [usesBytes, behind, ih, EncoderUse.bytes_correct, instructions, instructions, List.flatMap_cons,
      List.flatMap_append]

theorem single_run {uses : List EncoderUse} {encoded : Encoded} (stands : instructions uses = [encoded])
    (wellFormed : encoded.WellFormed) (before : State) :
    run (usesBytes uses) before = encoded.execute before := by
  rw [usesBytes_correct, stands, run_bytes _ (by simpa using wellFormed), executeAll_single]

theorem uses_run {uses : List EncoderUse} {before after : State}
    (straight : Straight (instructions uses) before after)
    (wellFormed : ∀ encoded ∈ instructions uses, encoded.WellFormed) :
    run (usesBytes uses) before = some after ∧
      after.rip = before.rip + BitVec.ofNat 64 (usesBytes uses).length := by
  rw [usesBytes_correct]
  exact ⟨straight.run_correct wellFormed, straight.rip⟩

end Jit
