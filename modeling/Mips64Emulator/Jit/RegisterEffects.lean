import Mips64Emulator.Jit.Encoder

set_option autoImplicit false

namespace Jit

open X86 EncoderUse

def intOfRegister (index : Register) : BitVec 32 := BitVec.ofNat 32 index.val

@[simp] theorem registerNumber_intOfRegister (index : Register) :
    registerNumber (BitVec.slt 7#32 (intOfRegister index)) ((intOfRegister index).setWidth 3) =
      index := by
  revert index
  decide

theorem intOfRegister_inj (left right : Register) :
    intOfRegister left = intOfRegister right ↔ left = right := by
  revert left right
  decide

theorem mandatory_wellFormed (legacy : Option Byte) (opcode : Byte) (rex : Option Rex)
    (escape : Bool) (dest src : BitVec 32) (immediate : List Byte) (form : Form)
    (accepted : ∀ byte ∈ legacy, isLegacy byte = true)
    (found : opcodeForm legacy escape opcode = some form) (direct : form.modrm = true)
    (length : immediate.length = form.immediate.length (some (modrmOf dest src 3))) :
    Encoded.WellFormed { bare opcode with
      legacy := legacy, rex := rex, escape := escape, modrm := some (modrmOf dest src 3)
      immediate := immediate } where
  legacy := accepted
  opcode := ⟨form, found, direct.symm, length⟩
  sib := by simp [bare, modrmOf, ModRm.needsSib]
  displacement := by simp [bare, modrmOf, displacementLength]

theorem direct_wellFormed (opcode : Byte) (rex : Option Rex) (escape : Bool)
    (dest src : BitVec 32) (immediate : List Byte) (form : Form)
    (found : opcodeForm none escape opcode = some form) (direct : form.modrm = true)
    (length : immediate.length = form.immediate.length (some (modrmOf dest src 3))) :
    Encoded.WellFormed { bare opcode with
      rex := rex, escape := escape, modrm := some (modrmOf dest src 3), immediate := immediate } :=
  mandatory_wellFormed none opcode rex escape dest src immediate form (by simp) found direct length

theorem plain_wellFormed (opcode : Byte) (rex : Option Rex) (escape : Bool)
    (immediate : List Byte) (form : Form) (found : opcodeForm none escape opcode = some form)
    (plain : form.modrm = false) (length : immediate.length = form.immediate.length none) :
    Encoded.WellFormed { bare opcode with
      rex := rex, escape := escape, immediate := immediate } where
  legacy := by simp [bare]
  opcode := ⟨form, found, plain.symm, length⟩
  sib := rfl
  displacement := rfl

section Operands

variable {encoded : Encoded} {src mod : BitVec 32} {wide : Bool}

theorem direct_rmOperand {dest : Register}
    (rex : encoded.rex = some (rexOf (intOfRegister dest) src wide)) :
    encoded.rmOperand (modrmOf (intOfRegister dest) src 3) = .register dest := by
  simp [Encoded.rmOperand, Encoded.rmRegister, Encoded.rexBit, rex, rexOf, modrmOf]

theorem coded_regOperand {dest : BitVec 32} (rex : encoded.rex = some (rexOf dest src wide)) :
    encoded.regOperand (modrmOf dest src mod) =
      registerNumber (BitVec.slt 7#32 src) (src.setWidth 3) := by
  simp [Encoded.regOperand, Encoded.rexBit, rex, rexOf, modrmOf]

end Operands

def registerForm (opcode : Byte) (escape : Bool) (dest src : Register) : Encoded :=
  { bare opcode with
    rex := some (rexOf (intOfRegister dest) (intOfRegister src) true), escape := escape
    modrm := some (modrmOf (intOfRegister dest) (intOfRegister src) 3) }

theorem registerForm_width (opcode : Byte) (escape : Bool) (dest src : Register) :
    (registerForm opcode escape dest src).width = .qword := rfl

theorem registerForm_rmOperand (opcode : Byte) (escape : Bool) (dest src : Register) :
    (registerForm opcode escape dest src).rmOperand
      (modrmOf (intOfRegister dest) (intOfRegister src) 3) = .register dest :=
  direct_rmOperand rfl

theorem registerForm_regOperand (opcode : Byte) (escape : Bool) (dest src : Register) :
    (registerForm opcode escape dest src).regOperand
      (modrmOf (intOfRegister dest) (intOfRegister src) 3) = src :=
  (coded_regOperand rfl).trans (registerNumber_intOfRegister src)

theorem alu_transforms (opcode : Byte) (op : Alu) (dest src : Register)
    (keeps : op.keeps = true)
    (found : oneByteForm opcode = some { modrm := true, immediate := .absent })
    (means : ∀ (encoded : Encoded) modrm, encoded.opcode = opcode → encoded.twoOperand modrm =
      some (.alu op encoded.width (encoded.rmOperand modrm)
        (.operand (.register (encoded.regOperand modrm))))) :
    Transforms (instructions [rr opcode (intOfRegister dest) (intOfRegister src) true])
      (fun registers =>
        Function.update registers dest (op.value (registers dest) (registers src))) := by
  have instruction : (registerForm opcode false dest src).instruction =
      some (.alu op .qword (.register dest) (.operand (.register src))) := by
    have two := means (registerForm opcode false dest src)
      (modrmOf (intOfRegister dest) (intOfRegister src) 3) rfl
    rw [registerForm_width, registerForm_rmOperand, registerForm_regOperand] at two
    change Option.or _ _ = _
    rw [two]
    rfl
  apply Transforms.single (direct_wellFormed opcode _ false _ _ [] _ found rfl rfl) instruction
  intro state
  exact ⟨_, rfl, by simp [keeps, State.write, State.setRegister, State.read, State.source]⟩

theorem mov_transforms (dest src : Register) :
    Transforms (instructions [mov (intOfRegister dest) (intOfRegister src)])
      (fun registers => Function.update registers dest (registers src)) := by
  have instruction : (registerForm 0x89 false dest src).instruction =
      some (.mov .qword (.register dest) (.operand (.register src))) := by
    change some (Instruction.mov _ _ (.operand (.register _))) = _
    rw [registerForm_width, registerForm_rmOperand, registerForm_regOperand]
  apply Transforms.single (direct_wellFormed 0x89 _ false _ _ [] _ rfl rfl rfl) instruction
  intro state
  exact ⟨_, rfl, by simp [State.write, State.setRegister, State.read, State.source]⟩

theorem imul_transforms (dest src : Register) :
    Transforms (instructions [imul (intOfRegister dest) (intOfRegister src)])
      (fun registers => Function.update registers dest (registers dest * registers src)) := by
  have instruction : (registerForm 0xAF true src dest).instruction =
      some (.imul .qword dest (.register src)) := by
    change some (Instruction.imul _ _ _) = _
    rw [registerForm_width, registerForm_rmOperand, registerForm_regOperand]
  apply Transforms.single (direct_wellFormed 0xAF _ true _ _ [] _ rfl rfl rfl) instruction
  intro state
  exact ⟨_, rfl, by simp [State.setRegister, State.read]⟩

theorem add_transforms (dest src : Register) :
    Transforms (instructions [add (intOfRegister dest) (intOfRegister src)])
      (fun registers => Function.update registers dest (registers dest + registers src)) :=
  alu_transforms 0x01 .add dest src rfl rfl fun encoded modrm opcode => by
    simp [Encoded.twoOperand, opcode]

theorem sub_transforms (dest src : Register) :
    Transforms (instructions [sub (intOfRegister dest) (intOfRegister src)])
      (fun registers => Function.update registers dest (registers dest - registers src)) :=
  alu_transforms 0x29 .sub dest src rfl rfl fun encoded modrm opcode => by
    simp [Encoded.twoOperand, opcode]

theorem and_transforms (dest src : Register) :
    Transforms (instructions [EncoderUse.and (intOfRegister dest) (intOfRegister src)])
      (fun registers => Function.update registers dest (registers dest &&& registers src)) :=
  alu_transforms 0x21 .and dest src rfl rfl fun encoded modrm opcode => by
    simp [Encoded.twoOperand, opcode]

theorem or_transforms (dest src : Register) :
    Transforms (instructions [EncoderUse.or (intOfRegister dest) (intOfRegister src)])
      (fun registers => Function.update registers dest (registers dest ||| registers src)) :=
  alu_transforms 0x09 .or dest src rfl rfl fun encoded modrm opcode => by
    simp [Encoded.twoOperand, opcode]

theorem xor_transforms (dest src : Register) :
    Transforms (instructions [EncoderUse.xor (intOfRegister dest) (intOfRegister src)])
      (fun registers => Function.update registers dest (registers dest ^^^ registers src)) :=
  alu_transforms 0x31 .xor dest src rfl rfl fun encoded modrm opcode => by
    simp [Encoded.twoOperand, opcode]

theorem signedBytes_le32 (value : BitVec 32) :
    signedBytes (le32 value) = value.signExtend 64 := by
  have whole : ByteOrder.join 32 (le32 value) = value := ByteOrder.join_split 4 value (by decide)
  exact congrArg (BitVec.signExtend 64) whole

def rowForm (opcode : Byte) (dest : Register) (row : BitVec 32) (immediate : List Byte) : Encoded :=
  { bare opcode with
    rex := some (rexOf (intOfRegister dest) row true)
    modrm := some (modrmOf (intOfRegister dest) row 3), immediate := immediate }

theorem rowForm_rmOperand (opcode : Byte) (dest : Register) (row : BitVec 32)
    (immediate : List Byte) :
    (rowForm opcode dest row immediate).rmOperand (modrmOf (intOfRegister dest) row 3) =
      .register dest :=
  direct_rmOperand rfl

theorem movi32_transforms (dest : Register) (im : BitVec 32) :
    Transforms (instructions [movi32 (intOfRegister dest) im])
      (fun registers => Function.update registers dest (im.signExtend 64)) := by
  have instruction : (rowForm 0xC7 dest 0 (le32 im)).instruction =
      some (.mov .qword (.register dest) (.immediate (im.signExtend 64))) := by
    change some (Instruction.mov .qword _ (.immediate (signedBytes (le32 im)))) = _
    rw [rowForm_rmOperand, signedBytes_le32]
  apply Transforms.single (direct_wellFormed 0xC7 _ false _ _ (le32 im) _ rfl rfl rfl) instruction
  intro state
  exact ⟨_, rfl, by simp [State.write, State.setRegister, State.source]⟩

theorem outcome_straight {code : BitVec 4} {opcode : Byte} {condition : Bool} (before : State)
    (sets : Encoded.instruction { bare opcode with escape := true, modrm := some (modrmOf 0 0 3) } =
      some (.set code rax))
    (holds : before.flags.holds code = some condition) :
    ∃ after, Straight (instructions [op0 opcode 0 0, movzx 0 0]) before after ∧
      after.registers = Function.update before.registers rax (if condition then 1 else 0) ∧
      after.memory = before.memory ∧ after.flags = before.flags := by
  let set : Encoded := { bare opcode with escape := true, modrm := some (modrmOf 0 0 3) }
  let outcome := (BitVec.ofBool condition).setWidth 8
  let written := { before with rip := before.rip + set.size }.setRegister rax
    ((before.registers rax).extractLsb' 8 56 ++ outcome)
  let widen : Encoded := { bare 0xB6 with escape := true, modrm := some (modrmOf 0 0 3) }
  have setExecutes : set.execute before = some written := by
    simp only [Encoded.execute, sets, set, Option.bind_some, Instruction.execute, holds, bind]
    rfl
  have widenExecutes : widen.execute written =
      some ({ written with rip := written.rip + widen.size }.setRegister rax
        ((written.registers rax).setWidth 8)) := rfl
  have widened : (written.registers rax).setWidth 8 = outcome := by
    simp only [written, State.setRegister, Function.update_self]
    apply BitVec.eq_of_getLsbD_eq
    intro i inside
    rw [BitVec.getLsbD_setWidth, BitVec.getLsbD_setWidth, BitVec.getLsbD_append]
    have within : i < 64 := by omega
    simp [inside, within]
  refine ⟨_, ⟨written, setExecutes, rfl, _, widenExecutes, rfl, rfl⟩, ?_, rfl, rfl⟩
  rw [widened]
  simp only [written, State.setRegister, Function.update_idem]
  cases condition <;> rfl

theorem comparison_transforms {compare : Encoded} {left : Register} {source : Source}
    {right : (Register → BitVec 64) → BitVec 64} {code : BitVec 4} {opcode : Byte}
    {test : BitVec 64 → BitVec 64 → Bool} (wellFormed : compare.WellFormed)
    (compares : compare.instruction = some (.alu .cmp .qword (.register left) source))
    (reads : ∀ state : State, state.source .qword source = right state.registers)
    (found : escapedForm opcode = some { modrm := true, immediate := .absent })
    (sets : Encoded.instruction { bare opcode with escape := true, modrm := some (modrmOf 0 0 3) } =
      some (.set code rax))
    (holds : ∀ x y : BitVec 64, (Alu.flags x y .cmp).holds code = some (test x y)) :
    Transforms (compare :: instructions [op0 opcode 0 0, movzx 0 0])
      (fun registers => Function.update registers rax
        (if test (registers left) (right registers) then 1 else 0)) where
  wellFormed encoded member := by
    have setWellFormed := direct_wellFormed opcode none true 0 0 [] _ found rfl rfl
    have movzxWellFormed := direct_wellFormed 0xB6 none true 0 0 [] _ rfl rfl rfl
    cases member with
    | head => exact wellFormed
    | tail _ member =>
      cases member with
      | head => exact setWellFormed
      | tail _ member =>
        cases member with
        | head => exact movzxWellFormed
        | tail _ member => cases member
  straight before := by
    let fetched := { before with rip := before.rip + compare.size }
    let compared := { fetched with
      flags := Alu.flags (before.registers left) (right before.registers) .cmp }
    have same : fetched.read .qword (.register left) = before.registers left :=
      BitVec.setWidth_eq _
    have executes : compare.execute before = some compared := by
      simp only [Encoded.execute, compares, Option.bind_some, Instruction.execute, fetched] at same ⊢
      rw [same, reads]
      rfl
    obtain ⟨after, straight, registers, memory, -⟩ :=
      outcome_straight compared sets (holds _ _)
    exact ⟨after, ⟨compared, executes, rfl, straight⟩, registers, memory⟩

section Comparisons

variable {code : BitVec 4} (opcode : Byte) {test : BitVec 64 → BitVec 64 → Bool} (left : Register)
  (found : escapedForm opcode = some { modrm := true, immediate := .absent })
  (sets : Encoded.instruction { bare opcode with escape := true, modrm := some (modrmOf 0 0 3) } =
    some (.set code rax))
  (holds : ∀ x y : BitVec 64, (Alu.flags x y .cmp).holds code = some (test x y))

include found sets holds

theorem cmp64_transforms (right : Register) :
    Transforms (instructions
        [cmp64 (intOfRegister left) (intOfRegister right), op0 opcode 0 0, movzx 0 0])
      (fun registers => Function.update registers rax
        (if test (registers left) (registers right) then 1 else 0)) := by
  have compares : (registerForm 0x39 false left right).instruction =
      some (.alu .cmp .qword (.register left) (.operand (.register right))) := by
    change some (Instruction.alu .cmp _ _ (.operand (.register _))) = _
    rw [registerForm_width, registerForm_rmOperand, registerForm_regOperand]
  have reads (state : State) :
      state.source .qword (.operand (.register right)) = state.registers right :=
    BitVec.setWidth_eq _
  exact comparison_transforms (direct_wellFormed 0x39 _ false _ _ [] _ rfl rfl rfl) compares reads
    found sets holds

theorem cmpi8_transforms :
    Transforms (instructions [cmpi8 (intOfRegister left) 0, op0 opcode 0 0, movzx 0 0])
      (fun registers => Function.update registers rax
        (if test (registers left) 0 then 1 else 0)) := by
  have compares : (rowForm 0x83 left 7 [0]).instruction =
      some (.alu .cmp .qword (.register left) (.immediate 0)) := by
    change some (Instruction.alu .cmp .qword _ (.immediate (signedBytes [0]))) = _
    rw [rowForm_rmOperand]
    rfl
  have reads (state : State) : state.source .qword (.immediate 0) = 0 := rfl
  exact comparison_transforms (direct_wellFormed 0x83 _ false _ _ [0] _ rfl rfl rfl) compares reads
    found sets holds

end Comparisons

end Jit
