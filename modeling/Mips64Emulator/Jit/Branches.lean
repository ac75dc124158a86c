import Mips64Emulator.Jit.LinkTables
import Mips64Emulator.Jit.ThreeRegister

set_option autoImplicit false

namespace Jit

open X86 EncoderUse

def operandInt (operand : Option Register) : BitVec 32 := (operand.map intOfRegister).getD jitR0

def operandValue (registers : Register → BitVec 64) (operand : Option Register) : BitVec 64 :=
  (operand.map registers).getD 0

theorem operandInt_inj (left right : Option Register) :
    operandInt left = operandInt right ↔ left = right := by
  cases left with
  | none =>
    cases right with
    | none => simp
    | some right => simp [operandInt, (intOfRegister_ne_jitR0 right).symm]
  | some left =>
    cases right with
    | none => simp [operandInt, intOfRegister_ne_jitR0 left]
    | some right => simp [operandInt, intOfRegister_inj]

inductive JitInteger where
  | r0
  | re
  | sp
  | register (index : JitRegister)
  deriving DecidableEq, Repr

namespace JitInteger

def number? (abi : Abi) : JitInteger → Option Register
  | r0 => none
  | re => some rax
  | sp => some rsp
  | register index => some (index.number abi)

def int (abi : Abi) (operand : JitInteger) : BitVec 32 := operandInt (operand.number? abi)

def value (abi : Abi) (registers : Register → BitVec 64) (operand : JitInteger) : BitVec 64 :=
  operandValue registers (operand.number? abi)

end JitInteger

/-- Running the code of a call ends behind it, `o` further on where the jump is taken, with memory and
every register but `rax` as before. -/
def Transfers (call : JitCall) (o : BitVec 32) (taken : Prop) [Decidable taken]
    (before : State) : Prop :=
  ∃ after, run call.code before = some after ∧
    after.rip = before.rip + BitVec.ofNat 64 call.code.length +
      (if taken then o.signExtend 64 else 0) ∧
    after.memory = before.memory ∧
    ∀ other, other ≠ rax → after.registers other = before.registers other

theorem equality_transforms (left right : Option Register) (differ : left ≠ right) :
    Transforms
      (instructions [comparison (operandInt left) (operandInt right), sete al, movzx raxInt al])
      (fun registers => Function.update registers rax
        (if decide (operandValue registers left = operandValue registers right) then 1 else 0)) := by
  have holds (x y : BitVec 64) := Alu.cmp_equal x y
  cases left with
  | none =>
    cases right with
    | none => exact absurd rfl differ
    | some right =>
      have row := cmpi8_transforms 0x94 right rfl rfl holds
      have turned (registers : Register → BitVec 64) :
          decide (operandValue registers none = operandValue registers (some right)) =
            decide (registers right = 0) := decide_eq_decide.mpr eq_comm
      simp only [turned, comparison]
      exact row
  | some left =>
    have real : operandInt (some left) ≠ jitR0 := intOfRegister_ne_jitR0 left
    cases right with
    | none =>
      have row := cmpi8_transforms 0x94 left rfl rfl holds
      have compares : comparison (operandInt (some left)) (operandInt none) =
          cmpi8 (intOfRegister left) 0 := by
        rw [comparison, if_neg real]
        exact if_pos rfl
      rw [compares]
      exact row
    | some right =>
      have row := cmp64_transforms 0x94 left rfl rfl holds right
      have compares : comparison (operandInt (some left)) (operandInt (some right)) =
          cmp64 (intOfRegister left) (intOfRegister right) := by
        rw [comparison, if_neg real]
        exact if_neg (intOfRegister_ne_jitR0 right)
      rw [compares]
      exact row

section LastJump

variable (opcode : Byte) (off : BitVec 32) (before : State)

theorem testJump_wellFormed (known : opcode = 0x84 ∨ opcode = 0x85) :
    ∀ encoded ∈ testJump opcode off, encoded.WellFormed := by
  have testWellFormed := direct_wellFormed 0x85 none false 0 0 [] _ rfl rfl rfl
  have jumpWellFormed : Encoded.WellFormed
      { bare opcode with escape := true, immediate := le32 off } := by
    cases known with
    | inl equal => exact plain_wellFormed opcode none true (le32 off) _ (by rw [equal]; rfl) rfl rfl
    | inr unequal =>
      exact plain_wellFormed opcode none true (le32 off) _ (by rw [unequal]; rfl) rfl rfl
  intro encoded member
  cases member with
  | head => exact testWellFormed
  | tail _ member =>
    cases member with
    | head => exact jumpWellFormed
    | tail _ member => cases member

theorem jcc_instruction :
    Encoded.instruction { bare opcode with escape := true, immediate := le32 off } =
      some (.jcc (opcode.extractLsb' 0 4) (off.signExtend 64)) := by
  rw [← signedBytes_le32]
  rfl

-- `jz` jumps on a zero `eax`, `jnz` on any other.
theorem testJump_executes (taken : Bool)
    (holds : (Alu.flags ((before.registers rax).setWidth 32)
      ((before.registers rax).setWidth 32) .test).holds (opcode.extractLsb' 0 4) = some taken) :
    ∃ after, executeAll (testJump opcode off) before = some after ∧
      after.registers = before.registers ∧ after.memory = before.memory ∧
      after.rip = before.rip +
        BitVec.ofNat 64 ((testJump opcode off).flatMap Encoded.bytes).length +
          (if taken then off.signExtend 64 else 0) := by
  let test : Encoded := { bare 0x85 with modrm := some (modrmOf 0 0 3) }
  let jump : Encoded := { bare opcode with escape := true, immediate := le32 off }
  let eax := (before.registers rax).setWidth 32
  let tested := { before with rip := before.rip + test.size, flags := Alu.flags eax eax .test }
  let behind := { tested with rip := tested.rip + jump.size }
  have testExecutes : test.execute before = some tested := rfl
  have jumpExecutes : jump.execute tested =
      some (if taken then behind.jump (off.signExtend 64) else behind) := by
    simp only [Encoded.execute, jump, jcc_instruction, Option.bind_some, Instruction.execute, tested, eax,
      holds, bind]
    rfl
  have falls : Straight [test] before tested := Straight.single testExecutes rfl
  have ran := falls.executeAll_append [jump]
  rw [executeAll_single, jumpExecutes] at ran
  refine ⟨_, ran, ?_⟩
  have length : before.rip + BitVec.ofNat 64 ((testJump opcode off).flatMap Encoded.bytes).length =
      behind.rip := by
    rw [testJump, List.flatMap_cons, List.flatMap_cons, List.flatMap_nil, List.append_nil,
      List.length_append, BitVec.ofNat_add, ← BitVec.add_assoc]
    rfl
  rw [length]
  cases taken with
  | true => exact ⟨rfl, rfl, rfl⟩
  | false => exact ⟨rfl, rfl, (BitVec.add_zero _).symm⟩

end LastJump

theorem compared_transfers (use : EncoderUse) (opcode : Byte) (polarity : Bool → Bool)
    {call : JitCall} {o : BitVec 32} {left right : Option Register} {taken : Prop}
    [Decidable taken] (before : State)
    (emits : call.uses =
      [comparison (operandInt left) (operandInt right), sete al, movzx raxInt al, use])
    (differ : left ≠ right) (known : opcode = 0x84 ∨ opcode = 0x85)
    (lasts : use.encoded = testJump opcode o)
    (holds : ∀ outcome : Bool,
      let eax := ((if outcome then 1 else 0 : BitVec 64)).setWidth 32
      (Alu.flags eax eax .test).holds (opcode.extractLsb' 0 4) = some (polarity outcome))
    (reads : polarity (decide (operandValue before.registers left =
      operandValue before.registers right)) = decide taken) :
    Transfers call o taken before := by
  have compare := equality_transforms left right differ
  obtain ⟨middle, ran, registers, memory, rip⟩ :=
    compare.run_append (testJump_wellFormed opcode o known) before
  have outcome : middle.registers rax = if decide (operandValue before.registers left =
      operandValue before.registers right) then 1 else 0 := by
    rw [registers, Function.update_self]
  obtain ⟨after, executed, afterRegisters, afterMemory, afterRip⟩ :=
    testJump_executes opcode o middle (decide taken) (by rw [outcome, holds, reads])
  have whole : call.code = (instructions
      [comparison (operandInt left) (operandInt right), sete al, movzx raxInt al] ++
        testJump opcode o).flatMap Encoded.bytes := by
    rw [JitCall.code, emits, usesBytes_correct, ← lasts]
    simp [instructions]
  refine ⟨after, ?_, ?_, afterMemory.trans memory, ?_⟩
  · rw [whole, ran, executed]
  · rw [afterRip, rip, whole, List.flatMap_append, List.length_append, BitVec.ofNat_add,
      ← BitVec.add_assoc]
    by_cases jumps : taken <;> simp [jumps]
  · intro other notRax
    rw [afterRegisters, registers, Function.update_of_ne notRax]

section Calls

variable (abi : Abi) (s t : JitInteger) (o : BitVec 32)

theorem branch_uses (away : jumpsAway o) :
    (JitCall.branch (s.int abi) (t.int abi) o).uses =
      if s.int abi = t.int abi then [jmp o]
      else [comparison (s.int abi) (t.int abi), sete al, movzx raxInt al, jnz o] := by
  by_cases same : s.int abi = t.int abi
  · have delegates : (JitCall.branch (s.int abi) (t.int abi) o).actions = jitJump o := if_pos same
    have jumps : o ≠ jitR0 ∨ o.slt (-1) := by
      rw [jumpsAway_iff] at away
      exact Or.inl fun equal => away (Or.inr equal)
    rw [linked_uses_eq delegates, if_pos jumps, if_pos same]
  · have compares : (JitCall.branch (s.int abi) (t.int abi) o).actions = _ := if_neg same
    rw [linked_uses_eq compares, if_pos away, if_neg same]

theorem nbranch_uses (away : jumpsAway o) :
    (JitCall.nbranch (s.int abi) (t.int abi) o).uses =
      if s.int abi = t.int abi then []
      else [comparison (s.int abi) (t.int abi), sete al, movzx raxInt al, jz o] := by
  have actions : (JitCall.nbranch (s.int abi) (t.int abi) o).actions = _ := rfl
  rw [linked_uses_eq actions]
  by_cases same : s.int abi = t.int abi <;> simp [same, away]

theorem value_of_int_eq (registers : Register → BitVec 64) (same : s.int abi = t.int abi) :
    s.value abi registers = t.value abi registers := by
  have numbers := (operandInt_inj _ _).mp same
  rw [JitInteger.value, JitInteger.value, numbers]

theorem jmp_transfers {call : JitCall} {taken : Prop} [Decidable taken] (before : State)
    (emits : call.uses = [jmp o]) (always : taken) : Transfers call o taken before := by
  let jump : Encoded := { bare 0xE9 with immediate := le32 o }
  have wellFormed : jump.WellFormed := plain_wellFormed 0xE9 none false (le32 o) _ rfl rfl rfl
  have whole : call.code = ([] ++ [jump]).flatMap Encoded.bytes := by
    rw [JitCall.code, emits, usesBytes_correct]
    rfl
  have means : jump.instruction = some (.jmp (o.signExtend 64)) := by
    change some (Instruction.jmp (signedBytes (le32 o))) = _
    rw [signedBytes_le32]
  have onlyJump : ∀ encoded ∈ [jump], encoded.WellFormed := by
    intro encoded member
    exact List.mem_singleton.mp member ▸ wellFormed
  obtain ⟨middle, ran, registers, memory, rip⟩ := Transforms.nil.run_append onlyJump before
  have executed : jump.execute middle =
      some ({ middle with rip := middle.rip + jump.size }.jump (o.signExtend 64)) := by
    rw [Encoded.execute, means]
    rfl
  rw [executeAll_single, executed, ← whole] at ran
  refine ⟨_, ran, ?_, memory, fun other _ => congrFun registers other⟩
  rw [whole, if_pos always, List.flatMap_append, List.length_append, BitVec.ofNat_add,
    ← BitVec.add_assoc, ← rip]
  simp [State.jump, Encoded.size]

end Calls

theorem branches_are_exact (abi : Abi) (s t : JitInteger) (o : BitVec 32) (away : jumpsAway o)
    (before : State) :
    Transfers (.branch (s.int abi) (t.int abi) o) o
        (s.value abi before.registers = t.value abi before.registers) before ∧
      Transfers (.nbranch (s.int abi) (t.int abi) o) o
        (s.value abi before.registers ≠ t.value abi before.registers) before := by
  have branch := branch_uses abi s t o away
  have nbranch := nbranch_uses abi s t o away
  by_cases same : s.int abi = t.int abi
  · have equal := value_of_int_eq abi s t before.registers same
    rw [if_pos same] at branch nbranch
    have nothing : (JitCall.nbranch (s.int abi) (t.int abi) o).code = [] := by
      rw [JitCall.code, nbranch]
      rfl
    refine ⟨jmp_transfers o before branch equal, before, ?_, ?_, rfl, fun _ _ => rfl⟩
    · rw [nothing]
      rfl
    · rw [nothing, if_neg (not_not.mpr equal)]
      simp
  · have differ := mt (operandInt_inj _ _).mpr same
    rw [if_neg same] at branch nbranch
    constructor
    · exact compared_transfers (jnz o) 0x85 id before branch differ (Or.inr rfl) rfl (by decide) rfl
    · exact compared_transfers (jz o) 0x84 not before nbranch differ (Or.inl rfl) rfl (by decide)
        decide_not.symm

-- `JIT_R0` against a register that is not zero.
theorem branches_are_exact_zero :
    let before : State :=
      { registers := fun _ => 1, flags := Flags.undefined, memory := fun _ => 0, rip := 0 }
    Transfers (.branch (JitInteger.r0.int .systemV) ((JitInteger.register .r1).int .systemV) 16) 16
      (JitInteger.r0.value .systemV before.registers =
        (JitInteger.register .r1).value .systemV before.registers) before := by
  intro before
  exact (branches_are_exact .systemV .r0 (.register .r1) 16 (by decide) before).1

end Jit
