import Mips64Emulator.Jit.LoadedCode

set_option autoImplicit false

namespace Jit

open X86 EncoderUse

theorem jcc_keepsMemory (opcode : Byte) (off : BitVec 32) :
    Encoded.KeepsMemory { bare opcode with escape := true, immediate := le32 off } := by
  intro instruction means
  rw [jcc_instruction] at means
  cases means
  trivial

theorem testJump_keepsMemory (opcode : Byte) (off : BitVec 32) :
    ∀ encoded ∈ testJump opcode off, encoded.KeepsMemory := by
  intro encoded member
  rcases List.mem_cons.mp member with rfl | member
  · exact Encoded.keepsMemory_of_direct rfl rfl (by decide)
  · exact List.mem_singleton.mp member ▸ jcc_keepsMemory opcode off

def relativeForm (opcode : Byte) (off : BitVec 32) : Encoded :=
  { bare opcode with immediate := le32 off }

theorem jmp_instruction (off : BitVec 32) :
    (relativeForm 0xE9 off).instruction = some (.jmp (off.signExtend 64)) := by
  rw [← signedBytes_le32]
  rfl

theorem calli32_instruction (off : BitVec 32) :
    (relativeForm 0xE8 off).instruction = some (.call (off.signExtend 64)) := by
  rw [← signedBytes_le32]
  rfl

-- How a call with a jump in it ends: behind its code, `o` further on where the jump is taken.
structure RunsAway (code : List Byte) (o : BitVec 32) (taken : Prop) [Decidable taken]
    (before after : State) : Prop where
  steps : Steps before after
  rip : after.rip = before.rip + BitVec.ofNat 64 code.length +
    (if taken then o.signExtend 64 else 0)
  memory : after.memory = before.memory
  registers : ∀ other, other ≠ rax → after.registers other = before.registers other

theorem transfers_runsAway {call : JitCall} {o : BitVec 32} {taken : Prop} [Decidable taken]
    {before : State} (transfers : Transfers call o taken before)
    (wellFormed : ∀ encoded ∈ instructions call.uses, encoded.WellFormed)
    (keeps : ∀ encoded ∈ instructions call.uses, encoded.KeepsMemory)
    (loaded : Loaded before.memory before.rip call.code) :
    ∃ after, RunsAway call.code o taken before after := by
  obtain ⟨after, ran, rip, memory, registers⟩ := transfers
  rw [JitCall.code, usesBytes_correct] at ran loaded
  obtain ⟨steps, -⟩ := run_steps ran wellFormed keeps loaded
  exact ⟨after, steps, rip, memory, registers⟩

theorem jmp_runsAway {call : JitCall} {o : BitVec 32} {taken : Prop} [Decidable taken]
    (before : State) (emits : call.uses = [jmp o]) (always : taken)
    (loaded : Loaded before.memory before.rip call.code) :
    ∃ after, RunsAway call.code o taken before after := by
  have single : instructions call.uses = [relativeForm 0xE9 o] := by
    rw [emits]
    rfl
  refine transfers_runsAway (jmp_transfers o before emits always) ?_ ?_ loaded
  · intro encoded member
    rw [single] at member
    exact List.mem_singleton.mp member ▸ plain_wellFormed 0xE9 none false (le32 o) _ rfl rfl rfl
  · intro encoded member instruction means
    rw [single] at member
    rw [List.mem_singleton.mp member, jmp_instruction] at means
    cases means
    trivial

section Compared

variable {call : JitCall} {o : BitVec 32} {taken : Prop} [Decidable taken]
  {left right : Option Register} {before : State} (opcode : Byte)
  (known : opcode = 0x84 ∨ opcode = 0x85)
  (shape : instructions call.uses = instructions
    [comparison (operandInt left) (operandInt right), sete al, movzx raxInt al] ++
      testJump opcode o)
  (differ : left ≠ right)

include known shape differ

theorem compared_runsAway (transfers : Transfers call o taken before)
    (loaded : Loaded before.memory before.rip call.code) :
    ∃ after, RunsAway call.code o taken before after := by
  have compare := equality_transforms left right differ
  have direct : AllDirect
      [comparison (operandInt left) (operandInt right), op0 0x94 0 al, movzx raxInt al] :=
    outcome_direct (comparison_direct _ _) (by decide)
  refine transfers_runsAway transfers ?_ ?_ loaded
  · intro encoded member
    rcases List.mem_append.mp (shape ▸ member) with compares | jumps
    · exact compare.wellFormed encoded compares
    · exact testJump_wellFormed opcode o known encoded jumps
  · intro encoded member
    rcases List.mem_append.mp (shape ▸ member) with compares | jumps
    · exact direct.keepsMemory encoded compares
    · exact testJump_keepsMemory opcode o encoded jumps

end Compared

section Branches

variable (abi : Abi) (s t : JitInteger) (o : BitVec 32) (away : jumpsAway o) {before : State}

include away

theorem jump_runsAway (loaded : Loaded before.memory before.rip (JitCall.jump o).code) :
    ∃ after, RunsAway (JitCall.jump o).code o True before after := by
  have jumps : o ≠ jitR0 ∨ o.slt (-1) := by
    rw [jumpsAway_iff] at away
    exact Or.inl fun equal => away (Or.inr equal)
  have emits : (JitCall.jump o).uses = [jmp o] := by
    have actions : (JitCall.jump o).actions = _ := rfl
    rw [linked_uses_eq actions, if_pos jumps]
  exact jmp_runsAway before emits trivial loaded

theorem branch_runsAway
    (loaded : Loaded before.memory before.rip (JitCall.branch (s.int abi) (t.int abi) o).code) :
    ∃ after, RunsAway (JitCall.branch (s.int abi) (t.int abi) o).code o
      (s.value abi before.registers = t.value abi before.registers) before after := by
  have uses := branch_uses abi s t o away
  by_cases same : s.int abi = t.int abi
  · have equal := value_of_int_eq abi s t before.registers same
    rw [if_pos same] at uses
    exact jmp_runsAway before uses equal loaded
  · have differ := mt (operandInt_inj _ _).mpr same
    rw [if_neg same] at uses
    have transfers : Transfers (.branch (s.int abi) (t.int abi) o) o
        (s.value abi before.registers = t.value abi before.registers) before :=
      compared_transfers (jnz o) 0x85 id before uses differ (Or.inr rfl) rfl (by decide) rfl
    have shape := (congrArg instructions uses).trans (instructions_append [_, _, _] [jnz o])
    exact compared_runsAway 0x85 (Or.inr rfl) shape differ transfers loaded

theorem nbranch_runsAway
    (loaded : Loaded before.memory before.rip (JitCall.nbranch (s.int abi) (t.int abi) o).code) :
    ∃ after, RunsAway (JitCall.nbranch (s.int abi) (t.int abi) o).code o
      (s.value abi before.registers ≠ t.value abi before.registers) before after := by
  have uses := nbranch_uses abi s t o away
  by_cases same : s.int abi = t.int abi
  · have equal := value_of_int_eq abi s t before.registers same
    rw [if_pos same] at uses
    have code : (JitCall.nbranch (s.int abi) (t.int abi) o).code = [] := by
      rw [JitCall.code, uses]
      rfl
    refine ⟨before, .refl before, ?_, rfl, fun _ _ => rfl⟩
    rw [code, if_neg (not_not.mpr equal)]
    simp
  · have differ := mt (operandInt_inj _ _).mpr same
    rw [if_neg same] at uses
    have transfers : Transfers (.nbranch (s.int abi) (t.int abi) o) o
        (s.value abi before.registers ≠ t.value abi before.registers) before :=
      compared_transfers (jz o) 0x84 not before uses differ (Or.inl rfl) rfl (by decide)
        decide_not.symm
    have shape := (congrArg instructions uses).trans (instructions_append [_, _, _] [jz o])
    exact compared_runsAway 0x84 (Or.inl rfl) shape differ transfers loaded

end Branches

-- A call leaves the address behind it in the slot it pushes into.
structure Calls (code : List Byte) (target : BitVec 64) (before after : State) : Prop where
  steps : Steps before after
  rip : after.rip = target
  registers : after.registers = Function.update before.registers rsp (freeSlot before)
  memory : after.memory = (before.store (freeSlot before)
    (ByteOrder.split 8 (before.rip + BitVec.ofNat 64 code.length))).memory

theorem call_calls (o : BitVec 32) (away : jumpsAway o) {before : State}
    (loaded : Loaded before.memory before.rip (JitCall.call o).code) :
    ∃ after, Calls (JitCall.call o).code
      (before.rip + BitVec.ofNat 64 (JitCall.call o).code.length + o.signExtend 64) before after := by
  have emits : (JitCall.call o).uses = [calli32 o] := by
    have actions : (JitCall.call o).actions = _ := rfl
    rw [linked_uses_eq actions, if_pos away]
  have code : (JitCall.call o).code = (relativeForm 0xE8 o).bytes := by
    rw [JitCall.code, usesBytes_correct, emits]
    exact List.append_nil _
  have wellFormed : (relativeForm 0xE8 o).WellFormed :=
    plain_wellFormed 0xE8 none false (le32 o) _ rfl rfl rfl
  rw [code] at loaded ⊢
  have executed := Encoded.execute_correct (calli32_instruction o) before
  refine ⟨_, steps_single wellFormed loaded executed, rfl, ?_, rfl⟩
  simp only [State.jump, State.push, State.store, State.setRegister, BitVec.setWidth_eq]
  rfl

theorem callex_calls (s : Register) {before : State}
    (loaded : Loaded before.memory before.rip (JitCall.callex (intOfRegister s)).code) :
    ∃ after, Calls (JitCall.callex (intOfRegister s)).code (before.registers s) before after := by
  have emits : (JitCall.callex (intOfRegister s)).uses = [call64 (intOfRegister s)] :=
    (recorded_uses _).trans (if_pos (intOfRegister_ne_jitR0 s))
  have code : (JitCall.callex (intOfRegister s)).code = (rowForm 0xFF s 2 []).bytes := by
    rw [JitCall.code, usesBytes_correct, emits]
    exact List.append_nil _
  have wellFormed : (rowForm 0xFF s 2 []).WellFormed :=
    direct_wellFormed 0xFF _ false _ _ [] _ rfl rfl rfl
  have means : (rowForm 0xFF s 2 []).instruction = some (.callNear (.register s)) := by
    change some (Instruction.callNear _) = _
    rw [rowForm_rmOperand]
  rw [code] at loaded ⊢
  have executed := Encoded.execute_correct means before
  refine ⟨_, steps_single wellFormed loaded executed, ?_, ?_, rfl⟩
  · exact BitVec.setWidth_eq _
  · simp only [State.push, State.store, State.setRegister, BitVec.setWidth_eq]
    rfl

theorem return_steps {before : State}
    (loaded : Loaded before.memory before.rip JitCall.return.code) :
    ∃ after, Steps before after ∧
      after.rip = (before.load 8 (before.registers rsp)).setWidth 64 ∧
      after.registers = Function.update before.registers rsp (before.registers rsp + 8) ∧
      after.memory = before.memory := by
  have wellFormed : (bare 0xC3).WellFormed := plain_wellFormed 0xC3 none false [] _ rfl rfl rfl
  have means : (bare 0xC3).instruction = some .ret := by decide
  have code : JitCall.return.code = (bare 0xC3).bytes := by decide
  rw [code] at loaded
  have executed := Encoded.execute_correct means before
  refine ⟨_, steps_single wellFormed loaded executed, rfl, ?_, rfl⟩
  simp only [State.setRegister, BitVec.setWidth_eq]

end Jit
