import Mips64Emulator.Jit.RegisterEffects

set_option autoImplicit false

namespace Jit

open X86 EncoderUse

theorem inOpcode_wellFormed (first : BitVec 32) (index : Register)
    (found : oneByteForm (inOpcode first (intOfRegister index)).opcode =
      some { modrm := false, immediate := .absent }) :
    (inOpcode first (intOfRegister index)).WellFormed := by
  unfold inOpcode at found ⊢
  by_cases low : (intOfRegister index).slt 8
  · rw [if_pos low] at found ⊢
    exact plain_wellFormed _ none false [] _ found rfl rfl
  · rw [if_neg low] at found ⊢
    exact plain_wellFormed _ (some _) false [] _ found rfl rfl

theorem push_wellFormed (index : Register) : (inOpcode 80 (intOfRegister index)).WellFormed := by
  apply inOpcode_wellFormed
  revert index
  decide

theorem pop_wellFormed (index : Register) : (inOpcode 88 (intOfRegister index)).WellFormed := by
  apply inOpcode_wellFormed
  revert index
  decide

theorem push_instruction (index : Register) :
    (inOpcode 80 (intOfRegister index)).instruction = some (.push index) := by
  revert index
  decide

theorem pop_instruction (index : Register) :
    (inOpcode 88 (intOfRegister index)).instruction = some (.pop index) := by
  revert index
  decide

def pushed (index : Register) (before : State) : State :=
  { before with rip := before.rip + (inOpcode 80 (intOfRegister index)).size }.push
    (before.registers index)

theorem push_straight (index : Register) (before : State) :
    Straight (instructions [push (intOfRegister index)]) before (pushed index before) := by
  apply Straight.single
  · rw [Encoded.execute, push_instruction]
    rfl
  · rfl

theorem saved_straight {body : List Encoded} {before middle : State} (index : Register)
    (runs : Straight body (pushed index before) middle)
    (memory : middle.memory = (pushed index before).memory)
    (stack : middle.registers rsp = before.registers rsp - 8) :
    ∃ after, Straight (instructions [push (intOfRegister index)] ++
        (body ++ instructions [pop (intOfRegister index)])) before after ∧
      after.registers = Function.update
        (Function.update middle.registers rsp (before.registers rsp)) index
        (before.registers index) := by
  let restore := inOpcode 88 (intOfRegister index)
  let behind : State := { middle with rip := middle.rip + restore.size }
  let popped := (behind.setRegister rsp (before.registers rsp - 8 + 8)).setRegister index
    (behind.load 8 (before.registers rsp - 8))
  have executes : restore.execute middle = some popped := by
    rw [Encoded.execute, pop_instruction]
    simp only [Option.bind_some, Instruction.execute, popped, behind, stack]
  have loaded : behind.load 8 (before.registers rsp - 8) = before.registers index := by
    have stored : behind.memory = (before.store (before.registers rsp - 8)
        (ByteOrder.split 8 (before.registers index))).memory := memory
    rw [State.load_stored before behind _ 8 _ (by decide) stored]
    exact BitVec.setWidth_eq _
  have restores : Straight (instructions [pop (intOfRegister index)]) middle popped :=
    Straight.single executes rfl
  refine ⟨popped, (push_straight index before).append (runs.append restores), ?_⟩
  simp only [popped, State.setRegister, loaded, BitVec.sub_add_cancel, BitVec.setWidth_eq]
  rfl

end Jit
