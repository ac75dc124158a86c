import Mips64Emulator.Jit.SavedRegister
import Mips64Emulator.Jit.ThreeRegister

set_option autoImplicit false

namespace Jit

open X86 EncoderUse

inductive ShiftOperation where
  | left
  | right
  deriving DecidableEq, Repr

namespace ShiftOperation

def call (d s t : BitVec 32) : ShiftOperation → JitCall
  | left => .shiftl d s t
  | right => .shiftr d s t

def use : ShiftOperation → BitVec 32 → EncoderUse
  | left => sal
  | right => sar

def shift : ShiftOperation → Shift
  | left => .shl
  | right => .sar

def value (operand : BitVec 64) (count : Nat) (op : ShiftOperation) : BitVec 64 :=
  op.shift.value operand (count % 64)

def Fixes (operand : BitVec 64) (count : Nat) : ShiftOperation → Prop
  | left => count % 64 = 0 ∨ operand = 0
  | right => count % 64 = 0 ∨ operand = 0 ∨ operand = BitVec.allOnes 64

end ShiftOperation

-- Each bit comes from below, and nothing stands below the lowest one.
theorem shiftLeft_eq_self_iff (operand : BitVec 64) (count : Nat) :
    operand <<< count = operand ↔ count = 0 ∨ operand = 0 := by
  constructor
  · intro same
    by_cases still : count = 0
    · exact Or.inl still
    · refine Or.inr (BitVec.eq_of_getLsbD_eq fun i inside => ?_)
      change _ = (0#64).getLsbD i
      rw [BitVec.getLsbD_zero]
      induction i using Nat.strong_induction_on with
      | _ i below =>
        rw [← same, BitVec.getLsbD_shiftLeft]
        by_cases low : i < count
        · simp [low]
        · rw [below (i - count) (by omega) (by omega)]
          simp
  · rintro (rfl | rfl) <;> simp

-- Each bit comes from above, and the sign stands above the highest one.
theorem sshiftRight_eq_self_iff (operand : BitVec 64) (count : Nat) :
    operand.sshiftRight count = operand ↔ count = 0 ∨ operand = 0 ∨ operand = BitVec.allOnes 64 := by
  constructor
  · intro same
    by_cases still : count = 0
    · exact Or.inl still
    have sign (i : Nat) (inside : i < 64) : operand.getLsbD i = operand.msb := by
      induction above : 64 - i using Nat.strong_induction_on generalizing i with
      | _ room higher =>
        rw [← same, BitVec.getLsbD_sshiftRight, BitVec.msb_sshiftRight]
        have notBeyond : ¬ 64 ≤ i := by omega
        by_cases within : count + i < 64
        · have next := higher (64 - (count + i)) (by omega) (count + i) within rfl
          rw [if_pos within, next]
          simp [notBeyond]
        · rw [if_neg within]
          simp [notBeyond]
    refine Or.inr ?_
    cases negative : operand.msb with
    | false =>
      refine Or.inl (BitVec.eq_of_getLsbD_eq fun i inside => ?_)
      change _ = (0#64).getLsbD i
      rw [sign i inside, negative, BitVec.getLsbD_zero]
    | true =>
      refine Or.inr (BitVec.eq_of_getLsbD_eq fun i inside => ?_)
      rw [sign i inside, negative, BitVec.getLsbD_allOnes]
      simp [inside]
  · rintro (rfl | rfl | rfl)
    · simp
    · simp
    · apply BitVec.eq_of_getLsbD_eq
      intro i inside
      rw [BitVec.getLsbD_sshiftRight, BitVec.getLsbD_allOnes, BitVec.getLsbD_allOnes,
        BitVec.msb_allOnes (by decide)]
      simp [inside]

theorem ShiftOperation.value_eq_self_iff (op : ShiftOperation) (operand : BitVec 64) (count : Nat) :
    op.value operand count = operand ↔ op.Fixes operand count := by
  cases op with
  | left => exact shiftLeft_eq_self_iff operand (count % 64)
  | right => exact sshiftRight_eq_self_iff operand (count % 64)

theorem shift_transforms (op : ShiftOperation) (dest : Register) :
    Transforms (instructions [op.use (intOfRegister dest)])
      (fun registers => Function.update registers dest
        (op.value (registers dest) (registers rcx).toNat)) := by
  have shifts (row : BitVec 32) (shift : Shift) (group : groupTwo (row.setWidth 3) = some shift) :
      (rowForm 0xD3 dest row []).instruction =
        some (.shift shift .qword (.register dest) .cl) := by
    change (groupTwo (row.setWidth 3)).map _ = _
    rw [group, Option.map_some, rowForm_rmOperand]
    rfl
  have executes (shift : Shift) (state : State) :
      ∃ after, (Instruction.shift shift .qword (.register dest) .cl).execute state = some after ∧
        after.registers = Function.update state.registers dest
          (shift.value (state.registers dest) ((state.registers rcx).toNat % 64)) ∧
        after.memory = state.memory ∧ after.rip = state.rip :=
    ⟨_, rfl, by simp [State.write, State.setRegister, State.read]⟩
  cases op with
  | left =>
    exact Transforms.single (direct_wellFormed 0xD3 _ false _ _ [] _ rfl rfl rfl)
      (shifts 0b100 .shl rfl) (executes .shl)
  | right =>
    exact Transforms.single (direct_wellFormed 0xD3 _ false _ _ [] _ rfl rfl rfl)
      (shifts 0b111 .sar rfl) (executes .sar)

theorem shift_uses (op : ShiftOperation) (d s t : Register) :
    (op.call (intOfRegister d) (intOfRegister s) (intOfRegister t)).uses =
      onlyIf (intOfRegister s ≠ intOfRegister d) (mov (intOfRegister d) (intOfRegister s)) ++
        ([push (intOfRegister rcx)] ++
          ([mov (intOfRegister rcx) (intOfRegister t), op.use (intOfRegister d)] ++
            [pop (intOfRegister rcx)])) := by
  cases op <;>
    simp [JitCall.uses, JitCall.actions, ShiftOperation.call, jitShiftl, jitShiftr, shiftLike,
      intOfRegister_ne_jitR0, ShiftOperation.use] <;> exact ⟨rfl, rfl, rfl⟩

-- What the row leaves in the destination: a saved destination gets its value behind the move back.
def ShiftOperation.emitted (d t : Register) (left right : BitVec 64) (op : ShiftOperation) :
    BitVec 64 :=
  if d = rcx then left else op.value left (if d = t then left else right).toNat

section Row

variable (op : ShiftOperation) (d s t : Register) (destinationReal : d ≠ rsp) (countReal : t ≠ rsp)

include destinationReal countReal

theorem shifted_registers (initial : Register → BitVec 64) :
    let moved := Function.update initial d (initial s)
    let lowered := Function.update moved rsp (moved rsp - 8)
    let counted := Function.update lowered rcx (lowered t)
    let shifted := Function.update counted d (op.value (counted d) (counted rcx).toNat)
    Function.update (Function.update shifted rsp (moved rsp)) rcx (moved rcx) =
      Function.update initial d (op.emitted d t (initial s) (initial t)) := by
  intro moved lowered counted shifted
  have count : counted rcx = if d = t then initial s else initial t := by
    simp [counted, lowered, moved, Function.update_apply, countReal, eq_comm]
  have source (direct : d ≠ rcx) : counted d = initial s := by
    simp [counted, lowered, moved, direct, destinationReal]
  funext other
  by_cases saved : other = rcx
  · rw [saved, Function.update_self]
    by_cases aliased : d = rcx
    · simp [moved, ShiftOperation.emitted, aliased]
    · simp [moved, Ne.symm aliased]
  · rw [Function.update_of_ne saved]
    by_cases onStack : other = rsp
    · simp [onStack, moved, destinationReal.symm]
    · rw [Function.update_of_ne onStack]
      by_cases written : other = d
      · have direct : d ≠ rcx := written ▸ saved
        simp only [written, shifted, Function.update_self, count, source direct,
          ShiftOperation.emitted, if_neg direct]
      · simp [shifted, counted, lowered, moved, saved, onStack, written]

theorem shift_straight (before : State) :
    ∃ after, Straight (instructions
        (op.call (intOfRegister d) (intOfRegister s) (intOfRegister t)).uses) before after ∧
      after.registers = Function.update before.registers d
        (op.emitted d t (before.registers s) (before.registers t)) := by
  obtain ⟨moved, moves, movedRegisters, -⟩ := (move_transforms d s).straight before
  have body := (mov_transforms rcx t).append (shift_transforms op d)
  rw [← instructions_append] at body
  obtain ⟨shifted, shifts, shiftedRegisters, memory⟩ := body.straight (pushed rcx moved)
  have stack : shifted.registers rsp = moved.registers rsp - 8 := by
    rw [shiftedRegisters, Function.update_of_ne destinationReal.symm,
      Function.update_of_ne (by decide)]
    rfl
  obtain ⟨after, saved, registers⟩ := saved_straight rcx shifts memory stack
  refine ⟨after, ?_, ?_⟩
  · rw [shift_uses, instructions_append, instructions_append, instructions_append]
    exact moves.append saved
  · have pushedRegisters : (pushed rcx moved).registers =
        Function.update moved.registers rsp (moved.registers rsp - 8) := rfl
    rw [registers, shiftedRegisters, pushedRegisters, movedRegisters]
    exact shifted_registers op d s t destinationReal countReal before.registers

end Row

theorem shift_wellFormed (op : ShiftOperation) (d s t : Register) :
    ∀ encoded ∈ instructions (op.call (intOfRegister d) (intOfRegister s) (intOfRegister t)).uses,
      encoded.WellFormed := by
  have body := (mov_transforms rcx t).append (shift_transforms op d)
  rw [← instructions_append] at body
  intro encoded member
  rw [shift_uses, instructions_append, instructions_append, instructions_append] at member
  rcases List.mem_append.mp member with moves | later
  · exact (move_transforms d s).wellFormed encoded moves
  rcases List.mem_append.mp later with saves | later
  · exact List.mem_singleton.mp saves ▸ push_wellFormed rcx
  rcases List.mem_append.mp later with shifts | restores
  · exact body.wellFormed encoded shifts
  · exact List.mem_singleton.mp restores ▸ pop_wellFormed rcx

/-- The emitted code runs to its end, shifts by the count modulo 64, and keeps every register but `d`,
the stack pointer with them. -/
def Shifts (abi : Abi) (op : ShiftOperation) (d s t : JitRegister) (before : State) : Prop :=
  let code := (op.call (d.int abi) (s.int abi) (t.int abi)).code
  ∃ after, run code before = some after ∧
    after.rip = before.rip + BitVec.ofNat 64 code.length ∧
    after.registers (d.number abi) =
      op.value (before.registers (s.number abi)) (before.registers (t.number abi)).toNat ∧
    ∀ other, other ≠ d.number abi → after.registers other = before.registers other

theorem shifts_iff_emitted (abi : Abi) (op : ShiftOperation) (d s t : JitRegister)
    (before : State) :
    Shifts abi op d s t before ↔
      op.emitted (d.number abi) (t.number abi) (before.registers (s.number abi))
          (before.registers (t.number abi)) =
        op.value (before.registers (s.number abi)) (before.registers (t.number abi)).toNat := by
  obtain ⟨after, straight, registers⟩ := shift_straight op (d.number abi) (s.number abi)
    (t.number abi) (d.number_ne_rsp abi) (t.number_ne_rsp abi) before
  obtain ⟨ran, rip⟩ := uses_run straight (shift_wellFormed op _ _ _)
  have destination : after.registers (d.number abi) = _ :=
    (congrFun registers _).trans (Function.update_self _ _ _)
  constructor
  · intro ⟨other, ran', _, value, _⟩
    obtain rfl : other = after := Option.some.inj (ran'.symm.trans ran)
    exact destination.symm.trans value
  · intro value
    refine ⟨after, ran, rip, destination.trans value, ?_⟩
    intro other notDestination
    rw [registers, Function.update_of_ne notDestination]

theorem shift_by_register_iff (abi : Abi) (op : ShiftOperation) (d s t : JitRegister)
    (before : State) :
    Shifts abi op d s t before ↔
      if d.number abi = rcx then
        op.Fixes (before.registers (s.number abi)) (before.registers (t.number abi)).toNat
      else
        d = t → op.value (before.registers (s.number abi)) (before.registers (s.number abi)).toNat =
          op.value (before.registers (s.number abi)) (before.registers (t.number abi)).toNat := by
  rw [shifts_iff_emitted, ShiftOperation.emitted]
  by_cases saved : d.number abi = rcx
  · rw [if_pos saved, if_pos saved, eq_comm, ShiftOperation.value_eq_self_iff]
  · rw [if_neg saved, if_neg saved]
    by_cases aliased : d = t
    · simp [aliased]
    · simp [aliased, JitRegister.number_inj]

-- The destination is `rcx`, which gets its unshifted value back.
theorem shift_into_rcx_is_lost :
    let before : State :=
      { registers := fun _ => 1, flags := Flags.undefined, memory := fun _ => 0, rip := 0 }
    ¬ Shifts .systemV .left .a4 .r1 .r2 before := by
  intro before
  rw [shifts_iff_emitted]
  decide

end Jit
