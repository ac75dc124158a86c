import Mips64Emulator.Jit.ShiftByRegister
import Mips64Emulator.Jit.ZeroRegister

set_option autoImplicit false

namespace Jit

open X86 EncoderUse

inductive ImmediateOperation where
  | add
  | shiftLeft
  | shiftRight
  deriving DecidableEq, Repr

namespace ImmediateOperation

def call (d s i : BitVec 32) : ImmediateOperation → JitCall
  | add => .addi d s i
  | shiftLeft => .shiftli d s i
  | shiftRight => .shiftri d s i

def registerCall (d s t : BitVec 32) : ImmediateOperation → JitCall
  | add => .add d s t
  | shiftLeft => .shiftl d s t
  | shiftRight => .shiftr d s t

-- The immediates of an operation: a shift goes by 0 to 63.
def Admits (i : BitVec 32) : ImmediateOperation → Prop
  | add => True
  | shiftLeft | shiftRight => i.toNat < 64

def value (operand : BitVec 64) (i : BitVec 32) : ImmediateOperation → BitVec 64
  | add => operand + i.signExtend 64
  | shiftLeft => operand <<< i.toNat
  | shiftRight => operand.sshiftRight i.toNat

end ImmediateOperation

def ComputesImmediate (abi : Abi) (op : ImmediateOperation) (d s : JitRegister) (i : BitVec 32)
    (before : State) : Prop :=
  let code := (op.call (d.int abi) (s.int abi) i).code
  ∃ after, run code before = some after ∧
    after.rip = before.rip + BitVec.ofNat 64 code.length ∧
    after.registers (d.number abi) = op.value (before.registers (s.number abi)) i ∧
    ∀ other, other ≠ d.number abi → after.registers other = before.registers other

def materialised (abi : Abi) (op : ImmediateOperation) (d s k : JitRegister) (i : BitVec 32) :
    List EncoderUse :=
  [movi32 (k.int abi) i] ++ (op.registerCall (d.int abi) (s.int abi) (k.int abi)).uses

theorem shiftImmediateLike_nothing (shift : BitVec 32 → BitVec 32 → EncoderUse)
    (d s : Register) (i : BitVec 32) (small : i.toNat < 64) :
    shiftImmediateLike shift (intOfRegister d) (intOfRegister s) i = [] := by
  have notZero : i ≠ jitR0 := by
    intro equal
    rw [equal] at small
    revert small
    decide
  rw [shiftImmediateLike, if_pos (intOfRegister_ne_jitR0 d), if_neg (intOfRegister_ne_jitR0 s),
    if_neg notZero]

theorem immediate_emits_nothing (op : ImmediateOperation) (d s : Register) (i : BitVec 32)
    (admitted : op.Admits i) : (op.call (intOfRegister d) (intOfRegister s) i).uses = [] := by
  cases op with
  | add =>
    rw [ImmediateOperation.call, addi_uses, if_pos (intOfRegister_ne_jitR0 d),
      if_neg (intOfRegister_ne_jitR0 s)]
  | shiftLeft =>
    exact (recorded_uses _).trans (shiftImmediateLike_nothing sali d s i admitted)
  | shiftRight =>
    exact (recorded_uses _).trans (shiftImmediateLike_nothing sari d s i admitted)

theorem computesImmediate_iff (abi : Abi) (op : ImmediateOperation) (d s : JitRegister)
    (i : BitVec 32) (admitted : op.Admits i) (before : State) :
    ComputesImmediate abi op d s i before ↔
      before.registers (d.number abi) = op.value (before.registers (s.number abi)) i := by
  have code : (op.call (d.int abi) (s.int abi) i).code = [] := by
    rw [JitCall.code, JitRegister.int, JitRegister.int, immediate_emits_nothing op _ _ i admitted]
    rfl
  have ran : run (op.call (d.int abi) (s.int abi) i).code before = some before := by
    rw [code]
    rfl
  constructor
  · rintro ⟨after, ran', -, value, -⟩
    obtain rfl : after = before := Option.some.inj (ran'.symm.trans ran)
    exact value
  · intro value
    exact ⟨before, ran, by simp [code], value, fun _ _ => rfl⟩

theorem small_toNat (i : BitVec 32) (small : i.toNat < 64) :
    (i.signExtend 64).toNat % 64 = i.toNat := by
  have positive : i.msb = false := by
    rw [BitVec.msb_eq_decide, decide_eq_false_iff_not]
    omega
  rw [BitVec.signExtend_eq_setWidth_of_msb_false positive, BitVec.toNat_setWidth]
  omega

section Materialised

variable (d s k : Register) (i : BitVec 32)

theorem materialised_shift (op : ShiftOperation) (before : State) (small : i.toNat < 64)
    (free : k ≠ s) (direct : d ≠ rcx) (apart : k ≠ d) (destinationReal : d ≠ rsp)
    (countReal : k ≠ rsp) :
    ∃ after, run (usesBytes ([movi32 (intOfRegister k) i] ++
        (op.call (intOfRegister d) (intOfRegister s) (intOfRegister k)).uses)) before = some after ∧
      after.registers d = op.shift.value (before.registers s) i.toNat := by
  have loads := movi32_transforms k i
  obtain ⟨middle, loaded, middleRegisters, -⟩ := loads.straight before
  obtain ⟨after, shifted, registers⟩ :=
    shift_straight op d s k destinationReal countReal middle
  have wellFormed : ∀ encoded ∈ instructions ([movi32 (intOfRegister k) i] ++
      (op.call (intOfRegister d) (intOfRegister s) (intOfRegister k)).uses),
      encoded.WellFormed := by
    intro encoded member
    rw [instructions_append] at member
    cases List.mem_append.mp member with
    | inl first => exact loads.wellFormed encoded first
    | inr second => exact shift_wellFormed op d s k encoded second
  have whole := loaded.append shifted
  rw [← instructions_append] at whole
  refine ⟨after, (uses_run whole wellFormed).1, ?_⟩
  have source : middle.registers s = before.registers s := by
    rw [middleRegisters, Function.update_of_ne free.symm]
  have count : (middle.registers k).toNat % 64 = i.toNat := by
    rw [middleRegisters, Function.update_self, small_toNat i small]
  rw [registers, Function.update_self, ShiftOperation.emitted, if_neg direct, if_neg apart.symm,
    ShiftOperation.value, source, count]

theorem materialised_add (before : State) (free : k ≠ s) (apart : k ≠ d) :
    ∃ after, run (usesBytes ([movi32 (intOfRegister k) i] ++
        (JitCall.add (intOfRegister d) (intOfRegister s) (intOfRegister k)).uses)) before =
          some after ∧
      after.registers d = before.registers s + i.signExtend 64 := by
  obtain ⟨transformed, transforms, destination, -⟩ := call_writes .add d s k
  have whole := (movi32_transforms k i).append transforms
  rw [← instructions_append] at whole
  obtain ⟨after, ran, registers, -⟩ := whole.run_correct before
  rw [← usesBytes_correct] at ran
  refine ⟨after, ran, ?_⟩
  rw [registers, destination]
  simp [Operation.emitted, Operation.value, apart.symm, free.symm]

end Materialised

theorem immediate_forms_iff (abi : Abi) (op : ImmediateOperation) (d s : JitRegister)
    (i : BitVec 32) (admitted : op.Admits i) (before : State) :
    (ComputesImmediate abi op d s i before ↔
      before.registers (d.number abi) = op.value (before.registers (s.number abi)) i) ∧
    ∀ k : JitRegister, k ≠ d → k ≠ s → op = .add ∨ d.number abi ≠ rcx →
      ∃ after, run (usesBytes (materialised abi op d s k i)) before = some after ∧
        after.registers (d.number abi) = op.value (before.registers (s.number abi)) i := by
  refine ⟨computesImmediate_iff abi op d s i admitted before, ?_⟩
  intro k apart free saved
  have apartNumber := mt (JitRegister.number_inj abi k d).mp apart
  have freeNumber := mt (JitRegister.number_inj abi k s).mp free
  have shifts (shift : ShiftOperation) (small : i.toNat < 64) (direct : d.number abi ≠ rcx) :=
    materialised_shift (d.number abi) (s.number abi) (k.number abi) i shift before small freeNumber
      direct apartNumber (d.number_ne_rsp abi) (k.number_ne_rsp abi)
  cases op with
  | add => exact materialised_add _ _ _ i before freeNumber apartNumber
  | shiftLeft => exact shifts .left admitted (by simpa using saved)
  | shiftRight => exact shifts .right admitted (by simpa using saved)

-- Adding zero in place is the exception that works.
theorem immediate_forms_zero :
    let before : State :=
      { registers := fun _ => 5, flags := Flags.undefined, memory := fun _ => 0, rip := 0 }
    ComputesImmediate .systemV .add .r1 .r1 0 before ∧
      ∃ after, run (usesBytes (materialised .systemV .add .r1 .r1 .r2 0)) before = some after ∧
        after.registers (JitRegister.r1.number .systemV) = 5 := by
  intro before
  obtain ⟨computes, register⟩ := immediate_forms_iff .systemV .add .r1 .r1 0 trivial before
  exact ⟨computes.mpr (by decide), register .r2 (by decide) (by decide) (Or.inl rfl)⟩

theorem immediate_addition_is_lost :
    let before : State :=
      { registers := fun _ => 5, flags := Flags.undefined, memory := fun _ => 0, rip := 0 }
    ¬ ComputesImmediate .systemV .add .r1 .r2 1 before := by
  intro before
  rw [computesImmediate_iff .systemV .add .r1 .r2 1 trivial]
  decide

end Jit
