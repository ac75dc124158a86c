import Mips64Emulator.Jit.ThreeRegister

set_option autoImplicit false

namespace Jit

open X86 EncoderUse

inductive JitOperand where
  | zero
  | register (index : JitRegister)
  deriving DecidableEq, Repr

namespace JitOperand

def int (abi : Abi) : JitOperand → BitVec 32
  | zero => jitR0
  | register index => index.int abi

def value (abi : Abi) (registers : Register → BitVec 64) : JitOperand → BitVec 64
  | zero => 0
  | register index => registers (index.number abi)

@[simp] theorem int_zero (abi : Abi) : zero.int abi = jitR0 := rfl

@[simp] theorem int_register (abi : Abi) (index : JitRegister) :
    (register index).int abi = index.int abi := rfl

def Is (abi : Abi) (index : Register) : JitOperand → Prop
  | zero => False
  | register own => own.number abi = index

end JitOperand

inductive IntegerOperation where
  | register (op : Operation) (t : JitOperand)
  | shiftl (t : JitOperand)
  | shiftr (t : JitOperand)
  | addi (i : BitVec 32)
  | shiftli (i : BitVec 32)
  | shiftri (i : BitVec 32)
  deriving DecidableEq, Repr

namespace IntegerOperation

def second : IntegerOperation → Option JitOperand
  | register _ t | shiftl t | shiftr t => some t
  | addi _ | shiftli _ | shiftri _ => none

section Operands

variable (abi : Abi) (d s : JitOperand)

def call : IntegerOperation → JitCall
  | register op t => op.call (d.int abi) (s.int abi) (t.int abi)
  | shiftl t => .shiftl (d.int abi) (s.int abi) (t.int abi)
  | shiftr t => .shiftr (d.int abi) (s.int abi) (t.int abi)
  | addi i => .addi (d.int abi) (s.int abi) i
  | shiftli i => .shiftli (d.int abi) (s.int abi) i
  | shiftri i => .shiftri (d.int abi) (s.int abi) i

def value (registers : Register → BitVec 64) : IntegerOperation → BitVec 64
  | register op t => op.value (s.value abi registers) (t.value abi registers)
  | shiftl t => s.value abi registers <<< ((t.value abi registers).toNat % 64)
  | shiftr t => (s.value abi registers).sshiftRight ((t.value abi registers).toNat % 64)
  | addi i => s.value abi registers + i.signExtend 64
  | shiftli i => s.value abi registers <<< (i.toNat % 64)
  | shiftri i => (s.value abi registers).sshiftRight (i.toNat % 64)

/-- The emitted code computes the operation with `JIT_R0` read as 0, keeps every register but the
destination and `rax`, and is made without the number of `JIT_R0` for a register. -/
def ZeroBehaves (op : IntegerOperation) (before : State) : Prop :=
  let call := op.call abi d s
  (∃ after, run call.code before = some after ∧
    after.rip = before.rip + BitVec.ofNat 64 call.code.length ∧
    (∀ index, d.Is abi index → after.registers index = op.value abi s before.registers) ∧
    ∀ index, ¬ d.Is abi index → index ≠ rax → after.registers index = before.registers index) ∧
  ∀ use ∈ call.uses, jitR0 ∉ use.registers

def ZeroHandled (registers : Register → BitVec 64) : IntegerOperation → Prop
  | register .sub t =>
    d = .zero ∨ s ≠ .zero ∨ t.value abi registers + t.value abi registers = 0
  | register .and t =>
    d = .zero ∨ s.value abi registers = 0 ∧ t.value abi registers = 0
  | register .less t => d = .zero ∨ s ≠ .zero ∨ t.value abi registers = 0
  | register _ _ => True
  | shiftl _ | shiftr _ =>
    d = .zero ∨ s = .zero ∨ d = s ∨
      s.value abi registers = -1 ∧ d.value abi registers = s.value abi registers
  | addi i => d ≠ .zero ∨ s = .zero ∧ i = 0
  | shiftli _ | shiftri _ => True

end Operands

end IntegerOperation

def Zeroless (uses : List EncoderUse) : Prop := ∀ use ∈ uses, jitR0 ∉ use.registers

section Shortcuts

variable (abi : Abi) (d : Register)

theorem zero_writes : Writes [movi32 (intOfRegister d) 0] d (fun _ => 0) :=
  Writes.of_update (movi32_transforms d 0)

theorem zero_zeroless (im : BitVec 32) : Zeroless [movi32 (intOfRegister d) im] := by
  simp [Zeroless, movi32, registers, (intOfRegister_ne_jitR0 d).symm]

theorem move_writes (s : Register) :
    Writes (onlyIf (intOfRegister s ≠ intOfRegister d) (mov (intOfRegister d) (intOfRegister s))) d
      (fun registers => registers s) :=
  Writes.of_update (move_transforms d s)

theorem move_zeroless (s : Register) :
    Zeroless (onlyIf (intOfRegister s ≠ intOfRegister d)
      (mov (intOfRegister d) (intOfRegister s))) := by
  unfold onlyIf
  split <;>
    simp [Zeroless, mov, registers, (intOfRegister_ne_jitR0 d).symm,
      (intOfRegister_ne_jitR0 s).symm]

-- Both families of shortcuts copy the operand that is not zero.
def ZeroShortcut (uses : List EncoderUse) (s t : JitOperand) : Prop :=
  Writes uses d
      (fun registers => if s = .zero then t.value abi registers else s.value abi registers) ∧
    Zeroless uses

theorem shortcut_zero : ZeroShortcut abi d [movi32 (intOfRegister d) 0] .zero .zero :=
  ⟨by simpa [JitOperand.value] using zero_writes d, zero_zeroless d 0⟩

theorem shortcut_second (t : JitRegister) :
    ZeroShortcut abi d (onlyIf (t.int abi ≠ intOfRegister d) (mov (intOfRegister d) (t.int abi)))
      .zero (.register t) :=
  ⟨move_writes d (t.number abi), move_zeroless d (t.number abi)⟩

theorem shortcut_first (s : JitRegister) :
    ZeroShortcut abi d (onlyIf (s.int abi ≠ intOfRegister d) (mov (intOfRegister d) (s.int abi)))
      (.register s) .zero :=
  ⟨move_writes d (s.number abi), move_zeroless d (s.number abi)⟩

theorem int_ne_jitR0 (index : JitRegister) : index.int abi ≠ jitR0 :=
  intOfRegister_ne_jitR0 (index.number abi)

theorem addLike_shortcut (use : BitVec 32 → BitVec 32 → EncoderUse) (s t : JitOperand)
    (zero : s = .zero ∨ t = .zero) :
    ZeroShortcut abi d (addLike use (intOfRegister d) (s.int abi) (t.int abi)) s t := by
  have real := intOfRegister_ne_jitR0 d
  rw [addLike, if_pos real]
  cases s with
  | zero =>
    cases t with
    | zero => exact shortcut_zero abi d
    | register t =>
      have realSecond := int_ne_jitR0 abi t
      rw [JitOperand.int, JitOperand.int, if_neg (by simp [realSecond]), if_pos rfl]
      exact shortcut_second abi d t
  | register s =>
    obtain rfl : t = .zero := by simpa using zero
    have realFirst := int_ne_jitR0 abi s
    rw [JitOperand.int, JitOperand.int, if_neg (by simp [realFirst]), if_neg realFirst, if_pos rfl]
    exact shortcut_first abi d s

theorem logicalLike_shortcut (use : BitVec 32 → BitVec 32 → EncoderUse) (s t : JitOperand)
    (zero : s = .zero ∨ t = .zero) :
    ZeroShortcut abi d (logicalLike use (intOfRegister d) (s.int abi) (t.int abi)) s t := by
  have real := intOfRegister_ne_jitR0 d
  rw [logicalLike, if_pos real]
  cases s with
  | zero =>
    cases t with
    | zero => exact shortcut_zero abi d
    | register t =>
      have realSecond := int_ne_jitR0 abi t
      rw [JitOperand.int, JitOperand.int, if_neg realSecond.symm, if_pos rfl]
      exact shortcut_second abi d t
  | register s =>
    obtain rfl : t = .zero := by simpa using zero
    have realFirst := int_ne_jitR0 abi s
    rw [JitOperand.int, JitOperand.int, if_neg realFirst, if_neg realFirst, if_pos rfl]
    exact shortcut_first abi d s

theorem lessThanZero_writes (x : Register) :
    Writes [cmpi8 (intOfRegister x) 0, setl al, movzx raxInt al, mov (intOfRegister d) raxInt] d
      (fun registers => if (registers x).slt 0 then 1 else 0) := by
  have row := (cmpi8_transforms 0x9C x rfl rfl Alu.cmp_less).append (mov_transforms d rax)
  rw [← instructions_append] at row
  simp only [Function.update_self] at row
  exact Writes.of_updates row

theorem lessThanZero_zeroless (x : Register) :
    Zeroless [cmpi8 (intOfRegister x) 0, setl al, movzx raxInt al, mov (intOfRegister d) raxInt] := by
  have row : jitR0 ≠ 7#32 := by decide
  simp [Zeroless, cmpi8, setl, movzx, mov, registers, row, (intOfRegister_ne_jitR0 d).symm,
    (intOfRegister_ne_jitR0 x).symm]

end Shortcuts

def Operation.shortcut (abi : Abi) (s t : JitOperand) (registers : Register → BitVec 64)
    (op : Operation) : BitVec 64 :=
  let carried := if s = .zero then t.value abi registers else s.value abi registers
  match op with
  | mul => 0
  | less => if carried.slt 0 then 1 else 0
  | add | sub | and | or | xor => carried

theorem less_uses (d s t : BitVec 32) :
    (JitCall.less d s t).uses =
      if d ≠ jitR0 then
        if s = t then [movi32 d 0]
        else [comparison s t, setl al, movzx raxInt al, mov d raxInt]
      else [] :=
  recorded_uses _

theorem less_shortcut (abi : Abi) (d : Register) (s t : JitOperand)
    (zero : s = .zero ∨ t = .zero) :
    Writes (JitCall.less (intOfRegister d) (s.int abi) (t.int abi)).uses d
        (fun registers => Operation.less.shortcut abi s t registers) ∧
      Zeroless (JitCall.less (intOfRegister d) (s.int abi) (t.int abi)).uses := by
  have real := intOfRegister_ne_jitR0 d
  rw [less_uses, if_pos real]
  cases s with
  | zero =>
    cases t with
    | zero => exact ⟨zero_writes d, zero_zeroless d 0⟩
    | register t =>
      have realSecond := int_ne_jitR0 abi t
      rw [JitOperand.int, JitOperand.int, if_neg realSecond.symm, comparison, if_pos rfl]
      exact ⟨lessThanZero_writes d _, lessThanZero_zeroless d _⟩
  | register s =>
    obtain rfl : t = .zero := by simpa using zero
    have realFirst := int_ne_jitR0 abi s
    rw [JitOperand.int, JitOperand.int, if_neg realFirst, comparison, if_neg realFirst, if_pos rfl]
    exact ⟨lessThanZero_writes d _, lessThanZero_zeroless d _⟩

theorem mul_shortcut (abi : Abi) (d : Register) (s t : JitOperand)
    (zero : s = .zero ∨ t = .zero) :
    (JitCall.mul (intOfRegister d) (s.int abi) (t.int abi)).uses = [movi32 (intOfRegister d) 0] := by
  have some : s.int abi = jitR0 ∨ t.int abi = jitR0 := by
    cases zero with
    | inl first => exact Or.inl (first ▸ rfl)
    | inr second => exact Or.inr (second ▸ rfl)
  have real := intOfRegister_ne_jitR0 d
  simp [JitCall.uses, JitCall.actions, jitMul, real, some]

theorem operation_shortcut (abi : Abi) (op : Operation) (d : Register) (s t : JitOperand)
    (zero : s = .zero ∨ t = .zero) :
    Writes (op.call (intOfRegister d) (s.int abi) (t.int abi)).uses d
        (fun registers => op.shortcut abi s t registers) ∧
      Zeroless (op.call (intOfRegister d) (s.int abi) (t.int abi)).uses := by
  have recordedAs {uses : List EncoderUse} {call : JitCall} (actions : call.actions = recorded uses)
      (shortcut : ZeroShortcut abi d uses s t) : ZeroShortcut abi d call.uses s t := by
    rw [JitCall.uses, actions, recorded_uses]
    exact shortcut
  cases op with
  | add => exact recordedAs rfl (addLike_shortcut abi d EncoderUse.add s t zero)
  | sub => exact recordedAs rfl (addLike_shortcut abi d EncoderUse.sub s t zero)
  | mul =>
    rw [Operation.call, mul_shortcut abi d s t zero]
    exact ⟨zero_writes d, zero_zeroless d 0⟩
  | and => exact recordedAs rfl (logicalLike_shortcut abi d EncoderUse.and s t zero)
  | or => exact recordedAs rfl (logicalLike_shortcut abi d EncoderUse.or s t zero)
  | xor => exact recordedAs rfl (logicalLike_shortcut abi d EncoderUse.xor s t zero)
  | less => exact less_shortcut abi d s t zero

theorem less_zero_iff (x : BitVec 64) :
    ((if x.slt 0 then 1 else 0 : BitVec 64) = if BitVec.slt 0 x then 1 else 0) ↔ x = 0 := by
  have below : x.slt 0 = decide (x.toInt < 0) := rfl
  have above : BitVec.slt 0 x = decide (0 < x.toInt) := rfl
  have zero : x = 0 ↔ x.toInt = 0 := BitVec.toInt_inj.symm
  rw [below, above, zero]
  by_cases negative : x.toInt < 0 <;> by_cases positive : 0 < x.toInt <;>
    simp [negative, positive] <;> omega

theorem shortcut_eq_value_iff (abi : Abi) (op : Operation) (d : JitRegister) (s t : JitOperand)
    (registers : Register → BitVec 64) (zero : s = .zero ∨ t = .zero) :
    op.shortcut abi s t registers = op.value (s.value abi registers) (t.value abi registers) ↔
      (IntegerOperation.register op t).ZeroHandled abi (.register d) s registers := by
  cases s with
  | zero =>
    have negation (x : BitVec 64) : x = 0 - x ↔ x + x = 0 := by
      rw [eq_comm, BitVec.sub_eq_iff_eq_add, eq_comm]
    cases op with
    | sub =>
      refine (negation (t.value abi registers)).trans ?_
      simp [IntegerOperation.ZeroHandled]
    | less =>
      refine (less_zero_iff (t.value abi registers)).trans ?_
      simp [IntegerOperation.ZeroHandled]
    | _ =>
      simp [Operation.shortcut, Operation.value, JitOperand.value, IntegerOperation.ZeroHandled]
  | register s =>
    obtain rfl : t = .zero := by simpa using zero
    cases op with
    | less => exact iff_of_true rfl (Or.inr (Or.inl (by simp)))
    | _ =>
      simp [Operation.shortcut, Operation.value, JitOperand.value, IntegerOperation.ZeroHandled]

section Behaviour

variable (abi : Abi) (op : IntegerOperation) (s : JitOperand) (before : State)

theorem behaves_iff_of_writes (d : JitRegister)
    {value : (Register → BitVec 64) → BitVec 64}
    (writes : Writes (op.call abi (.register d) s).uses (d.number abi) value)
    (zeroless : Zeroless (op.call abi (.register d) s).uses) :
    op.ZeroBehaves abi (.register d) s before ↔
      value before.registers = op.value abi s before.registers := by
  obtain ⟨after, ran, rip, destination, others⟩ := writes.run_correct before
  rw [← destination]
  constructor
  · rintro ⟨⟨other, ran', -, computed, -⟩, -⟩
    obtain rfl : other = after := Option.some.inj (ran'.symm.trans ran)
    exact computed _ rfl
  · intro computed
    refine ⟨⟨after, ran, rip, ?_, ?_⟩, zeroless⟩
    · rintro index rfl
      exact computed
    · intro index notDestination notRax
      exact others index (fun same => notDestination same.symm) notRax

theorem behaves_of_nothing (d : JitOperand) (nothing : (op.call abi d s).uses = []) :
    op.ZeroBehaves abi d s before ↔
      ∀ index, d.Is abi index → before.registers index = op.value abi s before.registers := by
  have code : (op.call abi d s).code = [] := by rw [JitCall.code, nothing]; rfl
  have ran : run (op.call abi d s).code before = some before := by rw [code]; rfl
  constructor
  · rintro ⟨⟨other, ran', -, computed, -⟩, -⟩
    obtain rfl : other = before := Option.some.inj (ran'.symm.trans ran)
    exact computed
  · intro computed
    refine ⟨⟨before, ran, by simp [code], computed, fun _ _ _ => rfl⟩, ?_⟩
    simp [nothing]

-- Code that loads the number of `JIT_R0` into the source and leaves the destination alone.
theorem behaves_of_loaded_source (d s : JitRegister) (distinct : d ≠ s)
    (loads : (op.call abi (.register d) (.register s)).uses = [movi32 (s.int abi) jitR0])
    (value : op.value abi (.register s) before.registers = before.registers (s.number abi)) :
    op.ZeroBehaves abi (.register d) (.register s) before ↔
      before.registers (s.number abi) = -1 ∧
        before.registers (d.number abi) = before.registers (s.number abi) := by
  have apart : d.number abi ≠ s.number abi := mt (JitRegister.number_inj abi d s).mp distinct
  have writes : Writes [movi32 (s.int abi) jitR0] (s.number abi) (fun _ => -1) :=
    Writes.of_update (movi32_transforms (s.number abi) jitR0)
  rw [← loads] at writes
  obtain ⟨after, ran, rip, source, others⟩ := writes.run_correct before
  have destination := others (d.number abi) apart (JitRegister.number_ne_rax abi d)
  constructor
  · intro ⟨⟨after', ran', _, computed, kept⟩, _⟩
    have same : after' = after := Option.some.inj (ran'.symm.trans ran)
    subst same
    have computedSource := (computed (d.number abi) rfl).trans value
    have unchanged := kept (s.number abi) apart (JitRegister.number_ne_rax abi s)
    exact ⟨unchanged.symm.trans source, destination.symm.trans computedSource⟩
  · intro ⟨ones, equal⟩
    refine ⟨⟨after, ran, rip, ?_, ?_⟩, ?_⟩
    · intro index isDestination
      exact isDestination ▸ (destination.trans equal).trans value.symm
    · intro index notDestination notRax
      by_cases isSource : index = s.number abi
      · rw [isSource, source, ones]
      · exact others index isSource notRax
    · exact loads ▸ zero_zeroless (s.number abi) jitR0

-- A shift by zero takes that path unless its source is the destination.
theorem shift_behaves (d : JitRegister) (t : JitOperand) (shift : BitVec 32 → EncoderUse)
    (uses : (op.call abi (.register d) s).uses = shiftLike shift (d.int abi) (s.int abi) (t.int abi))
    (shifted : s = .zero → op.value abi s before.registers = 0)
    (unshifted : t = .zero → op.value abi s before.registers = s.value abi before.registers)
    (zero : s = .zero ∨ t = .zero) :
    op.ZeroBehaves abi (.register d) s before ↔
      s = .zero ∨ .register d = s ∨ s.value abi before.registers = -1 ∧
        before.registers (d.number abi) = s.value abi before.registers := by
  have real := int_ne_jitR0 abi d
  rw [shiftLike, if_pos real] at uses
  cases s with
  | zero =>
    rw [JitOperand.int_zero, if_pos rfl] at uses
    have writes := zero_writes (d.number abi)
    have zeroless := zero_zeroless (d.number abi) 0
    simp [behaves_iff_of_writes abi op .zero before d (uses ▸ writes) (uses ▸ zeroless), shifted]
  | register s =>
    obtain rfl : t = .zero := by simpa using zero
    have realSource := int_ne_jitR0 abi s
    rw [JitOperand.int_register, JitOperand.int_zero, if_neg realSource, if_pos rfl] at uses
    by_cases same : d = s
    · subst same
      have nothing : (op.call abi (.register d) (.register d)).uses = [] :=
        uses.trans (if_neg (not_not.mpr rfl))
      rw [behaves_of_nothing abi op _ before _ nothing, unshifted rfl]
      simp [JitOperand.Is, JitOperand.value]
    · have distinct : s.int abi ≠ d.int abi := fun equal =>
        same ((JitRegister.number_inj abi s d).mp ((intOfRegister_inj _ _).mp equal)).symm
      have loads := uses.trans (if_pos distinct)
      rw [behaves_of_loaded_source abi op before d s same loads (unshifted rfl)]
      simp [JitOperand.value, same]

end Behaviour

-- `JIT_ADDI` takes its other branch then, which moves into the destination it does not have.
theorem addi_uses (d s i : BitVec 32) :
    (JitCall.addi d s i).uses =
      if d ≠ jitR0 then if s = jitR0 then [movi32 d i] else []
      else onlyIf (s ≠ d) (mov d s) ++ onlyIf (i ≠ 0) (mov d i) :=
  recorded_uses _

theorem addi_zeroless_iff (abi : Abi) (s : JitOperand) (i : BitVec 32) :
    Zeroless (JitCall.addi jitR0 (s.int abi) i).uses ↔ s = .zero ∧ i = 0 := by
  rw [addi_uses, if_neg (not_not.mpr rfl)]
  have moved (src : BitVec 32) : jitR0 ∈ (mov jitR0 src).registers := by simp [mov, registers]
  cases s with
  | zero => by_cases none : i = 0#32 <;> simp [onlyIf, none, Zeroless, moved]
  | register s => simp [onlyIf, int_ne_jitR0 abi s, Zeroless, moved]

theorem zero_destination (abi : Abi) (op : IntegerOperation) (s : JitOperand) (before : State) :
    op.ZeroBehaves abi .zero s before ↔ op.ZeroHandled abi .zero s before.registers := by
  have quiet (nothing : (op.call abi .zero s).uses = []) : op.ZeroBehaves abi .zero s before := by
    apply (behaves_of_nothing abi op s before .zero nothing).mpr
    intro index impossible
    exact impossible.elim
  cases op with
  | register op t =>
    refine iff_of_true (quiet ?_) ?_
    · cases op <;> rfl
    · cases op <;> simp [IntegerOperation.ZeroHandled]
  | addi i =>
    constructor
    · intro ⟨_, zeroless⟩
      exact Or.inr ((addi_zeroless_iff abi s i).mp zeroless)
    · intro handled
      obtain ⟨rfl, rfl⟩ : s = .zero ∧ i = 0 := by
        simpa [IntegerOperation.ZeroHandled] using handled
      exact quiet rfl
  | _ => exact iff_of_true (quiet rfl) (by simp [IntegerOperation.ZeroHandled])

theorem constant_behaves (abi : Abi) (op : IntegerOperation) (d : JitRegister) (im : BitVec 32)
    (before : State) (uses : (op.call abi (.register d) .zero).uses = [movi32 (d.int abi) im])
    (value : op.value abi .zero before.registers = im.signExtend 64) :
    op.ZeroBehaves abi (.register d) .zero before := by
  have writes := Writes.of_update (movi32_transforms (d.number abi) im)
  have zeroless := zero_zeroless (d.number abi) im
  exact (behaves_iff_of_writes abi op .zero before d (uses ▸ writes) (uses ▸ zeroless)).mpr value.symm

theorem shiftImmediateLike_zero (abi : Abi) (shift : BitVec 32 → BitVec 32 → EncoderUse)
    (d : JitRegister) (i : BitVec 32) :
    shiftImmediateLike shift (d.int abi) jitR0 i = [movi32 (d.int abi) 0] := by
  simp [shiftImmediateLike, int_ne_jitR0 abi d]

/-- Every integer operation with `JIT_R0` among its operands treats it as zero, but where the
condition on its shortcut fails. -/
theorem zeroRegister_behaves_iff (abi : Abi) (op : IntegerOperation) (d s : JitOperand)
    (before : State) (zero : d = .zero ∨ s = .zero ∨ op.second = some .zero) :
    op.ZeroBehaves abi d s before ↔ op.ZeroHandled abi d s before.registers := by
  cases d with
  | zero => exact zero_destination abi op s before
  | register d =>
    have sources : s = .zero ∨ op.second = some .zero := by simpa using zero
    have real := int_ne_jitR0 abi d
    cases op with
    | register op t =>
      have zeroSource : s = .zero ∨ t = .zero := by simpa [IntegerOperation.second] using sources
      obtain ⟨writes, zeroless⟩ := operation_shortcut abi op (d.number abi) s t zeroSource
      rw [behaves_iff_of_writes abi (.register op t) s before d writes zeroless]
      exact shortcut_eq_value_iff abi op d s t before.registers zeroSource
    | shiftl t =>
      have zeroSource : s = .zero ∨ t = .zero := by simpa [IntegerOperation.second] using sources
      have behaves := shift_behaves abi (.shiftl t) s before d t sal (recorded_uses _)
        (by rintro rfl; simp [IntegerOperation.value, JitOperand.value])
        (by rintro rfl; simp [IntegerOperation.value, JitOperand.value]) zeroSource
      rw [behaves]
      simp [IntegerOperation.ZeroHandled, JitOperand.value]
    | shiftr t =>
      have zeroSource : s = .zero ∨ t = .zero := by simpa [IntegerOperation.second] using sources
      have behaves := shift_behaves abi (.shiftr t) s before d t sar (recorded_uses _)
        (by rintro rfl; simp [IntegerOperation.value, JitOperand.value])
        (by rintro rfl; simp [IntegerOperation.value, JitOperand.value]) zeroSource
      rw [behaves]
      simp [IntegerOperation.ZeroHandled, JitOperand.value]
    | addi i =>
      obtain rfl : s = .zero := by simpa [IntegerOperation.second] using sources
      have uses := (addi_uses (d.int abi) jitR0 i).trans (if_pos real)
      have behaves := constant_behaves abi (.addi i) d i before uses (BitVec.zero_add _)
      exact iff_of_true behaves (Or.inl (by simp))
    | shiftli i =>
      obtain rfl : s = .zero := by simpa [IntegerOperation.second] using sources
      have uses := (recorded_uses _).trans (shiftImmediateLike_zero abi sali d i)
      have value : (IntegerOperation.shiftli i).value abi .zero before.registers = 0 := by
        simp [IntegerOperation.value, JitOperand.value]
      exact iff_of_true (constant_behaves abi (.shiftli i) d 0 before uses value) trivial
    | shiftri i =>
      obtain rfl : s = .zero := by simpa [IntegerOperation.second] using sources
      have uses := (recorded_uses _).trans (shiftImmediateLike_zero abi sari d i)
      have value : (IntegerOperation.shiftri i).value abi .zero before.registers = 0 := by
        simp [IntegerOperation.value, JitOperand.value]
      exact iff_of_true (constant_behaves abi (.shiftri i) d 0 before uses value) trivial

theorem zeroRegister_behaves_or :
    (IntegerOperation.register .or (.register .r2)).ZeroBehaves .systemV (.register .r1) .zero
      { registers := fun index => BitVec.ofNat 64 index.val, flags := Flags.undefined
        memory := fun _ => 0, rip := 0 } :=
  (zeroRegister_behaves_iff .systemV _ (.register .r1) .zero _ (by decide)).mpr trivial

-- `0 - t` comes out as `t`.
theorem zeroRegister_negation_lost :
    ¬ (IntegerOperation.register .sub (.register .r2)).ZeroBehaves .systemV (.register .r1) .zero
      { registers := fun index => BitVec.ofNat 64 index.val, flags := Flags.undefined
        memory := fun _ => 0, rip := 0 } := by
  intro behaves
  obtain ⟨writes, zeroless⟩ :=
    operation_shortcut .systemV .sub 8 .zero (.register .r2) (Or.inl rfl)
  have difference := (behaves_iff_of_writes .systemV (.register .sub (.register .r2)) .zero _ .r1
    writes zeroless).mp behaves
  revert difference
  decide

end Jit
