import Mips64Emulator.Jit.Branches
import Mips64Emulator.Jit.ZeroRegister

set_option autoImplicit false

namespace Jit

open X86 EncoderUse

def Operation.Faithful (d : Register) (s t : Option Register) : Operation → Prop
  | add | mul | or => t = some d → s = t ∨ s = none
  | sub => (s = none → t = none) ∧ (t = some d → s = t)
  | and => (s = none ↔ t = none) ∧ (t = some d → s = t)
  | xor => (s = t → s = none) ∧ (t = some d → s = none)
  | less => s = none → t = none

instance (op : Operation) (d : Register) (s t : Option Register) : Decidable (op.Faithful d s t) :=
  match op with
  | .add | .mul | .or => inferInstanceAs (Decidable (t = some d → s = t ∨ s = none))
  | .sub => inferInstanceAs (Decidable ((s = none → t = none) ∧ (t = some d → s = t)))
  | .and => inferInstanceAs (Decidable ((s = none ↔ t = none) ∧ (t = some d → s = t)))
  | .xor => inferInstanceAs (Decidable ((s = t → s = none) ∧ (t = some d → s = none)))
  | .less => inferInstanceAs (Decidable (s = none → t = none))

@[simp] theorem operandInt_none : operandInt none = jitR0 := rfl

@[simp] theorem operandInt_some (index : Register) : operandInt (some index) = intOfRegister index :=
  rfl

section Shortcuts

variable (d : Register) (s t : Option Register)

-- Both families of shortcuts copy the operand that is a register.
def Copies (uses : List EncoderUse) : Prop :=
  Writes uses d
    (fun registers => if s = none then operandValue registers t else operandValue registers s)

theorem addLike_copies (use : BitVec 32 → BitVec 32 → EncoderUse) (zero : s = none ∨ t = none) :
    Copies d s t (addLike use (intOfRegister d) (operandInt s) (operandInt t)) := by
  have real := intOfRegister_ne_jitR0
  rw [addLike, if_pos (real d)]
  cases s with
  | none =>
    cases t with
    | none => exact zero_writes d
    | some t =>
      have registerSecond : ¬ (jitR0 = jitR0 ∧ intOfRegister t = jitR0) := fun both => real t both.2
      rw [operandInt_none, operandInt_some, if_neg registerSecond, if_pos rfl]
      exact move_writes d t
  | some s =>
    obtain rfl : t = none := by simpa using zero
    have registerFirst : ¬ (intOfRegister s = jitR0 ∧ jitR0 = jitR0) := fun both => real s both.1
    rw [operandInt_none, operandInt_some, if_neg registerFirst, if_neg (real s), if_pos rfl]
    exact move_writes d s

theorem logicalLike_copies (use : BitVec 32 → BitVec 32 → EncoderUse)
    (zero : s = none ∨ t = none) :
    Copies d s t (logicalLike use (intOfRegister d) (operandInt s) (operandInt t)) := by
  have real := intOfRegister_ne_jitR0
  rw [logicalLike, if_pos (real d)]
  cases s with
  | none =>
    cases t with
    | none => exact zero_writes d
    | some t =>
      rw [operandInt_none, operandInt_some, if_neg (real t).symm, if_pos rfl]
      exact move_writes d t
  | some s =>
    obtain rfl : t = none := by simpa using zero
    rw [operandInt_none, operandInt_some, if_neg (real s), if_neg (real s), if_pos rfl]
    exact move_writes d s

theorem mul_zero_writes (zero : s = none ∨ t = none) :
    Writes (JitCall.mul (intOfRegister d) (operandInt s) (operandInt t)).uses d (fun _ => 0) := by
  have none : operandInt s = jitR0 ∨ operandInt t = jitR0 := by
    rcases zero with rfl | rfl <;> simp [operandInt]
  simpa [JitCall.uses, JitCall.actions, jitMul, intOfRegister_ne_jitR0, none] using zero_writes d

theorem less_zero_writes :
    Writes (JitCall.less (intOfRegister d) (operandInt s) (operandInt none)).uses d
      (fun registers => Operation.less.value (operandValue registers s) 0) := by
  have real := intOfRegister_ne_jitR0 d
  cases s with
  | none =>
    have uses : (JitCall.less (intOfRegister d) (operandInt none) (operandInt none)).uses =
        [movi32 (intOfRegister d) 0] :=
      (recorded_uses _).trans ((if_pos real).trans (if_pos rfl))
    rw [uses]
    exact zero_writes d
  | some s =>
    have realFirst := intOfRegister_ne_jitR0 s
    have compares : comparison (intOfRegister s) jitR0 = cmpi8 (intOfRegister s) 0 := by
      rw [comparison, if_neg realFirst, if_pos rfl]
    have uses : (JitCall.less (intOfRegister d) (operandInt (some s)) (operandInt none)).uses =
        [cmpi8 (intOfRegister s) 0, setl al, movzx raxInt al, mov (intOfRegister d) raxInt] := by
      rw [← compares]
      exact (recorded_uses _).trans ((if_pos real).trans (if_neg realFirst))
    rw [uses]
    exact lessThanZero_writes d s

end Shortcuts

theorem Writes.of_eq {uses : List EncoderUse} {d : Register}
    {value other : (Register → BitVec 64) → BitVec 64} (writes : Writes uses d value)
    (same : ∀ registers, value registers = other registers) : Writes uses d other := by
  have values : value = other := funext same
  exact values ▸ writes

theorem emitted_faithful (op : Operation) (d s t : Register)
    (faithful : op.Faithful d (some s) (some t)) (left right : BitVec 64)
    (same : s = t → left = right) : op.emitted d s t left right = op.value left right := by
  cases op with
  | less =>
    by_cases equal : s = t
    · simp [Operation.emitted, Operation.value, equal, same equal, BitVec.slt_eq_decide]
    · simp [Operation.emitted, equal]
  | add | mul | sub =>
    by_cases overwritten : d = t
    · have equal : s = t := by simpa [Operation.Faithful, overwritten] using faithful
      simp [Operation.emitted, overwritten, same equal]
    · simp [Operation.emitted, overwritten]
  | and | or =>
    by_cases equal : s = t
    · simp [Operation.emitted, Operation.value, equal, same equal]
    · have kept : d ≠ t := by
        rintro rfl
        exact equal (by simpa [Operation.Faithful] using faithful)
      simp [Operation.emitted, equal, kept]
  | xor =>
    obtain ⟨differ, kept⟩ : s ≠ t ∧ t ≠ d := by simpa [Operation.Faithful] using faithful
    simp [Operation.emitted, differ, kept.symm]

-- What a shortcut copies is the result wherever the operation keeps its meaning; `mul` and `less`
-- copy nothing.
theorem copied_value (op : Operation) (d : Register) (s t : Option Register)
    (copying : op ≠ .mul ∧ op ≠ .less) (zero : s = none ∨ t = none) (faithful : op.Faithful d s t)
    (registers : Register → BitVec 64) :
    (if s = none then operandValue registers t else operandValue registers s) =
      op.value (operandValue registers s) (operandValue registers t) := by
  cases s with
  | none =>
    rw [if_pos rfl]
    cases op with
    | add | or | xor => simp [operandValue, Operation.value]
    | sub =>
      obtain rfl : t = none := faithful.1 rfl
      simp [operandValue, Operation.value]
    | and =>
      obtain rfl : t = none := faithful.1.mp rfl
      simp [operandValue, Operation.value]
    | mul => exact absurd rfl copying.1
    | less => exact absurd rfl copying.2
  | some s =>
    obtain rfl : t = none := by simpa using zero
    rw [if_neg (Option.some_ne_none s)]
    cases op with
    | add | sub | or | xor => simp [operandValue, Operation.value]
    | and => exact absurd (faithful.1.mpr rfl) (Option.some_ne_none s)
    | mul => exact absurd rfl copying.1
    | less => exact absurd rfl copying.2

theorem operation_writes (op : Operation) (d : Register) (s t : Option Register)
    (faithful : op.Faithful d s t) :
    Writes (op.call (intOfRegister d) (operandInt s) (operandInt t)).uses d
      (fun registers => op.value (operandValue registers s) (operandValue registers t)) := by
  by_cases zero : s = none ∨ t = none
  · have value := fun copying => copied_value op d s t copying zero faithful
    cases op with
    | add =>
      have copies := addLike_copies d s t EncoderUse.add zero
      exact (Writes.of_recorded rfl copies).of_eq (value ⟨nofun, nofun⟩)
    | sub =>
      have copies := addLike_copies d s t EncoderUse.sub zero
      exact (Writes.of_recorded rfl copies).of_eq (value ⟨nofun, nofun⟩)
    | and =>
      have copies := logicalLike_copies d s t EncoderUse.and zero
      exact (Writes.of_recorded rfl copies).of_eq (value ⟨nofun, nofun⟩)
    | or =>
      have copies := logicalLike_copies d s t EncoderUse.or zero
      exact (Writes.of_recorded rfl copies).of_eq (value ⟨nofun, nofun⟩)
    | xor =>
      have copies := logicalLike_copies d s t EncoderUse.xor zero
      exact (Writes.of_recorded rfl copies).of_eq (value ⟨nofun, nofun⟩)
    | mul =>
      refine (mul_zero_writes d s t zero).of_eq fun registers => ?_
      rcases zero with rfl | rfl <;> simp [operandValue, Operation.value]
    | less =>
      obtain rfl : t = none := by
        rcases zero with first | second
        · exact faithful first
        · exact second
      exact less_zero_writes d s
  · rw [not_or] at zero
    obtain ⟨s, rfl⟩ := Option.ne_none_iff_exists'.mp zero.1
    obtain ⟨t, rfl⟩ := Option.ne_none_iff_exists'.mp zero.2
    refine (call_writes op d s t).of_eq fun registers => ?_
    exact emitted_faithful op d s t faithful _ _ fun equal => congrArg registers equal

end Jit
