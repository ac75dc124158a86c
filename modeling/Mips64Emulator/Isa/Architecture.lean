import Mips64Emulator.Isa.DecodeExecute

set_option autoImplicit false

namespace Mips64

namespace Architecture

-- A write to register 0 is discarded, so this touches nothing but `target`.
def put (cpu : Cpu) (target : Fin gprCount) (value : BitVec 64) : Cpu :=
  if target = 0 then cpu else { cpu with gpr := Function.update cpu.gpr target value }

def wordSum (left right : BitVec 64) : BitVec 64 :=
  (left.setWidth 32 + right.setWidth 32).signExtend 64

def overflows (left right : BitVec 64) : Prop :=
  let sum := (left.setWidth 32).toInt + (right.setWidth 32).toInt
  sum < -2 ^ 31 ∨ 2 ^ 31 ≤ sum

instance (left right : BitVec 64) : Decidable (overflows left right) := by
  unfold overflows
  infer_instance

def immediate (raw : BitVec 32) : BitVec 64 := (raw.setWidth 16).signExtend 64

def isAdd (raw : BitVec 32) : Prop := field raw 26 6 = 0 ∧ field raw 0 6 = 0x20
def isAddu (raw : BitVec 32) : Prop := field raw 26 6 = 0 ∧ field raw 0 6 = 0x21
def isDaddu (raw : BitVec 32) : Prop := field raw 26 6 = 0 ∧ field raw 0 6 = 0x2D
def isDaddiu (raw : BitVec 32) : Prop := field raw 26 6 = 0x19

instance (raw : BitVec 32) : Decidable (isAdd raw) := inferInstanceAs (Decidable (_ ∧ _))
instance (raw : BitVec 32) : Decidable (isAddu raw) := inferInstanceAs (Decidable (_ ∧ _))
instance (raw : BitVec 32) : Decidable (isDaddu raw) := inferInstanceAs (Decidable (_ ∧ _))
instance (raw : BitVec 32) : Decidable (isDaddiu raw) := inferInstanceAs (Decidable (_ = _))

def execute (raw : BitVec 32) (cpu : Cpu) : Status × Cpu :=
  let source := cpu.gpr (register raw 21)
  let other := cpu.gpr (register raw 16)
  if raw = 0 then (.ok, cpu.advance)
  else if isAdd raw then
    if overflows source other then (.integerOverflow, cpu)
    else (.ok, (put cpu (register raw 11) (wordSum source other)).advance)
  else if isAddu raw then (.ok, (put cpu (register raw 11) (wordSum source other)).advance)
  else if isDaddu raw then (.ok, (put cpu (register raw 11) (source + other)).advance)
  else if isDaddiu raw then (.ok, (put cpu (register raw 16) (source + immediate raw)).advance)
  else (.notImplemented, cpu)

/-- The words on which decoder and dispatch do what the architecture says. -/
def Supported (raw : BitVec 32) : Prop :=
  ¬ isAdd raw ∧ ¬ isAddu raw ∧
    ¬ (isDaddiu raw ∧ register raw 16 ≠ 0 ∧ field raw 12 4 ≠ 0)

instance (raw : BitVec 32) : Decidable (Supported raw) :=
  inferInstanceAs (Decidable (_ ∧ _ ∧ ¬ (_ ∧ _ ∧ _)))

end Architecture

open Architecture

theorem write_eq_put (cpu : Cpu) (zero : cpu.gpr 0 = 0) (target : Fin gprCount)
    (value : BitVec 64) : cpu.write target value = put cpu target value := by
  by_cases discarded : target = 0
  · simp [Cpu.write, put, discarded, ← zero]
  · have kept : Function.update cpu.gpr target value 0 = 0 := by
      rw [Function.update_of_ne (Ne.symm discarded), zero]
    rw [Cpu.write, put, if_neg discarded]
    congr 1
    exact Function.update_eq_self_iff.mpr kept.symm

theorem immediate_eq_iff (raw : BitVec 32) :
    immediate raw = BitVec.ofNat 64 (field raw 0 12) ↔ field raw 12 4 = 0 := by
  have low : (BitVec.ofNat 16 (field raw 0 12)).toNat = raw.toNat % 2 ^ 12 := by
    have small := field_lt raw 0 12
    simp only [field, Nat.pow_zero, Nat.div_one] at small ⊢
    rw [BitVec.toNat_ofNat, Nat.mod_eq_of_lt (by omega)]
  have extended : BitVec.ofNat 64 (field raw 0 12) =
      (BitVec.ofNat 16 (field raw 0 12)).signExtend 64 := by
    have small := signExtension_small (BitVec.ofNat 16 (field raw 0 12)) (by omega)
    rw [← signExtension, small, low]
    simp [field]
  have injective (a b : BitVec 16) : a.signExtend 64 = b.signExtend 64 ↔ a = b := by
    constructor
    · intro same
      have values := congrArg BitVec.toInt same
      rw [BitVec.toInt_signExtend_of_le (by decide), BitVec.toInt_signExtend_of_le (by decide)]
        at values
      exact BitVec.eq_of_toInt_eq values
    · rintro rfl
      rfl
  rw [immediate, extended, injective, BitVec.toNat_eq, low, BitVec.toNat_setWidth]
  simp only [field]
  omega

theorem put_inj (cpu : Cpu) (target : Fin gprCount) (left right : BitVec 64) :
    (put cpu target left).advance = (put cpu target right).advance ↔
      target = 0 ∨ left = right := by
  by_cases discarded : target = 0
  · simp [put, discarded]
  · simp only [put, discarded, if_false, false_or]
    constructor
    · intro same
      have values := congrArg (fun after : Cpu => after.gpr target) same
      simpa using values
    · rintro rfl
      rfl

theorem executed_eq_iff (raw : BitVec 32) (cpu : Cpu) (zero : cpu.gpr 0 = 0) :
    executed raw cpu = execute raw cpu ↔ Supported raw := by
  by_cases nop : raw = 0#32
  · subst nop
    simp [executed, execute, Supported, isAdd, isAddu, isDaddiu, field]
  by_cases special : field raw 26 6 = 0
  · have notDaddiu : ¬ isDaddiu raw := by simp [isDaddiu, special]
    by_cases add : field raw 0 6 = 0x20
    · have refused : (execute raw cpu).1 ≠ .notImplemented := by
        simp only [execute, BitVec.ofNat_eq_ofNat, nop, if_false, isAdd, special, add, and_self,
          if_true]
        split <;> simp
      have ran : executed raw cpu = (.notImplemented, cpu) := by
        simp [executed, nop, special, add]
      have unsupported : ¬ Supported raw := fun supported => supported.1 ⟨special, add⟩
      exact iff_of_false (fun same => refused (by rw [← same, ran])) unsupported
    by_cases addu : field raw 0 6 = 0x21
    · have unsupported : ¬ Supported raw := fun supported => supported.2.1 ⟨special, addu⟩
      simp [executed, execute, nop, isAdd, isAddu, special, addu, unsupported]
    have supported : Supported raw := by
      simp [Supported, isAdd, isAddu, add, addu, notDaddiu]
    by_cases daddu : field raw 0 6 = 0x2D
    · simp [executed, execute, nop, isAdd, isAddu, isDaddu, special, daddu, supported,
        write_eq_put cpu zero]
    · simp [executed, execute, nop, isAdd, isAddu, isDaddu, notDaddiu, special, add, addu, daddu,
        supported]
  · have others : ¬ isAdd raw ∧ ¬ isAddu raw ∧ ¬ isDaddu raw := by
      simp [isAdd, isAddu, isDaddu, special]
    by_cases daddiu : field raw 26 6 = 0x19
    · have code : executed raw cpu =
          (.ok, (put cpu (register raw 16)
            (cpu.gpr (register raw 21) + BitVec.ofNat 64 (field raw 0 12))).advance) := by
        simp [executed, nop, daddiu, write_eq_put cpu zero]
      have spec : execute raw cpu =
          (.ok, (put cpu (register raw 16)
            (cpu.gpr (register raw 21) + immediate raw)).advance) := by
        simp [execute, nop, others, isDaddiu, daddiu]
      rw [code, spec, Prod.mk.injEq, put_inj, BitVec.add_right_inj, eq_comm (b := immediate raw),
        immediate_eq_iff]
      simp only [Supported, others, isDaddiu, daddiu, not_false_eq_true, true_and, not_and_or,
        ne_eq, not_not]
    · simp [executed, execute, nop, others, isDaddiu, daddiu, special, Supported]

theorem decodeAndExecute_architecture_iff (raw : BitVec 32) (scratch : Decoded) (cpu : Cpu)
    (zero : cpu.gpr 0 = 0) :
    decodeAndExecute raw scratch (.ref cpu) =
        some ((execute raw cpu).1, .ref (execute raw cpu).2) ↔ Supported raw := by
  rw [decodeAndExecute_correct, ← executed_eq_iff raw cpu zero]
  simp only [Option.some.injEq, Ptr.ref.injEq, Prod.ext_iff]

-- DADDIU r1, r0, 0x0FFF: the largest immediate the decoder keeps whole.
theorem decodeAndExecute_small_immediate :
    decodeAndExecute 0x64010FFF default (.ref (Cpu.cleared 0)) =
      some ((execute 0x64010FFF (Cpu.cleared 0)).1, .ref (execute 0x64010FFF (Cpu.cleared 0)).2) :=
  (decodeAndExecute_architecture_iff 0x64010FFF default (Cpu.cleared 0) rfl).mpr (by decide)

-- DADDIU r1, r0, 0x1000 adds nothing.
theorem decodeAndExecute_dropped_immediate :
    decodeAndExecute 0x64011000 default (.ref (Cpu.cleared 0)) ≠
      some ((execute 0x64011000 (Cpu.cleared 0)).1,
        .ref (execute 0x64011000 (Cpu.cleared 0)).2) := by
  intro same
  rw [decodeAndExecute_correct] at same
  simp only [Option.some.injEq, Ptr.ref.injEq, Prod.ext_iff] at same
  have supported := (executed_eq_iff 0x64011000 (Cpu.cleared 0) rfl).mp (Prod.ext same.1 same.2)
  exact absurd supported (by decide)

end Mips64
