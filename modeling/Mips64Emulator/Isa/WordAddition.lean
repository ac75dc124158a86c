import Mips64Emulator.Isa.Architecture

set_option autoImplicit false

namespace Mips64

open Architecture

theorem lowWord_toInt (value : BitVec 64) : (lowWord value).toInt = (value.setWidth 32).toInt :=
  BitVec.toInt_signExtend_of_le (by decide)

theorem lowWord_setWidth (value : BitVec 64) : (lowWord value).setWidth 32 = value.setWidth 32 := by
  apply BitVec.eq_of_getLsbD_eq
  intro i inside
  have within : i < 64 := by omega
  simp [lowWord, inside, within, BitVec.getElem_signExtend]

theorem lowWord_add_toInt (left right : BitVec 64) :
    (lowWord left + lowWord right).toInt =
      (left.setWidth 32).toInt + (right.setWidth 32).toInt := by
  have leftLow := BitVec.le_toInt (left.setWidth 32)
  have leftHigh := BitVec.toInt_lt (x := left.setWidth 32)
  have rightLow := BitVec.le_toInt (right.setWidth 32)
  have rightHigh := BitVec.toInt_lt (x := right.setWidth 32)
  rw [BitVec.toInt_add, lowWord_toInt, lowWord_toInt]
  apply Int.bmod_eq_of_le
  · omega
  · omega

theorem lowWord_add (left right : BitVec 64) :
    lowWord (lowWord left + lowWord right) = wordSum left right := by
  rw [lowWord, BitVec.setWidth_add _ _ (by decide), lowWord_setWidth, lowWord_setWidth, wordSum]

theorem overflows_iff (left right : BitVec 64) :
    overflows left right ↔ (lowWord left + lowWord right).toInt > 2 ^ 31 - 1 ∨
      (lowWord left + lowWord right).toInt < -2 ^ 31 := by
  rw [lowWord_add_toInt, overflows]
  constructor
  · rintro (below | above)
    · exact Or.inr below
    · exact Or.inl (by omega)
  · rintro (above | below)
    · exact Or.inr (by omega)
    · exact Or.inl below

section Handlers

variable (cpu : Cpu) (decoded : Decoded) (rs rt rd : Fin gprCount)
  (sourceIs : decoded.rs.toNat = rs) (otherIs : decoded.rt.toNat = rt)
  (targetIs : decoded.rd.toNat = rd)

include sourceIs otherIs targetIs

theorem executeAddu_correct :
    executeAddu (.ref cpu) (.ref decoded) =
      some (.ok, .ref (cpu.write rd (wordSum (cpu.gpr rs) (cpu.gpr rt))).advance) := by
  simp [executeAddu, sourceIs, otherIs, cpu.load_correct, lowWord_add,
    cpu.retire_correct _ rd targetIs]

theorem executeAdd_correct :
    executeAdd (.ref cpu) (.ref decoded) =
      some (if overflows (cpu.gpr rs) (cpu.gpr rt) then (.integerOverflow, .ref cpu)
        else (.ok, .ref (cpu.write rd (wordSum (cpu.gpr rs) (cpu.gpr rt))).advance)) := by
  have loads := cpu.load_correct
  have retires := cpu.retire_correct decoded.rd rd targetIs
  by_cases overflow : overflows (cpu.gpr rs) (cpu.gpr rt)
  · have trapped := (overflows_iff _ _).mp overflow
    simp only [executeAdd, sourceIs, otherIs, loads, bind, Option.bind_some, trapped, if_true,
      overflow]
  · have small := mt (overflows_iff _ _).mpr overflow
    simp only [executeAdd, sourceIs, otherIs, loads, bind, Option.bind_some, small, if_false,
      retires, lowWord_add, overflow]

variable (other : Cpu) (sameLeft : (other.gpr rs).setWidth 32 = (cpu.gpr rs).setWidth 32)
  (sameRight : (other.gpr rt).setWidth 32 = (cpu.gpr rt).setWidth 32)

include sameLeft sameRight

theorem executeAddu_low :
    ∃ after, executeAddu (.ref other) (.ref decoded) = some (.ok, .ref after) ∧
      after.gpr rd = (cpu.write rd (wordSum (cpu.gpr rs) (cpu.gpr rt))).advance.gpr rd := by
  refine ⟨_, executeAddu_correct other decoded rs rt rd sourceIs otherIs targetIs, ?_⟩
  have sum : wordSum (other.gpr rs) (other.gpr rt) = wordSum (cpu.gpr rs) (cpu.gpr rt) := by
    simp only [wordSum, sameLeft, sameRight]
  simp only [Cpu.advance_gpr, Cpu.write_gpr, sum, if_true]

theorem executeAdd_low :
    (executeAdd (.ref other) (.ref decoded)).map Prod.fst =
      some (if overflows (cpu.gpr rs) (cpu.gpr rt) then .integerOverflow else .ok) := by
  have traps : overflows (other.gpr rs) (other.gpr rt) ↔ overflows (cpu.gpr rs) (cpu.gpr rt) := by
    simp only [overflows, sameLeft, sameRight]
  rw [executeAdd_correct other decoded rs rt rd sourceIs otherIs targetIs]
  by_cases overflow : overflows (cpu.gpr rs) (cpu.gpr rt)
  · simp [traps, overflow]
  · simp [traps, overflow]

end Handlers

/-- ADDU always wraps; ADD traps exactly when the exact sum of the signed low words does not fit, and
otherwise is ADDU. -/
theorem executeAdd_executeAddu (cpu : Cpu) (decoded : Decoded)
    (rsBound : decoded.rs.toNat < gprCount) (rtBound : decoded.rt.toNat < gprCount)
    (rdBound : decoded.rd.toNat < gprCount) :
    let rs : Fin gprCount := ⟨decoded.rs.toNat, rsBound⟩
    let rt : Fin gprCount := ⟨decoded.rt.toNat, rtBound⟩
    let rd : Fin gprCount := ⟨decoded.rd.toNat, rdBound⟩
    ∃ after, executeAddu (.ref cpu) (.ref decoded) = some (.ok, .ref after) ∧
      (decoded.rd ≠ 0 → after.gpr rd = wordSum (cpu.gpr rs) (cpu.gpr rt)) ∧
      executeAdd (.ref cpu) (.ref decoded) =
        some (if overflows (cpu.gpr rs) (cpu.gpr rt) then (.integerOverflow, .ref cpu)
          else (.ok, .ref after)) ∧
      (lowWord (cpu.gpr rs) + lowWord (cpu.gpr rt)).toInt =
        ((cpu.gpr rs).setWidth 32).toInt + ((cpu.gpr rt).setWidth 32).toInt ∧
      ∀ other : Cpu, (other.gpr rs).setWidth 32 = (cpu.gpr rs).setWidth 32 →
        (other.gpr rt).setWidth 32 = (cpu.gpr rt).setWidth 32 →
        (∃ otherAfter, executeAddu (.ref other) (.ref decoded) = some (.ok, .ref otherAfter) ∧
          otherAfter.gpr rd = after.gpr rd) ∧
        (executeAdd (.ref other) (.ref decoded)).map Prod.fst =
          some (if overflows (cpu.gpr rs) (cpu.gpr rt) then .integerOverflow else .ok) := by
  intro rs rt rd
  refine ⟨_, executeAddu_correct cpu decoded rs rt rd rfl rfl rfl, ?_,
    executeAdd_correct cpu decoded rs rt rd rfl rfl rfl, lowWord_add_toInt _ _, ?_⟩
  · intro written
    have nonzero : rd ≠ 0 := by
      intro zero
      have index : decoded.rd.toNat = 0 := congrArg Fin.val zero
      exact written (BitVec.eq_of_toNat_eq index)
    rw [Cpu.advance_gpr, Cpu.write_gpr, if_neg nonzero, if_pos rfl]
  · intro other sameLeft sameRight
    exact ⟨executeAddu_low cpu decoded rs rt rd rfl rfl rfl other sameLeft sameRight,
      executeAdd_low cpu decoded rs rt rd rfl rfl rfl other sameLeft sameRight⟩

-- r1 holds 2^31 - 1 below a dirty upper half, r2 holds 1: ADD r3, r1, r2 traps and ADDU wraps.
theorem executeAdd_executeAddu_boundary :
    let cpu : Cpu :=
      { gpr := fun index =>
          if index = 1 then 0xDEADBEEF7FFFFFFF else if index = 2 then 1 else 0
        pc := 0, hi := 0, lo := 0 }
    let decoded : Decoded := { (default : Decoded) with rs := 1, rt := 2, rd := 3 }
    executeAdd (.ref cpu) (.ref decoded) = some (.integerOverflow, .ref cpu) ∧
      ∃ after, executeAddu (.ref cpu) (.ref decoded) = some (.ok, .ref after) ∧
        after.gpr 3 = 0xFFFFFFFF80000000 := by
  intro cpu decoded
  obtain ⟨after, wrapped, value, trapped, -⟩ :=
    executeAdd_executeAddu cpu decoded (by decide) (by decide) (by decide)
  rw [if_pos (by decide)] at trapped
  exact ⟨trapped, after, wrapped, (value (by decide)).trans (by decide)⟩

end Mips64
