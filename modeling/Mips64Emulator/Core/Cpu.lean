import Mathlib.Logic.Function.Basic
import Mips64Emulator.Core.Types
import Mips64Emulator.Shared.BitFields

set_option autoImplicit false

namespace Mips64

abbrev gprCount : Nat := 32

instance : NeZero gprCount := ⟨by decide⟩

structure Cpu where
  gpr : Fin gprCount → BitVec 64
  pc : BitVec 64
  hi : BitVec 64
  lo : BitVec 64

/-- `cpu->gpr[index]` as a value; an index of 32 or more reads outside the array. -/
def Cpu.load (cpu : Cpu) (index : Nat) : Option (BitVec 64) :=
  if bound : index < gprCount then some (cpu.gpr ⟨index, bound⟩) else none

def Cpu.store (cpu : Cpu) (index : Nat) (value : BitVec 64) : Option Cpu :=
  if bound : index < gprCount then
    some { cpu with gpr := Function.update cpu.gpr ⟨index, bound⟩ value }
  else none

-- `if (index != 0) gpr[index] = value; gpr[0] = 0;`, the store every register write ends in.
def Cpu.assign (cpu : Cpu) (index : Nat) (value : BitVec 64) : Option Cpu :=
  (if index ≠ 0 then cpu.store index value else some cpu).bind fun cpu => cpu.store 0 0

def Cpu.cleared (pc : BitVec 64) : Cpu := { gpr := fun _ => 0, pc := pc, hi := 0, lo := 0 }

def cpuReset (cpu : Ptr Cpu) (resetPc : BitVec 64) : Option (Status × Ptr Cpu) :=
  match cpu with
  -- `return;` in a function with a result: the caller reads no value.
  | .null => none
  | .ref _ => some (.ok, .ref (Cpu.cleared resetPc))

def cpuMipsGetGpr (cpu : Ptr Cpu) (index : BitVec 32) (outValue : Ptr (BitVec 64)) :
    Option (Status × Ptr (BitVec 64)) :=
  match cpu, outValue with
  | .ref cpu, .ref _ =>
    if index.toNat ≥ gprCount then some (.invalidRegister, outValue)
    else if index = 0 then some (.ok, .ref 0)
    else do
      let value ← cpu.load index.toNat
      some (.ok, .ref value)
  | _, _ => some (.invalidArgument, outValue)

def cpuSetGpr (cpu : Ptr Cpu) (index : BitVec 32) (value : BitVec 64) :
    Option (Status × Ptr Cpu) :=
  match cpu with
  | .null => some (.invalidArgument, .null)
  | .ref cpu =>
    if index.toNat ≥ gprCount then some (.invalidRegister, .ref cpu)
    else do
      let cpu ← cpu.assign index.toNat value
      some (.ok, .ref cpu)

def cpuGetPc (cpu : Ptr Cpu) (outPc : Ptr (BitVec 64)) : Status × Ptr (BitVec 64) :=
  match cpu, outPc with
  | .ref cpu, .ref _ => (.ok, .ref cpu.pc)
  | _, _ => (.invalidArgument, outPc)

def cpuSetPc (cpu : Ptr Cpu) (pc : BitVec 64) : Status × Ptr Cpu :=
  match cpu with
  | .null => (.invalidArgument, .null)
  | .ref cpu =>
    if pc &&& 3 ≠ 0 then (.unalignedPc, .ref cpu)
    else (.ok, .ref { cpu with pc := pc })

def Cpu.write (cpu : Cpu) (target : Fin gprCount) (value : BitVec 64) : Cpu :=
  { cpu with gpr := Function.update (Function.update cpu.gpr target value) 0 0 }

namespace Cpu

theorem load_correct (cpu : Cpu) (index : Fin gprCount) :
    cpu.load index = some (cpu.gpr index) := by
  simp [load, index.isLt]

theorem store_correct (cpu : Cpu) (index : Fin gprCount) (value : BitVec 64) :
    cpu.store index value = some { cpu with gpr := Function.update cpu.gpr index value } := by
  simp [store, index.isLt]

@[simp] theorem write_gpr (cpu : Cpu) (target index : Fin gprCount) (value : BitVec 64) :
    (cpu.write target value).gpr index =
      if index = 0 then 0 else if index = target then value else cpu.gpr index := by
  simp only [write, Function.update_apply]

-- The test on register 0 is absorbed by the second store.
theorem assign_correct (cpu : Cpu) (target : Fin gprCount) (value : BitVec 64) :
    cpu.assign target value = some (cpu.write target value) := by
  have cleared (cpu : Cpu) :
      cpu.store 0 0 = some { cpu with gpr := Function.update cpu.gpr 0 0 } :=
    store_correct cpu 0 0
  by_cases discarded : target = 0
  · subst discarded
    rw [assign, Fin.val_zero, if_neg (by decide), Option.bind_some, cleared]
    simp [write]
  · rw [assign, if_pos (Fin.val_ne_zero_iff.mpr discarded), store_correct, Option.bind_some,
      cleared]
    rfl

end Cpu

theorem cpuMipsGetGpr_correct (cpu : Cpu) (index : BitVec 32) (out : BitVec 64) :
    cpuMipsGetGpr (.ref cpu) index (.ref out) =
      some (if bound : index.toNat < gprCount then
        (.ok, .ref (if index = 0 then 0 else cpu.gpr ⟨index.toNat, bound⟩))
      else (.invalidRegister, .ref out)) := by
  by_cases bound : index.toNat < gprCount
  · by_cases zero : index = 0
    · simp [cpuMipsGetGpr, zero]
    · have loaded := cpu.load_correct ⟨index.toNat, bound⟩
      simp only [cpuMipsGetGpr, ge_iff_le, Nat.not_le.mpr bound, if_false, zero, bound, dif_pos]
      simp [loaded]
  · simp [cpuMipsGetGpr, bound, Nat.le_of_not_lt bound]

theorem cpuSetGpr_correct (cpu : Cpu) (index : BitVec 32) (value : BitVec 64) :
    cpuSetGpr (.ref cpu) index value =
      some (if bound : index.toNat < gprCount then
        (.ok, .ref (cpu.write ⟨index.toNat, bound⟩ value))
      else (.invalidRegister, .ref cpu)) := by
  by_cases bound : index.toNat < gprCount
  · have stored := cpu.assign_correct ⟨index.toNat, bound⟩ value
    simp only [cpuSetGpr, ge_iff_le, Nat.not_le.mpr bound, if_false, bound, dif_pos]
    simp [stored]
  · simp [cpuSetGpr, bound, Nat.le_of_not_lt bound]

theorem cpuSetPc_correct (cpu : Cpu) (pc : BitVec 64) :
    cpuSetPc (.ref cpu) pc =
      if 4 ∣ pc.toNat then (.ok, .ref { cpu with pc := pc }) else (.unalignedPc, .ref cpu) := by
  have aligned : pc &&& 3 = 0 ↔ 4 ∣ pc.toNat := BitFields.and_mask_eq_zero_iff pc 2 (by decide)
  by_cases multiple : 4 ∣ pc.toNat
  · simp only [cpuSetPc, ne_eq, aligned.mpr multiple, not_true, if_false, multiple, if_true]
  · simp only [cpuSetPc, ne_eq, aligned, multiple, not_false_eq_true, if_true, if_false]

end Mips64
