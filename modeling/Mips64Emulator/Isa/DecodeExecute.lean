import Mips64Emulator.Core.Execute

set_option autoImplicit false

namespace Mips64

def register (raw : BitVec 32) (low : Nat) : Fin gprCount := ⟨field raw low 5, field_lt raw low 5⟩

def decodeAndExecute (raw : BitVec 32) (scratch : Decoded) (cpu : Ptr Cpu) :
    Option (Status × Ptr Cpu) := do
  let instruction ← decodeInstruction raw (.ref scratch)
  cpuExecute cpu instruction

-- The immediate is bits 11 to 0, so its extension never changes sign.
def executed (raw : BitVec 32) (cpu : Cpu) : Status × Cpu :=
  let source := cpu.gpr (register raw 21)
  if raw = 0 then (.ok, cpu.advance)
  else if field raw 26 6 = 0 ∧ field raw 0 6 = 0x2D then
    (.ok, (cpu.write (register raw 11) (source + cpu.gpr (register raw 16))).advance)
  else if field raw 26 6 = 0x19 then
    (.ok, (cpu.write (register raw 16) (source + BitVec.ofNat 64 (field raw 0 12))).advance)
  else (.notImplemented, cpu)

theorem signExtension_small (value : BitVec 16) (small : value.toNat < 2 ^ 12) :
    signExtension value = BitVec.ofNat 64 value.toNat := by
  have positive : value.msb = false := by
    rw [BitVec.msb_eq_false_iff_two_mul_lt]
    omega
  rw [signExtension, BitVec.signExtend_eq_setWidth_of_msb_false positive]
  apply BitVec.eq_of_toNat_eq
  simp

theorem opcode_eq_iff {raw : BitVec 32} {decoded : Decoded} (decodes : Decodes raw decoded)
    (opcode : BitVec 8) : decoded.opcode = opcode ↔ field raw 26 6 = opcode.toNat := by
  rw [BitVec.toNat_eq, decodes.opcode]

theorem function_eq_iff {raw : BitVec 32} {decoded : Decoded} (decodes : Decodes raw decoded)
    (function : BitVec 8) : decoded.function = function ↔ field raw 0 6 = function.toNat := by
  rw [BitVec.toNat_eq, decodes.function]

theorem executeSpecial_correct {raw : BitVec 32} {decoded : Decoded} (cpu : Cpu)
    (decodes : Decodes raw decoded) :
    executeSpecial (.ref cpu) (.ref decoded) =
      some (if field raw 0 6 = 0x2D then
        (.ok, .ref (cpu.write (register raw 11)
          (cpu.gpr (register raw 21) + cpu.gpr (register raw 16))).advance)
      else (.notImplemented, .ref cpu)) := by
  have daddu := executeDaddu_correct cpu decoded (register raw 21) (register raw 16)
    (register raw 11) decodes.rs decodes.rt decodes.rd
  have dispatch := function_eq_iff decodes functDaddu
  by_cases selected : field raw 0 6 = 0x2D
  · simp only [executeSpecial, dispatch.mpr selected, if_true, daddu, selected]
  · have other : decoded.function ≠ functDaddu := fun same => selected (dispatch.mp same)
    simp only [executeSpecial, other, if_false, selected]

theorem cpuExecute_correct {raw : BitVec 32} {decoded : Decoded} (cpu : Cpu)
    (decodes : Decodes raw decoded) :
    cpuExecute (.ref cpu) (.ref decoded) =
      some ((executed raw cpu).1, .ref (executed raw cpu).2) := by
  have special := opcode_eq_iff decodes opcodeSpecial
  have daddiu := opcode_eq_iff decodes opcodeDaddiu
  have immediate : signExtension decoded.immediate = BitVec.ofNat 64 (field raw 0 12) := by
    rw [signExtension_small _ (decodes.immediate ▸ field_lt raw 0 12), decodes.immediate]
  simp only [cpuExecute, decodes.raw, special, daddiu, executeSpecial_correct cpu decodes,
    executeDaddiu_correct cpu decoded (register raw 21) (register raw 16) decodes.rs decodes.rt,
    immediate, executed]
  by_cases nop : raw = 0#32
  · simp [nop, executeNop, Cpu.advance]
  · by_cases isSpecial : field raw 26 6 = 0
    · by_cases isDaddu : field raw 0 6 = 0x2D <;>
        simp [nop, isSpecial, isDaddu, opcodeSpecial]
    · by_cases isDaddiu : field raw 26 6 = 0x19 <;>
        simp [nop, isSpecial, isDaddiu, opcodeSpecial, opcodeDaddiu]

theorem decodeAndExecute_correct (raw : BitVec 32) (scratch : Decoded) (cpu : Cpu) :
    decodeAndExecute raw scratch (.ref cpu) =
      some ((executed raw cpu).1, .ref (executed raw cpu).2) := by
  obtain ⟨decoded, output, decodes⟩ := decodeInstruction_correct raw scratch
  simp only [decodeAndExecute, output, bind, Option.bind_some]
  exact cpuExecute_correct cpu decodes

end Mips64
