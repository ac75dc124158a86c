import Mips64Emulator.Jit.RegisterEffects
import Mips64Emulator.X86.DecodeSound

set_option autoImplicit false

namespace Jit

open X86 EncoderUse

def memoryForm (legacy : Option Byte) (escape : Bool) (opcode : Byte) (base register off : BitVec 32)
    (wide : Bool) : Encoded :=
  { bare opcode with
    legacy := legacy, rex := some (rexOf base register wide), escape := escape
    modrm := some (modrmOf base register 2), displacement := le32 off }

theorem needsSib_memory (base register : BitVec 32) :
    (modrmOf base register 2#32).needsSib = decide (base.setWidth 3 = 4#3) := by
  simp [modrmOf, ModRm.needsSib]

section Forms

variable {legacy : Option Byte} {escape : Bool} {opcode : Byte} (base register off : BitVec 32)
  (wide : Bool) (accepted : ∀ byte ∈ legacy, isLegacy byte = true)
  (found : opcodeForm legacy escape opcode = some { modrm := true, immediate := .absent })

include accepted found

theorem memoryForm_wellFormed (plainBase : base.setWidth 3 ≠ 4#3) :
    (memoryForm legacy escape opcode base register off wide).WellFormed where
  legacy := accepted
  opcode := ⟨_, found, rfl, rfl⟩
  sib := by simp [memoryForm, bare, needsSib_memory, plainBase]
  displacement := by simp [memoryForm, bare, modrmOf, displacementLength, le32]

/-- The first displacement byte is taken for the missing SIB byte, and one byte more is asked for. -/
theorem memoryForm_unfinished (sibBase : base.setWidth 3 = 4#3) :
    decode (memoryForm legacy escape opcode base register off wide).bytes = none := by
  obtain ⟨first, rest, split⟩ : ∃ first rest, le32 off = first :: rest := ⟨_, _, rfl⟩
  have length : rest.length = 3 := by
    have whole := congrArg List.length split
    simp only [le32, ByteOrder.split_length, List.length_cons] at whole
    omega
  let longer := { memoryForm legacy escape opcode base register off wide with
    sib := some (Sib.ofByte first), displacement := rest ++ [0] }
  have wellFormed : longer.WellFormed :=
    { legacy := accepted
      opcode := ⟨_, found, rfl, rfl⟩
      sib := by simp [longer, memoryForm, needsSib_memory, sibBase]
      displacement := by
        simp [longer, memoryForm, modrmOf, displacementLength, length] }
  apply decode_unfinished wellFormed 0 []
  simp [longer, memoryForm, bare, Encoded.bytes, Encoded.body, Encoded.escapeByte, split]

end Forms

theorem low_bits_four (base : Register) :
    (intOfRegister base).setWidth 3 = 4#3 ↔ base = rsp ∨ base = r12 := by
  revert base
  decide

theorem memoryForm_rmOperand (legacy : Option Byte) (escape : Bool) (opcode : Byte)
    (base : Register) (register off : BitVec 32) (wide : Bool) :
    (memoryForm legacy escape opcode (intOfRegister base) register off wide).rmOperand
        (modrmOf (intOfRegister base) register 2) =
      .memory { base := some base, index := none, displacement := off.signExtend 64
                ripRelative := false } := by
  simp [Encoded.rmOperand, Encoded.rmAddress, Encoded.rmRegister, Encoded.rexBit, memoryForm, bare,
    rexOf, modrmOf, signedBytes_le32]

theorem memoryForm_regOperand (legacy : Option Byte) (escape : Bool) (opcode : Byte)
    (base register off : BitVec 32) (wide : Bool) :
    (memoryForm legacy escape opcode base register off wide).regOperand
        (modrmOf base register 2) =
      registerNumber (BitVec.slt 7#32 register) (register.setWidth 3) :=
  coded_regOperand rfl

end Jit
