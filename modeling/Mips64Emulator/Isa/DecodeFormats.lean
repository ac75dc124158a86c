import Mips64Emulator.Core.Decode

set_option autoImplicit false

namespace Mips64

structure RFormat where
  opcode : Fin 64
  rs : Fin 32
  rt : Fin 32
  rd : Fin 32
  shiftAmount : Fin 32
  function : Fin 64
  deriving DecidableEq, Repr

structure IFormat where
  opcode : Fin 64
  rs : Fin 32
  rt : Fin 32
  immediate : Fin (2 ^ 16)
  deriving DecidableEq, Repr

structure JFormat where
  opcode : Fin 64
  target : Fin (2 ^ 26)
  deriving DecidableEq, Repr

namespace RFormat

def word (fields : RFormat) : BitVec 32 :=
  BitVec.ofNat 32 (fields.opcode * 2 ^ 26 + fields.rs * 2 ^ 21 + fields.rt * 2 ^ 16 +
    fields.rd * 2 ^ 11 + fields.shiftAmount * 2 ^ 6 + fields.function)

structure ReadBack (fields : RFormat) (decoded : Decoded) : Prop where
  opcode : decoded.opcode.toNat = fields.opcode
  rs : decoded.rs.toNat = fields.rs
  rt : decoded.rt.toNat = fields.rt
  rd : decoded.rd.toNat = fields.rd
  shiftAmount : decoded.shiftAmount.toNat = fields.shiftAmount
  function : decoded.function.toNat = fields.function

end RFormat

namespace IFormat

def word (fields : IFormat) : BitVec 32 :=
  BitVec.ofNat 32 (fields.opcode * 2 ^ 26 + fields.rs * 2 ^ 21 + fields.rt * 2 ^ 16 +
    fields.immediate)

structure ReadBack (fields : IFormat) (decoded : Decoded) : Prop where
  opcode : decoded.opcode.toNat = fields.opcode
  rs : decoded.rs.toNat = fields.rs
  rt : decoded.rt.toNat = fields.rt
  immediate : decoded.immediate.toNat = fields.immediate

end IFormat

namespace JFormat

def word (fields : JFormat) : BitVec 32 :=
  BitVec.ofNat 32 (fields.opcode * 2 ^ 26 + fields.target)

structure ReadBack (fields : JFormat) (decoded : Decoded) : Prop where
  opcode : decoded.opcode.toNat = fields.opcode
  target : decoded.target.toNat = fields.target

end JFormat

structure Decoded.InRange (decoded : Decoded) : Prop where
  opcode : decoded.opcode.toNat < 64
  rs : decoded.rs.toNat < 32
  rt : decoded.rt.toNat < 32
  rd : decoded.rd.toNat < 32
  shiftAmount : decoded.shiftAmount.toNat < 32
  function : decoded.function.toNat < 64
  target : decoded.target.toNat < 2 ^ 26

/-- The fields of each format put together are the word they were taken from. -/
structure Lossless (raw : BitVec 32) (decoded : Decoded) : Prop where
  inRange : decoded.InRange
  rFormat : decoded.opcode.toNat * 2 ^ 26 + decoded.rs.toNat * 2 ^ 21 + decoded.rt.toNat * 2 ^ 16 +
    decoded.rd.toNat * 2 ^ 11 + decoded.shiftAmount.toNat * 2 ^ 6 + decoded.function.toNat =
      raw.toNat
  iFormat : decoded.opcode.toNat * 2 ^ 26 + decoded.rs.toNat * 2 ^ 21 + decoded.rt.toNat * 2 ^ 16 +
    decoded.immediate.toNat = raw.toNat
  offset : decoded.offset = decoded.immediate
  jFormat : decoded.opcode.toNat * 2 ^ 26 + decoded.target.toNat = raw.toNat

theorem decodeInstruction_kept (raw : BitVec 32) (scratch : Decoded) :
    ∃ decoded, decodeInstruction raw (.ref scratch) = some (.ref decoded) ∧
      Decodes raw decoded ∧ decoded.target = raw ∧ decoded.offset = scratch.offset := by
  obtain ⟨decoded, output, decodes⟩ := decodeInstruction_correct raw scratch
  refine ⟨decoded, output, decodes, ?_⟩
  cases output
  refine ⟨?_, rfl⟩
  apply BitVec.eq_of_toNat_eq
  have masked := BitFields.toNat_and_mask (raw.setWidth 64) 34 (by decide)
  have bound := raw.isLt
  simp only [BitVec.toNat_setWidth] at masked ⊢
  rw [show (0x03FFFFFFFF : BitVec 64) = BitVec.ofNat 64 (2 ^ 34 - 1) from rfl, masked]
  omega

section Forward

variable {raw : BitVec 32} {decoded : Decoded} (decodes : Decodes raw decoded)

include decodes

theorem rFormat_correct :
    decoded.opcode.toNat * 2 ^ 26 + decoded.rs.toNat * 2 ^ 21 + decoded.rt.toNat * 2 ^ 16 +
      decoded.rd.toNat * 2 ^ 11 + decoded.shiftAmount.toNat * 2 ^ 6 + decoded.function.toNat =
        raw.toNat := by
  have bound := raw.isLt
  simp only [decodes.opcode, decodes.rs, decodes.rt, decodes.rd, decodes.shiftAmount,
    decodes.function, field]
  omega

theorem iFormat_iff :
    decoded.opcode.toNat * 2 ^ 26 + decoded.rs.toNat * 2 ^ 21 + decoded.rt.toNat * 2 ^ 16 +
      decoded.immediate.toNat = raw.toNat ↔ field raw 12 4 = 0 := by
  have bound := raw.isLt
  simp only [decodes.opcode, decodes.rs, decodes.rt, decodes.immediate, field]
  omega

theorem offset_iff : decoded.offset = decoded.immediate ↔ decoded.offset.toNat = field raw 0 12 := by
  rw [BitVec.toNat_eq, decodes.immediate]

variable (whole : decoded.target = raw)

include whole

theorem inRange_iff : decoded.InRange ↔ field raw 26 6 = 0 := by
  have bound := raw.isLt
  constructor
  · intro inRange
    have small := inRange.target
    rw [whole] at small
    simp only [field]
    omega
  · intro zero
    refine ⟨?_, ?_, ?_, ?_, ?_, ?_, ?_⟩
    · exact decodes.opcode ▸ field_lt raw 26 6
    · exact decodes.rs ▸ field_lt raw 21 5
    · exact decodes.rt ▸ field_lt raw 16 5
    · exact decodes.rd ▸ field_lt raw 11 5
    · exact decodes.shiftAmount ▸ field_lt raw 6 5
    · exact decodes.function ▸ field_lt raw 0 6
    · rw [whole]
      simp only [field] at zero
      omega

theorem jFormat_iff :
    decoded.opcode.toNat * 2 ^ 26 + decoded.target.toNat = raw.toNat ↔ field raw 26 6 = 0 := by
  rw [decodes.opcode, whole]
  omega

theorem lossless_iff :
    Lossless raw decoded ↔
      field raw 26 6 = 0 ∧ field raw 12 4 = 0 ∧ decoded.offset.toNat = field raw 0 12 := by
  constructor
  · intro lossless
    exact ⟨(inRange_iff decodes whole).mp lossless.inRange, (iFormat_iff decodes).mp lossless.iFormat,
      (offset_iff decodes).mp lossless.offset⟩
  · intro ⟨opcode, immediate, offset⟩
    exact
      { inRange := (inRange_iff decodes whole).mpr opcode
        rFormat := rFormat_correct decodes
        iFormat := (iFormat_iff decodes).mpr immediate
        offset := (offset_iff decodes).mpr offset
        jFormat := (jFormat_iff decodes whole).mpr opcode }

end Forward

section Converse

variable {decoded : Decoded}

theorem rFormat_readBack (fields : RFormat) (decodes : Decodes fields.word decoded) :
    fields.ReadBack decoded := by
  obtain ⟨⟨opcode, opcodeBound⟩, ⟨rs, rsBound⟩, ⟨rt, rtBound⟩, ⟨rd, rdBound⟩,
    ⟨shiftAmount, shiftBound⟩, ⟨function, functionBound⟩⟩ := fields
  constructor
  · rw [decodes.opcode]
    simp only [field, RFormat.word, BitVec.toNat_ofNat]
    omega
  · rw [decodes.rs]
    simp only [field, RFormat.word, BitVec.toNat_ofNat]
    omega
  · rw [decodes.rt]
    simp only [field, RFormat.word, BitVec.toNat_ofNat]
    omega
  · rw [decodes.rd]
    simp only [field, RFormat.word, BitVec.toNat_ofNat]
    omega
  · rw [decodes.shiftAmount]
    simp only [field, RFormat.word, BitVec.toNat_ofNat]
    omega
  · rw [decodes.function]
    simp only [field, RFormat.word, BitVec.toNat_ofNat]
    omega

theorem iFormat_readBack_iff (fields : IFormat) (decodes : Decodes fields.word decoded) :
    fields.ReadBack decoded ↔ (fields.immediate : Nat) < 2 ^ 12 := by
  obtain ⟨⟨opcode, opcodeBound⟩, ⟨rs, rsBound⟩, ⟨rt, rtBound⟩, ⟨immediate, immediateBound⟩⟩ := fields
  have kept : decoded.immediate.toNat = immediate % 2 ^ 12 := by
    rw [decodes.immediate]
    simp only [field, IFormat.word, BitVec.toNat_ofNat]
    omega
  constructor
  · intro readBack
    have same := readBack.immediate
    rw [kept] at same
    simp only at same ⊢
    omega
  · intro small
    refine ⟨?_, ?_, ?_, ?_⟩
    · rw [decodes.opcode]
      simp only [field, IFormat.word, BitVec.toNat_ofNat]
      omega
    · rw [decodes.rs]
      simp only [field, IFormat.word, BitVec.toNat_ofNat]
      omega
    · rw [decodes.rt]
      simp only [field, IFormat.word, BitVec.toNat_ofNat]
      omega
    · rw [kept]
      exact Nat.mod_eq_of_lt small

theorem jFormat_readBack_iff (fields : JFormat) (decodes : Decodes fields.word decoded)
    (whole : decoded.target = fields.word) : fields.ReadBack decoded ↔ fields.opcode = 0 := by
  obtain ⟨⟨opcode, opcodeBound⟩, ⟨target, targetBound⟩⟩ := fields
  have kept : decoded.target.toNat = opcode * 2 ^ 26 + target := by
    rw [whole]
    simp only [JFormat.word, BitVec.toNat_ofNat]
    omega
  rw [Fin.ext_iff]
  constructor
  · intro readBack
    have same := readBack.target
    rw [kept] at same
    simp only [Fin.val_zero] at same ⊢
    omega
  · intro zero
    simp only [Fin.val_zero] at zero
    subst zero
    refine ⟨?_, ?_⟩
    · rw [decodes.opcode]
      simp only [field, JFormat.word, BitVec.toNat_ofNat]
      omega
    · rw [kept]
      simp

end Converse

theorem decodeInstruction_same_iff (raw : BitVec 32) (scratch other : Decoded) :
    decodeInstruction raw (.ref scratch) = decodeInstruction raw (.ref other) ↔
      scratch.offset = other.offset := by
  simp [decodeInstruction]

/-- What decoding keeps of a word: the R-format always, the other two while the bits their masks get
wrong are zero. The output depends on the word and on the `offset` it held before. -/
theorem decodeInstruction_formats (raw : BitVec 32) (rFields : RFormat) (iFields : IFormat)
    (jFields : JFormat) (scratch other : Decoded) :
    (∃ decoded, decodeInstruction raw (.ref scratch) = some (.ref decoded) ∧
      (Lossless raw decoded ↔
        field raw 26 6 = 0 ∧ field raw 12 4 = 0 ∧ scratch.offset.toNat = field raw 0 12)) ∧
    (∃ decoded, decodeInstruction rFields.word (.ref scratch) = some (.ref decoded) ∧
      rFields.ReadBack decoded) ∧
    (∃ decoded, decodeInstruction iFields.word (.ref scratch) = some (.ref decoded) ∧
      (iFields.ReadBack decoded ↔ (iFields.immediate : Nat) < 2 ^ 12)) ∧
    (∃ decoded, decodeInstruction jFields.word (.ref scratch) = some (.ref decoded) ∧
      (jFields.ReadBack decoded ↔ jFields.opcode = 0)) ∧
    (decodeInstruction raw (.ref scratch) = decodeInstruction raw (.ref other) ↔
      scratch.offset = other.offset) := by
  refine ⟨?_, ?_, ?_, ?_, decodeInstruction_same_iff raw scratch other⟩
  · obtain ⟨decoded, output, decodes, whole, kept⟩ := decodeInstruction_kept raw scratch
    exact ⟨decoded, output, kept ▸ lossless_iff decodes whole⟩
  · obtain ⟨decoded, output, decodes, -⟩ := decodeInstruction_kept rFields.word scratch
    exact ⟨decoded, output, rFormat_readBack rFields decodes⟩
  · obtain ⟨decoded, output, decodes, -⟩ := decodeInstruction_kept iFields.word scratch
    exact ⟨decoded, output, iFormat_readBack_iff iFields decodes⟩
  · obtain ⟨decoded, output, decodes, whole, -⟩ := decodeInstruction_kept jFields.word scratch
    exact ⟨decoded, output, jFormat_readBack_iff jFields decodes whole⟩

-- ADDIU r1, r0, 0x1000 loses its immediate, the jump J 0 has an opcode in its target, and a second
-- decode of one word into another structure gives another result.
theorem decodeInstruction_loses :
    (∃ decoded, decodeInstruction 0x24011000 (.ref default) = some (.ref decoded) ∧
      decoded.immediate = 0 ∧ decoded.target = 0x24011000 ∧ ¬ Lossless 0x24011000 decoded) ∧
    (∃ decoded, decodeInstruction 0x08000000 (.ref default) = some (.ref decoded) ∧
      2 ^ 26 ≤ decoded.target.toNat) ∧
    ¬ ∀ raw scratch other,
      decodeInstruction raw (.ref scratch) = decodeInstruction raw (.ref other) := by
  refine ⟨⟨_, rfl, rfl, rfl, ?_⟩, ⟨_, rfl, by decide⟩, ?_⟩
  · intro lossless
    have bounded := lossless.inRange.target
    exact absurd bounded (by decide)
  · intro pure
    have same := (decodeInstruction_same_iff 0 default { (default : Decoded) with offset := 1 }).mp
      (pure _ _ _)
    exact absurd same (by decide)

end Mips64
