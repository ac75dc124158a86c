import Mips64Emulator.Core.Types
import Mips64Emulator.Shared.BitFields

set_option autoImplicit false

namespace Mips64

structure Decoded where
  raw : BitVec 32
  opcode : BitVec 8
  rs : BitVec 8
  rt : BitVec 8
  rd : BitVec 8
  shiftAmount : BitVec 8
  function : BitVec 8
  immediate : BitVec 16
  offset : BitVec 16
  target : BitVec 32
  deriving DecidableEq, Repr, Inhabited

def opcodeSpecial : BitVec 8 := 0x00
-- `decode.h` has no `MIPS64_OPCODE_DADDIU`; this is the architectural encoding.
def opcodeDaddiu : BitVec 8 := 0x19

def functDaddu : BitVec 8 := 0x2D

/-- Every field of `*out_instruction` is written except `offset`, which keeps what it held. -/
def decodeInstruction (raw : BitVec 32) (outInstruction : Ptr Decoded) : Option (Ptr Decoded) :=
  match outInstruction with
  | .null => none
  | .ref out =>
    some (.ref
      { out with
        raw := raw
        opcode := (raw >>> 26).setWidth 8 &&& 0x3F
        rs := (raw >>> 21).setWidth 8 &&& 0x1F
        rt := (raw >>> 16).setWidth 8 &&& 0x1F
        rd := (raw >>> 11).setWidth 8 &&& 0x1F
        shiftAmount := (raw >>> 6).setWidth 8 &&& 0x1F
        function := (raw &&& 0x3F).setWidth 8
        immediate := (raw &&& 0xFFF).setWidth 16
        target := (raw.setWidth 64 &&& 0x03FFFFFFFF).setWidth 32 })

def field (raw : BitVec 32) (low width : Nat) : Nat := raw.toNat / 2 ^ low % 2 ^ width

theorem field_lt (raw : BitVec 32) (low width : Nat) : field raw low width < 2 ^ width :=
  Nat.mod_lt _ (Nat.two_pow_pos width)

structure Decodes (word : BitVec 32) (decoded : Decoded) : Prop where
  raw : decoded.raw = word
  opcode : decoded.opcode.toNat = field word 26 6
  rs : decoded.rs.toNat = field word 21 5
  rt : decoded.rt.toNat = field word 16 5
  rd : decoded.rd.toNat = field word 11 5
  shiftAmount : decoded.shiftAmount.toNat = field word 6 5
  function : decoded.function.toNat = field word 0 6
  -- Twelve bits, although the instruction format has sixteen.
  immediate : decoded.immediate.toNat = field word 0 12

theorem decodeInstruction_correct (raw : BitVec 32) (scratch : Decoded) :
    ∃ decoded, decodeInstruction raw (.ref scratch) = some (.ref decoded) ∧
      Decodes raw decoded := by
  refine ⟨_, rfl, ?_⟩
  constructor
  · rfl
  · exact BitFields.toNat_shift_mask raw 8 26 6 (by decide)
  · exact BitFields.toNat_shift_mask raw 8 21 5 (by decide)
  · exact BitFields.toNat_shift_mask raw 8 16 5 (by decide)
  · exact BitFields.toNat_shift_mask raw 8 11 5 (by decide)
  · exact BitFields.toNat_shift_mask raw 8 6 5 (by decide)
  · have masked := BitFields.toNat_and_mask raw 6 (by decide)
    have narrow := field_lt raw 0 6
    simp only [field, Nat.pow_zero, Nat.div_one] at narrow ⊢
    rw [BitVec.toNat_setWidth, show (0x3F : BitVec 32) = BitVec.ofNat 32 (2 ^ 6 - 1) from rfl,
      masked, Nat.mod_eq_of_lt (by omega)]
  · have masked := BitFields.toNat_and_mask raw 12 (by decide)
    have narrow := field_lt raw 0 12
    simp only [field, Nat.pow_zero, Nat.div_one] at narrow ⊢
    rw [BitVec.toNat_setWidth, show (0xFFF : BitVec 32) = BitVec.ofNat 32 (2 ^ 12 - 1) from rfl,
      masked, Nat.mod_eq_of_lt (by omega)]

end Mips64
