import Mips64Emulator.X86.DecodeSound
import Mips64Emulator.X86.Machine

set_option autoImplicit false

namespace X86

structure Reading where
  legacy : Option Byte
  escape : Bool
  opcode : Byte
  row : Option (BitVec 3)
  wide : Bool
  first : Option Operand
  second : Option Operand
  constant : Option (BitVec 64)
  deriving DecidableEq, Repr

def hasRow (escape : Bool) (opcode : Byte) : Bool :=
  !escape && [0x81, 0x83, 0xC1, 0xC7, 0xD1, 0xD3, 0xF7, 0xFF].contains opcode

def isSet (escape : Bool) (opcode : Byte) : Bool := escape && opcode.extractLsb' 4 4 = 0x9

-- Whether the operand in ModRM.reg is written first. 0F 11 is the store beside the load 0F 10.
def registerFirst (escape : Bool) (opcode : Byte) : Bool :=
  if escape then opcode ≠ 0x11 else opcode = 0x8B

def inOpcodeRow (escape : Bool) (opcode : Byte) : Bool := !escape && opcode.extractLsb' 4 4 = 0x5

namespace Encoded

def operands (encoded : Encoded) : Option Operand × Option Operand :=
  match encoded.modrm with
  | none =>
    if inOpcodeRow encoded.escape encoded.opcode then
      (some (.register
        (registerNumber (encoded.rexBit Rex.b) (encoded.opcode.extractLsb' 0 3))), none)
    else (none, none)
  | some modrm =>
    let rm := encoded.rmOperand modrm
    let reg := Operand.register (encoded.regOperand modrm)
    if hasRow encoded.escape encoded.opcode || isSet encoded.escape encoded.opcode then
      (some rm, none)
    else if registerFirst encoded.escape encoded.opcode then (some reg, some rm)
    else (some rm, some reg)

def reading (encoded : Encoded) : Reading :=
  { legacy := encoded.legacy
    escape := encoded.escape
    opcode :=
      if inOpcodeRow encoded.escape encoded.opcode then encoded.opcode &&& 0xF8
      else encoded.opcode
    row :=
      if hasRow encoded.escape encoded.opcode then encoded.modrm.map ModRm.reg else none
    wide := encoded.rexBit Rex.w
    first := encoded.operands.1
    second := encoded.operands.2
    constant := if encoded.immediate = [] then none else some (signedBytes encoded.immediate) }

end Encoded

section Stream

variable {Item : Type} (bytes : Item → List Byte) (meant : Item → Option Reading)

/-- The linear sweep of the items' bytes takes them all, splits them where the items meet and reports
for each item what was meant. -/
def SweepReads (items : List Item) : Prop :=
  ∃ decoded, sweep (items.flatMap bytes) = some decoded ∧
    decoded.map (fun encoded => encoded.bytes.length) =
      items.map (fun item => (bytes item).length) ∧
    decoded.map (fun encoded => some encoded.reading) = items.map meant

def Reads (item : Item) : Prop :=
  ∃ encoded : Encoded, encoded.WellFormed ∧ encoded.bytes = bytes item ∧
    some encoded.reading = meant item

variable {bytes meant}

theorem exists_decoded (items : List Item) :
    (∃ decoded : List Encoded, (∀ encoded ∈ decoded, encoded.WellFormed) ∧
        decoded.map Encoded.bytes = items.map bytes ∧
        decoded.map (fun encoded => some encoded.reading) = items.map meant) ↔
      ∀ item ∈ items, Reads bytes meant item := by
  induction items with
  | nil => simp
  | cons item rest ih =>
    rw [List.forall_mem_cons, ← ih]
    constructor
    · rintro ⟨decoded, wellFormed, pieces, readings⟩
      cases decoded with
      | nil => cases pieces
      | cons encoded others =>
        simp only [List.map_cons, List.cons.injEq] at pieces readings
        rw [List.forall_mem_cons] at wellFormed
        exact ⟨⟨encoded, wellFormed.1, pieces.1, readings.1⟩,
          others, wellFormed.2, pieces.2, readings.2⟩
    · rintro ⟨⟨encoded, isWellFormed, piece, reading⟩, others, wellFormed, pieces, readings⟩
      refine ⟨encoded :: others, ?_, ?_, ?_⟩
      · exact List.forall_mem_cons.mpr ⟨isWellFormed, wellFormed⟩
      · rw [List.map_cons, List.map_cons, piece, pieces]
      · rw [List.map_cons, List.map_cons, reading, readings]

theorem sweepReads_iff (items : List Item) :
    SweepReads bytes meant items ↔ ∀ item ∈ items, Reads bytes meant item := by
  have lengths : items.map (fun item => (bytes item).length) =
      (items.map bytes).map List.length := by
    rw [List.map_map]
    rfl
  rw [← exists_decoded, SweepReads, List.flatMap_def, lengths]
  apply exists_congr
  intro decoded
  rw [← and_assoc, sweep_pieces, and_assoc]

theorem reads_iff {item : Item} {encoded : Encoded} (wellFormed : encoded.WellFormed)
    (same : encoded.bytes = bytes item) :
    Reads bytes meant item ↔ some encoded.reading = meant item := by
  constructor
  · rintro ⟨other, otherWellFormed, otherSame, reading⟩
    have decoded := Encoded.decode_bytes wellFormed []
    rw [same, ← otherSame, Encoded.decode_bytes otherWellFormed] at decoded
    have equal : other = encoded := congrArg Prod.fst (Option.some.inj decoded)
    exact equal ▸ reading
  · intro reading
    exact ⟨encoded, wellFormed, same, reading⟩

theorem not_reads {item : Item} (unfinished : decode (bytes item) = none) :
    ¬ Reads bytes meant item := by
  rintro ⟨encoded, wellFormed, same, -⟩
  have decoded := Encoded.decode_bytes wellFormed []
  rw [List.append_nil, same, unfinished] at decoded
  cases decoded

end Stream

end X86
