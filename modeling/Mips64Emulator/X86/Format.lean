import Mathlib.Tactic.Basic

set_option autoImplicit false

/-!
# The byte format of x86-64 instructions

An instruction is an optional legacy byte, an optional REX byte, an opcode behind an optional escape,
and the ModRM, SIB, displacement and immediate bytes the opcode and ModRM ask for. The opcode maps
hold the integer and SSE instructions a small code generator needs; other opcodes do not decode.
-/

namespace X86

abbrev Byte := BitVec 8

structure Rex where
  w : Bool
  r : Bool
  x : Bool
  b : Bool
  deriving DecidableEq, Repr

namespace Rex

def byte (rex : Rex) : Byte :=
  0x4#4 ++ BitVec.ofBool rex.w ++ BitVec.ofBool rex.r ++ BitVec.ofBool rex.x ++ BitVec.ofBool rex.b

def ofByte (byte : Byte) : Rex :=
  { w := byte.getLsbD 3, r := byte.getLsbD 2, x := byte.getLsbD 1, b := byte.getLsbD 0 }

@[simp] theorem ofByte_byte (rex : Rex) : ofByte rex.byte = rex := by
  obtain ⟨w, r, x, b⟩ := rex
  revert w r x b
  decide

end Rex

structure ModRm where
  mod : BitVec 2
  reg : BitVec 3
  rm : BitVec 3
  deriving DecidableEq, Repr

namespace ModRm

def byte (modrm : ModRm) : Byte := modrm.mod ++ modrm.reg ++ modrm.rm

def ofByte (byte : Byte) : ModRm :=
  { mod := byte.extractLsb' 6 2, reg := byte.extractLsb' 3 3, rm := byte.extractLsb' 0 3 }

@[simp] theorem ofByte_byte (modrm : ModRm) : ofByte modrm.byte = modrm := by
  obtain ⟨mod, reg, rm⟩ := modrm
  revert mod reg rm
  decide

def needsSib (modrm : ModRm) : Bool := modrm.mod ≠ 3 && modrm.rm = 4

end ModRm

structure Sib where
  scale : BitVec 2
  index : BitVec 3
  base : BitVec 3
  deriving DecidableEq, Repr

namespace Sib

def byte (sib : Sib) : Byte := sib.scale ++ sib.index ++ sib.base

def ofByte (byte : Byte) : Sib :=
  { scale := byte.extractLsb' 6 2, index := byte.extractLsb' 3 3, base := byte.extractLsb' 0 3 }

@[simp] theorem ofByte_byte (sib : Sib) : ofByte sib.byte = sib := by
  obtain ⟨scale, index, base⟩ := sib
  revert scale index base
  decide

end Sib

-- Group 3 has an immediate in its TEST rows, 0 and 1, only.
inductive Immediate where
  | absent
  | byte
  | dword
  | dwordOfTest
  deriving DecidableEq, Repr

structure Form where
  modrm : Bool
  immediate : Immediate
  deriving DecidableEq, Repr

def oneByteForm (opcode : Byte) : Option Form :=
  if opcode ∈ [0x01, 0x09, 0x21, 0x29, 0x31, 0x39, 0x85, 0x89, 0x8B, 0xD1, 0xD3, 0xFF] then
    some { modrm := true, immediate := .absent }
  else if opcode ∈ [0x83, 0xC1] then some { modrm := true, immediate := .byte }
  else if opcode ∈ [0x81, 0xC7] then some { modrm := true, immediate := .dword }
  else if opcode = 0xF7 then some { modrm := true, immediate := .dwordOfTest }
  else if opcode ∈ [0xE8, 0xE9] then some { modrm := false, immediate := .dword }
  else if 0x50 ≤ opcode ∧ opcode ≤ 0x5F ∨ opcode ∈ [0x99, 0xC3] then
    some { modrm := false, immediate := .absent }
  else none

def escapedForm (opcode : Byte) : Option Form :=
  if opcode ∈ [0x10, 0x11, 0x2A, 0x2D, 0x2E, 0x51, 0x58, 0x59, 0x5C, 0x5D, 0x5E, 0x5F, 0xAF, 0xB6,
      0xEF] ∨ 0x90 ≤ opcode ∧ opcode ≤ 0x9F then
    some { modrm := true, immediate := .absent }
  else if opcode ∈ [0x84, 0x85] then some { modrm := false, immediate := .dword }
  else none

-- A legacy byte is known here only as a mandatory one of the escaped map.
def opcodeForm (legacy : Option Byte) (escape : Bool) (opcode : Byte) : Option Form :=
  if escape then escapedForm opcode
  else if legacy = none then oneByteForm opcode
  else none

def isLegacy (byte : Byte) : Bool := byte = 0x66 || byte = 0xF2 || byte = 0xF3

def isRex (byte : Byte) : Bool := byte.extractLsb' 4 4 = 0x4

def isEscape (byte : Byte) : Bool := byte = 0x0F

structure Encoded where
  legacy : Option Byte
  rex : Option Rex
  escape : Bool
  opcode : Byte
  modrm : Option ModRm
  sib : Option Sib
  displacement : List Byte
  immediate : List Byte
  deriving DecidableEq, Repr

def displacementLength (modrm : Option ModRm) (sib : Option Sib) : Nat :=
  match modrm with
  | none => 0
  | some modrm =>
    if modrm.mod = 1 then 1
    else if modrm.mod = 2 then 4
    else if modrm.mod = 0 ∧ modrm.rm = 5 then 4
    else if modrm.mod = 0 ∧ sib.any (fun sib => sib.base = 5) then 4
    else 0

def Immediate.length (immediate : Immediate) (modrm : Option ModRm) : Nat :=
  match immediate with
  | absent => 0
  | byte => 1
  | dword => 4
  | dwordOfTest => if modrm.any fun modrm => modrm.reg = 0 || modrm.reg = 1 then 4 else 0

namespace Encoded

def body (encoded : Encoded) : List Byte :=
  encoded.opcode :: ((encoded.modrm.map ModRm.byte).toList ++ ((encoded.sib.map Sib.byte).toList ++
    (encoded.displacement ++ encoded.immediate)))

def escapeByte (encoded : Encoded) : Option Byte := if encoded.escape then some 0x0F else none

def bytes (encoded : Encoded) : List Byte :=
  encoded.legacy.toList ++ ((encoded.rex.map Rex.byte).toList ++
    (encoded.escapeByte.toList ++ encoded.body))

structure WellFormed (encoded : Encoded) : Prop where
  legacy : ∀ byte ∈ encoded.legacy, isLegacy byte = true
  opcode : ∃ form, opcodeForm encoded.legacy encoded.escape encoded.opcode = some form ∧
    encoded.modrm.isSome = form.modrm ∧
    encoded.immediate.length = form.immediate.length encoded.modrm
  sib : encoded.sib.isSome = encoded.modrm.any ModRm.needsSib
  displacement : encoded.displacement.length = displacementLength encoded.modrm encoded.sib

end Encoded

def takeIf (accepts : Byte → Bool) : List Byte → Option Byte × List Byte
  | [] => (none, [])
  | byte :: rest => if accepts byte then (some byte, rest) else (none, byte :: rest)

def takeWhen (wanted : Bool) (bytes : List Byte) : Option (Option Byte × List Byte) :=
  if wanted then bytes.head?.map fun byte => (some byte, bytes.tail) else some (none, bytes)

def takeCount (count : Nat) (bytes : List Byte) : Option (List Byte × List Byte) :=
  if count ≤ bytes.length then some (bytes.take count, bytes.drop count) else none

def decode (bytes : List Byte) : Option (Encoded × List Byte) := do
  let (legacy, bytes) := takeIf isLegacy bytes
  let (rex, bytes) := takeIf isRex bytes
  let (escape, bytes) := takeIf isEscape bytes
  let (opcode, bytes) ← bytes.head?.map fun opcode => (opcode, bytes.tail)
  let form ← opcodeForm legacy escape.isSome opcode
  let (modrm, bytes) ← takeWhen form.modrm bytes
  let modrm := modrm.map ModRm.ofByte
  let (sib, bytes) ← takeWhen (modrm.any ModRm.needsSib) bytes
  let sib := sib.map Sib.ofByte
  let (displacement, bytes) ← takeCount (displacementLength modrm sib) bytes
  let (immediate, bytes) ← takeCount (form.immediate.length modrm) bytes
  some ({ legacy := legacy, rex := rex.map Rex.ofByte, escape := escape.isSome, opcode := opcode,
          modrm := modrm, sib := sib, displacement := displacement, immediate := immediate }, bytes)

theorem takeIf_correct (accepts : Byte → Bool) (taken : Option Byte) (rest : List Byte)
    (accepted : ∀ byte ∈ taken, accepts byte = true)
    (refused : ∀ byte ∈ rest.head?, accepts byte = false) :
    takeIf accepts (taken.toList ++ rest) = (taken, rest) := by
  cases taken with
  | some byte => simp [takeIf, accepted byte rfl]
  | none =>
    cases rest with
    | nil => rfl
    | cons byte rest => simp [takeIf, refused byte rfl]

theorem takeWhen_correct (taken : Option Byte) (rest : List Byte) :
    takeWhen taken.isSome (taken.toList ++ rest) = some (taken, rest) := by
  cases taken <;> rfl

theorem takeCount_correct (taken rest : List Byte) :
    takeCount taken.length (taken ++ rest) = some (taken, rest) := by
  simp [takeCount]

-- No opcode of the two maps is a legacy, a REX or an escape byte.
theorem oneByteForm_starts : ∀ opcode : Byte, (oneByteForm opcode).isSome = true →
    isLegacy opcode = false ∧ isRex opcode = false ∧ isEscape opcode = false := by
  decide

theorem rexByte_starts (rex : Rex) :
    isLegacy rex.byte = false ∧ isRex rex.byte = true := by
  obtain ⟨w, r, x, b⟩ := rex
  revert w r x b
  decide

namespace Encoded

variable {encoded : Encoded} (wellFormed : encoded.WellFormed)

include wellFormed

theorem opcode_starts (plain : encoded.escape = false) :
    isLegacy encoded.opcode = false ∧ isRex encoded.opcode = false ∧
      isEscape encoded.opcode = false := by
  obtain ⟨form, found, -⟩ := wellFormed.opcode
  apply oneByteForm_starts
  simp only [opcodeForm, plain, Bool.false_eq_true, if_false] at found
  split at found
  · rw [found]
    rfl
  · cases found

theorem escape_starts (rest : List Byte) :
    ∀ byte ∈ (encoded.escapeByte.toList ++ (encoded.body ++ rest)).head?,
      isLegacy byte = false ∧ isRex byte = false := by
  intro byte first
  by_cases escape : encoded.escape = true
  · have isEscaped : byte = 0x0F := by simpa [escapeByte, escape, eq_comm] using first
    subst isEscaped
    decide
  · have isOpcode : byte = encoded.opcode := by simpa [escapeByte, escape, body, eq_comm] using first
    subst isOpcode
    obtain ⟨notLegacy, notRex, -⟩ := opcode_starts wellFormed (eq_false_of_ne_true escape)
    exact ⟨notLegacy, notRex⟩

theorem takeLegacy_correct (rest : List Byte) :
    takeIf isLegacy (encoded.bytes ++ rest) =
      (encoded.legacy, (encoded.rex.map Rex.byte).toList ++
        (encoded.escapeByte.toList ++ (encoded.body ++ rest))) := by
  simp only [bytes, List.append_assoc]
  apply takeIf_correct _ _ _ wellFormed.legacy
  intro byte first
  cases rex : encoded.rex with
  | none =>
    rw [rex] at first
    exact (escape_starts wellFormed rest byte first).1
  | some rex' =>
    have isRexByte : byte = rex'.byte := by simpa [rex, eq_comm] using first
    exact isRexByte ▸ (rexByte_starts rex').1

theorem takeRex_correct (rest : List Byte) :
    takeIf isRex ((encoded.rex.map Rex.byte).toList ++
        (encoded.escapeByte.toList ++ (encoded.body ++ rest))) =
      (encoded.rex.map Rex.byte, encoded.escapeByte.toList ++ (encoded.body ++ rest)) := by
  apply takeIf_correct
  · intro byte taken
    obtain ⟨rex, -, rfl⟩ := Option.map_eq_some_iff.mp taken
    exact (rexByte_starts rex).2
  · intro byte first
    exact (escape_starts wellFormed rest byte first).2

theorem takeEscape_correct (rest : List Byte) :
    takeIf isEscape (encoded.escapeByte.toList ++ (encoded.body ++ rest)) =
      (encoded.escapeByte, encoded.body ++ rest) := by
  by_cases escape : encoded.escape = true
  · simp [takeIf, escapeByte, escape, isEscape]
  · have plain := eq_false_of_ne_true escape
    have notEscape := (opcode_starts wellFormed plain).2.2
    simp [takeIf, escapeByte, plain, body, notEscape]

/-- Decoding undoes encoding and leaves what follows. -/
theorem decode_bytes (rest : List Byte) :
    decode (encoded.bytes ++ rest) = some (encoded, rest) := by
  obtain ⟨form, found, modrm, immediate⟩ := wellFormed.opcode
  have isEscaped : encoded.escapeByte.isSome = encoded.escape := by
    cases escape : encoded.escape <;> simp [escapeByte, escape]
  have rexBack : (encoded.rex.map Rex.byte).map Rex.ofByte = encoded.rex := by
    cases encoded.rex <;> simp
  have modrmBack : (encoded.modrm.map ModRm.byte).map ModRm.ofByte = encoded.modrm := by
    cases encoded.modrm <;> simp
  have sibBack : (encoded.sib.map Sib.byte).map Sib.ofByte = encoded.sib := by
    cases encoded.sib <;> simp
  have takeModRm := takeWhen_correct (encoded.modrm.map ModRm.byte)
    ((encoded.sib.map Sib.byte).toList ++ (encoded.displacement ++ (encoded.immediate ++ rest)))
  have takeSib := takeWhen_correct (encoded.sib.map Sib.byte)
    (encoded.displacement ++ (encoded.immediate ++ rest))
  have takeDisplacement := takeCount_correct encoded.displacement (encoded.immediate ++ rest)
  have takeImmediate := takeCount_correct encoded.immediate rest
  rw [Option.isSome_map, modrm] at takeModRm
  rw [Option.isSome_map, wellFormed.sib] at takeSib
  rw [wellFormed.displacement] at takeDisplacement
  rw [immediate] at takeImmediate
  simp only [decode, takeLegacy_correct wellFormed, takeRex_correct wellFormed,
    takeEscape_correct wellFormed, isEscaped, rexBack]
  simp only [body, List.cons_append, List.append_assoc, List.head?_cons, List.tail_cons,
    Option.map_some, bind, Option.bind_some, found, takeModRm, modrmBack, takeSib, sibBack,
    takeDisplacement, takeImmediate]

omit wellFormed in
theorem bytes_ne_nil : encoded.bytes ≠ [] := by
  simp [bytes, body]

end Encoded

def sweepWithin : Nat → List Byte → Option (List Encoded)
  | _, [] => some []
  | 0, _ :: _ => none
  | fuel + 1, bytes => do
    let (encoded, rest) ← decode bytes
    let others ← sweepWithin fuel rest
    some (encoded :: others)

/-- Linear sweep: the instructions a byte string is made of. An instruction has at least one byte, so
the length of the string is fuel enough. -/
def sweep (bytes : List Byte) : Option (List Encoded) := sweepWithin bytes.length bytes

theorem sweepWithin_bytes (instructions : List Encoded)
    (wellFormed : ∀ encoded ∈ instructions, encoded.WellFormed) (fuel : Nat)
    (enough : instructions.length ≤ fuel) :
    sweepWithin fuel (instructions.flatMap Encoded.bytes) = some instructions := by
  induction instructions generalizing fuel with
  | nil => cases fuel <;> rfl
  | cons encoded rest ih =>
    cases fuel with
    | zero => simp at enough
    | succ fuel =>
      have decoded := Encoded.decode_bytes (wellFormed encoded (by simp))
        (rest.flatMap Encoded.bytes)
      have later := ih (fun other member => wellFormed other (List.mem_cons_of_mem _ member)) fuel
        (by simpa using enough)
      obtain ⟨byte, tail, nonempty⟩ : ∃ byte tail,
          encoded.bytes ++ rest.flatMap Encoded.bytes = byte :: tail :=
        List.exists_cons_of_ne_nil (by simp [Encoded.bytes_ne_nil])
      rw [nonempty] at decoded
      simp only [List.flatMap_cons, nonempty, sweepWithin, decoded, bind, Option.bind_some, later]

theorem sweep_bytes (instructions : List Encoded)
    (wellFormed : ∀ encoded ∈ instructions, encoded.WellFormed) :
    sweep (instructions.flatMap Encoded.bytes) = some instructions := by
  apply sweepWithin_bytes instructions wellFormed
  induction instructions with
  | nil => exact Nat.zero_le _
  | cons encoded rest ih =>
    have others := ih fun other member => wellFormed other (List.mem_cons_of_mem _ member)
    have positive := List.length_pos_iff.mpr encoded.bytes_ne_nil
    rw [List.length_cons, List.flatMap_cons, List.length_append]
    omega

end X86
