import Mips64Emulator.X86.Format

set_option autoImplicit false

namespace X86

theorem Rex.byte_ofByte : ∀ byte : Byte, isRex byte = true → (Rex.ofByte byte).byte = byte := by
  decide

@[simp] theorem ModRm.byte_ofByte : ∀ byte : Byte, (ModRm.ofByte byte).byte = byte := by
  decide

@[simp] theorem Sib.byte_ofByte : ∀ byte : Byte, (Sib.ofByte byte).byte = byte := by
  decide

theorem isEscape_iff (byte : Byte) : isEscape byte = true ↔ byte = 0x0F := by
  simp [isEscape]

theorem takeIf_sound {accepts : Byte → Bool} {bytes rest : List Byte} {taken : Option Byte}
    (took : takeIf accepts bytes = (taken, rest)) :
    bytes = taken.toList ++ rest ∧ ∀ byte ∈ taken, accepts byte = true := by
  cases bytes with
  | nil =>
    simp only [takeIf, Prod.mk.injEq] at took
    simp [← took.1, ← took.2]
  | cons byte tail =>
    by_cases accepted : accepts byte = true
    · simp only [takeIf, accepted, if_true, Prod.mk.injEq] at took
      simp [← took.1, ← took.2, accepted]
    · simp only [takeIf, accepted, Bool.false_eq_true, if_false, Prod.mk.injEq] at took
      simp [← took.1, ← took.2]

theorem takeWhen_sound {wanted : Bool} {bytes rest : List Byte} {taken : Option Byte}
    (took : takeWhen wanted bytes = some (taken, rest)) :
    bytes = taken.toList ++ rest ∧ taken.isSome = wanted := by
  cases wanted with
  | false =>
    simp only [takeWhen, Bool.false_eq_true, if_false, Option.some.injEq, Prod.mk.injEq] at took
    simp [← took.1, ← took.2]
  | true =>
    cases bytes with
    | nil => simp [takeWhen] at took
    | cons byte tail =>
      simp only [takeWhen, if_true, List.head?_cons, List.tail_cons, Option.map_some,
        Option.some.injEq, Prod.mk.injEq] at took
      simp [← took.1, ← took.2]

theorem takeCount_sound {count : Nat} {bytes taken rest : List Byte}
    (took : takeCount count bytes = some (taken, rest)) :
    bytes = taken ++ rest ∧ taken.length = count := by
  unfold takeCount at took
  split at took
  next enough =>
    simp only [Option.some.injEq, Prod.mk.injEq] at took
    rw [← took.1, ← took.2]
    exact ⟨(List.take_append_drop count bytes).symm, List.length_take_of_le enough⟩
  next => cases took

/-- Decoding loses nothing: it returns a well-formed instruction and the bytes behind it. -/
theorem decode_sound {bytes rest : List Byte} {encoded : Encoded}
    (decoded : decode bytes = some (encoded, rest)) :
    encoded.WellFormed ∧ bytes = encoded.bytes ++ rest := by
  unfold decode at decoded
  rcases legacyTaken : takeIf isLegacy bytes with ⟨legacy, bytes1⟩
  rcases rexTaken : takeIf isRex bytes1 with ⟨rex, bytes2⟩
  rcases escapeTaken : takeIf isEscape bytes2 with ⟨escape, bytes3⟩
  simp only [legacyTaken, rexTaken, escapeTaken, bind, Option.bind_eq_some_iff,
    Option.map_eq_some_iff, Prod.exists, Option.some.injEq, Prod.mk.injEq] at decoded
  obtain ⟨_, bytes4, ⟨opcode, opcodeTaken, rfl, rfl⟩, form, found, modrm, bytes5, modrmTaken, sib,
    bytes6, sibTaken, displacement, bytes7, displacementTaken, immediate, bytes8, immediateTaken,
    rfl, rfl⟩ := decoded
  obtain ⟨legacyBytes, isLegacyByte⟩ := takeIf_sound legacyTaken
  obtain ⟨rexBytes, isRexByte⟩ := takeIf_sound rexTaken
  obtain ⟨escapeBytes, isEscapeByte⟩ := takeIf_sound escapeTaken
  obtain ⟨modrmBytes, hasModRm⟩ := takeWhen_sound modrmTaken
  obtain ⟨sibBytes, hasSib⟩ := takeWhen_sound sibTaken
  obtain ⟨displacementBytes, displacementLength⟩ := takeCount_sound displacementTaken
  obtain ⟨immediateBytes, immediateLength⟩ := takeCount_sound immediateTaken
  obtain ⟨tail, opcodeBytes⟩ := List.head?_eq_some_iff.mp opcodeTaken
  rw [opcodeBytes, List.tail_cons] at modrmBytes
  constructor
  · exact
      { legacy := isLegacyByte
        opcode := ⟨form, found, by simpa using hasModRm, immediateLength⟩
        sib := by simpa using hasSib
        displacement := displacementLength }
  · have rexBack : (rex.map Rex.ofByte).map Rex.byte = rex := by
      cases rex with
      | none => rfl
      | some byte => exact congrArg some (Rex.byte_ofByte byte (isRexByte byte rfl))
    have modrmBack : (modrm.map ModRm.ofByte).map ModRm.byte = modrm := by
      cases modrm <;> simp
    have sibBack : (sib.map Sib.ofByte).map Sib.byte = sib := by
      cases sib <;> simp
    have escapeBack : (if escape.isSome = true then some 0x0F else none) = escape := by
      cases escape with
      | none => rfl
      | some byte => exact congrArg some ((isEscape_iff byte).mp (isEscapeByte byte rfl)).symm
    rw [legacyBytes, rexBytes, escapeBytes, opcodeBytes, modrmBytes, sibBytes, displacementBytes,
      immediateBytes]
    simp only [Encoded.bytes, Encoded.body, Encoded.escapeByte, rexBack, modrmBack, sibBack,
      escapeBack, List.append_assoc, List.cons_append]

theorem decode_append {bytes rest : List Byte} {encoded : Encoded}
    (decoded : decode bytes = some (encoded, rest)) (more : List Byte) :
    decode (bytes ++ more) = some (encoded, rest ++ more) := by
  obtain ⟨wellFormed, taken⟩ := decode_sound decoded
  rw [taken, List.append_assoc, Encoded.decode_bytes wellFormed]

theorem decode_unfinished {encoded : Encoded} (wellFormed : encoded.WellFormed)
    {bytes : List Byte} (byte : Byte) (more : List Byte)
    (unfinished : encoded.bytes = bytes ++ byte :: more) : decode bytes = none := by
  cases decoded : decode bytes with
  | none => rfl
  | some result =>
    have longer := decode_append decoded (byte :: more)
    have whole := Encoded.decode_bytes wellFormed []
    rw [List.append_nil, unfinished, longer] at whole
    have behind := congrArg Prod.snd (Option.some.inj whole)
    simp at behind

theorem sweepWithin_sound (fuel : Nat) (bytes : List Byte) (decoded : List Encoded)
    (swept : sweepWithin fuel bytes = some decoded) :
    (∀ encoded ∈ decoded, encoded.WellFormed) ∧ decoded.flatMap Encoded.bytes = bytes := by
  induction fuel generalizing bytes decoded with
  | zero =>
    cases bytes with
    | nil =>
      obtain rfl := Option.some.inj swept
      simp
    | cons byte tail => cases swept
  | succ fuel ih =>
    cases bytes with
    | nil =>
      obtain rfl := Option.some.inj swept
      simp
    | cons byte tail =>
      simp only [sweepWithin, bind, Option.bind_eq_some_iff, Prod.exists,
        Option.some.injEq] at swept
      obtain ⟨encoded, rest, first, others, later, rfl⟩ := swept
      obtain ⟨wellFormed, taken⟩ := decode_sound first
      obtain ⟨othersWellFormed, othersBytes⟩ := ih rest others later
      constructor
      · simpa using ⟨wellFormed, othersWellFormed⟩
      · rw [List.flatMap_cons, othersBytes, taken]

theorem sweep_unfinished {bytes : List Byte} (unfinished : decode bytes = none)
    (nonempty : bytes ≠ []) : sweep bytes = none := by
  cases bytes with
  | nil => exact absurd rfl nonempty
  | cons byte tail => simp only [sweep, List.length_cons, sweepWithin, unfinished, bind,
      Option.bind_none]

/-- The sweep of bytes laid end to end finds an instruction in the place of each piece exactly when
each piece is one. -/
theorem sweep_pieces (pieces : List (List Byte)) (decoded : List Encoded) :
    sweep pieces.flatten = some decoded ∧
        decoded.map (fun encoded => encoded.bytes.length) = pieces.map List.length ↔
      (∀ encoded ∈ decoded, encoded.WellFormed) ∧ decoded.map Encoded.bytes = pieces := by
  constructor
  · rintro ⟨swept, lengths⟩
    obtain ⟨wellFormed, whole⟩ := sweepWithin_sound _ _ _ swept
    refine ⟨wellFormed, List.eq_iff_flatten_eq.mpr ⟨?_, ?_⟩⟩
    · rwa [List.flatMap_def] at whole
    · rw [← lengths, List.map_map]
      rfl
  · rintro ⟨wellFormed, rfl⟩
    refine ⟨?_, by rw [List.map_map]; rfl⟩
    rw [← List.flatMap_def]
    exact sweep_bytes decoded wellFormed

end X86
