import Mips64Emulator.Jit.MacroUses
import Mips64Emulator.Jit.MemoryForms
import Mips64Emulator.Jit.SavedRegister
import Mips64Emulator.Shared.BitFields
import Mips64Emulator.X86.Reading

set_option autoImplicit false

namespace Jit

open X86

namespace EncoderUse

def base? : EncoderUse → Option (BitVec 32)
  | rmf _ dest _ _ | rmf4 _ dest _ _ => some dest
  | ri32 _ dest _ _ mod _ => if mod = 2 then some dest else none
  | _ => none

/-- Registers of the machine for operands and another base than the stack pointer. `jz` and `jnz`,
which stand for two instructions, are left out. -/
structure Passed (use : EncoderUse) : Prop where
  single : use.encoded.length = 1
  registers : ∀ number ∈ use.registers, ∃ register : Register, number = intOfRegister register
  base : ∀ number ∈ use.base?, number ≠ jitSp

structure AsMade (use : EncoderUse) : Prop extends use.Passed where
  known : use.Known

def registerOfInt (number : BitVec 32) : Register := ⟨number.toNat % 16, Nat.mod_lt _ (by decide)⟩

def registerOperand (number : BitVec 32) : Operand := .register (registerOfInt number)

def memoryOperand (base off : BitVec 32) : Operand :=
  .memory { base := some (registerOfInt base), index := none, displacement := off.signExtend 64
            ripRelative := false }

def plainReading (opcode : Byte) : Reading :=
  { legacy := none, escape := false, opcode := opcode, row := none, wide := false, first := none
    second := none, constant := none }

/-- What a macro use is meant to say. `jz` and `jnz` stand for two instructions each. -/
def meant : EncoderUse → Option Reading
  | opi32 opcode im => some { plainReading opcode with constant := some (im.signExtend 64) }
  | op0 opcode dest src =>
    let reading := { plainReading opcode with escape := true }
    if opcode = 0xB6 then
      some { reading with first := registerOperand dest, second := registerOperand src }
    else some { reading with first := registerOperand src }
  | rr opcode dest src op64 =>
    let reading := { plainReading opcode with wide := op64, first := registerOperand dest }
    if hasRow false opcode then some { reading with row := src.setWidth 3 }
    else some { reading with second := registerOperand src }
  | rr0 opcode dest src _ op64 =>
    -- The macros over this one pass their operands the other way round.
    some { plainReading opcode with
           escape := true, wide := op64, first := registerOperand src
           second := registerOperand dest }
  | rrf legacy opcode dest src op64 =>
    some { plainReading opcode with
           legacy := legacy, escape := true, wide := op64, first := registerOperand dest
           second := registerOperand src }
  | rmf opcode dest src off =>
    some (access { plainReading opcode with legacy := some 0xF3, escape := true } (opcode = 0x11)
      dest src off)
  | rmf4 opcode dest src off =>
    some (access { plainReading opcode with escape := true } (opcode = 0x11) dest src off)
  | ri8 opcode dest src im _ op64 =>
    some { plainReading opcode with
           row := src.setWidth 3, wide := op64, first := registerOperand dest
           constant := im.signExtend 64 }
  | ri32 opcode dest src im mod op64 =>
    if mod = 2 then
      some (access { plainReading opcode with wide := op64 } (opcode = 0x89) dest src im)
    else
      some { plainReading opcode with
             row := src.setWidth 3, wide := op64, first := registerOperand dest
             constant := im.signExtend 64 }
  | jz _ | jnz _ => none
  | push src => some { plainReading 0x50 with first := registerOperand src }
  | pop src => some { plainReading 0x58 with first := registerOperand src }
  | cdq => some (plainReading 0x99)
  | ret => some (plainReading 0xC3)
where
  access (reading : Reading) (store : Bool) (base register off : BitVec 32) : Reading :=
    if store then
      { reading with first := memoryOperand base off, second := registerOperand register }
    else { reading with first := registerOperand register, second := memoryOperand base off }

/-- R12 is no base without a SIB byte, and `RI8` keeps a constant of eight signed bits. -/
def Readable : EncoderUse → Prop
  | rmf _ dest _ _ | rmf4 _ dest _ _ => dest ≠ intOfRegister r12
  | ri32 _ dest _ _ mod _ => mod = 2 → dest ≠ intOfRegister r12
  | ri8 _ _ _ im _ _ => (im.setWidth 8).signExtend 32 = im
  | _ => True

@[simp] theorem registerOfInt_intOfRegister (register : Register) :
    registerOfInt (intOfRegister register) = register := by
  revert register
  decide

theorem bytes_of_encoded {use : EncoderUse} {encoded : Encoded} (stands : use.encoded = [encoded]) :
    encoded.bytes = use.bytes := by
  rw [bytes_correct, stands, List.flatMap_singleton]

def directForm (legacy : Option Byte) (escape : Bool) (opcode : Byte) (dest src : BitVec 32)
    (wide : Bool) (immediate : List Byte) : Encoded :=
  { bare opcode with
    legacy := legacy, rex := some (rexOf dest src wide), escape := escape
    modrm := some (modrmOf dest src 3), immediate := immediate }

structure Classified (legacy : Option Byte) (escape : Bool) (opcode : Byte) (immediate : Immediate)
    (row first : Bool) : Prop where
  accepted : legacy.all isLegacy = true
  found : opcodeForm legacy escape opcode = some { modrm := true, immediate := immediate }
  row : hasRow escape opcode = row
  noSet : isSet escape opcode = false
  notInOpcode : inOpcodeRow escape opcode = false
  first : registerFirst escape opcode = first

instance (legacy : Option Byte) (escape : Bool) (opcode : Byte) (immediate : Immediate)
    (row first : Bool) : Decidable (Classified legacy escape opcode immediate row first) :=
  decidable_of_iff (legacy.all isLegacy = true ∧
      opcodeForm legacy escape opcode = some { modrm := true, immediate := immediate } ∧
      hasRow escape opcode = row ∧ isSet escape opcode = false ∧
      inOpcodeRow escape opcode = false ∧ registerFirst escape opcode = first)
    ⟨fun ⟨accepted, found, row, noSet, notInOpcode, first⟩ =>
        ⟨accepted, found, row, noSet, notInOpcode, first⟩,
      fun classified => ⟨classified.accepted, classified.found, classified.row, classified.noSet,
        classified.notInOpcode, classified.first⟩⟩

section Forms

variable {use : EncoderUse} {legacy : Option Byte} {escape : Bool} {opcode : Byte}
  {immediate : Immediate} {row first : Bool}
  (classified : Classified legacy escape opcode immediate row first) (wide : Bool)

include classified

theorem Classified.isLegacy_of_mem : ∀ byte ∈ legacy, isLegacy byte = true := by
  have accepted := classified.accepted
  cases legacy with
  | none => simp
  | some byte => simpa using accepted

theorem directForm_wellFormed (dest src : BitVec 32) (constant : List Byte)
    (length : constant.length = immediate.length (some (modrmOf dest src 3))) :
    (directForm legacy escape opcode dest src wide constant).WellFormed :=
  mandatory_wellFormed legacy opcode _ escape dest src constant _ classified.isLegacy_of_mem
    classified.found rfl length

theorem directForm_reading (dest : Register) (src : BitVec 32) (constant : List Byte) :
    (directForm legacy escape opcode (intOfRegister dest) src wide constant).reading =
      let register := Operand.register (registerNumber (BitVec.slt 7#32 src) (src.setWidth 3))
      let rm := Operand.register dest
      { legacy := legacy, escape := escape, opcode := opcode
        row := if row then some (src.setWidth 3) else none, wide := wide
        first := if !row && first then register else rm
        second := if row then none else some (if first then rm else register)
        constant := if constant = [] then none else some (signedBytes constant) } := by
  have kind := classified.row
  have order := classified.first
  cases row <;> cases first <;>
    simp [Encoded.reading, Encoded.operands, directForm, bare, Encoded.rmOperand,
      Encoded.rmRegister, Encoded.regOperand, Encoded.rexBit, rexOf, modrmOf, kind, order,
      classified.noSet, classified.notInOpcode]

theorem directForm_reads (dest : Register) (src : BitVec 32) (constant : List Byte)
    (stands : use.encoded = [directForm legacy escape opcode (intOfRegister dest) src wide constant])
    (length : constant.length = immediate.length (some (modrmOf (intOfRegister dest) src 3))) :
    Reads bytes meant use ↔
      some (directForm legacy escape opcode (intOfRegister dest) src wide constant).reading =
        use.meant :=
  reads_iff (directForm_wellFormed classified wide _ src constant length) (bytes_of_encoded stands)

end Forms

section MemoryForms

variable {use : EncoderUse} {legacy : Option Byte} {escape : Bool} {opcode : Byte} {first : Bool}
  (classified : Classified legacy escape opcode .absent false first) (wide : Bool)
  (base register : Register) (off : BitVec 32)

include classified

theorem memoryForm_operands :
    (memoryForm legacy escape opcode (intOfRegister base) (intOfRegister register) off
        wide).operands =
      let memory := memoryOperand (intOfRegister base) off
      if first then (some (.register register), some memory)
      else (some memory, some (.register register)) := by
  change (if hasRow escape opcode || isSet escape opcode then _
    else if registerFirst escape opcode then _ else _) = _
  rw [classified.row, classified.noSet, classified.first, memoryForm_rmOperand,
    memoryForm_regOperand, memoryOperand, registerOfInt_intOfRegister, registerNumber_intOfRegister]
  rfl

theorem memoryForm_reading :
    (memoryForm legacy escape opcode (intOfRegister base) (intOfRegister register) off
        wide).reading =
      let memory := memoryOperand (intOfRegister base) off
      { legacy := legacy, escape := escape, opcode := opcode, row := none, wide := wide
        first := if first then Operand.register register else memory
        second := if first then memory else Operand.register register
        constant := none } := by
  rw [Encoded.reading, memoryForm_operands classified]
  cases first <;>
    simp [memoryForm, bare, Encoded.rexBit, rexOf, classified.row, classified.notInOpcode]

theorem memoryForm_reads
    (stands : use.encoded =
      [memoryForm legacy escape opcode (intOfRegister base) (intOfRegister register) off wide])
    (meaning : use.meant = some (meant.access
      { plainReading opcode with legacy := legacy, escape := escape, wide := wide } (!first)
      (intOfRegister base) (intOfRegister register) off))
    (notStack : intOfRegister base ≠ jitSp) :
    Reads bytes meant use ↔ intOfRegister base ≠ intOfRegister r12 := by
  have same := bytes_of_encoded stands
  have notRsp : base ≠ rsp := fun isRsp => notStack (isRsp ▸ rfl)
  rw [Ne, intOfRegister_inj]
  by_cases isR12 : base = r12
  · have unfinished := memoryForm_unfinished (intOfRegister base) (intOfRegister register) off wide
      classified.isLegacy_of_mem classified.found ((low_bits_four base).mpr (.inr isR12))
    rw [same] at unfinished
    simp [isR12, not_reads unfinished]
  · have plainBase : (intOfRegister base).setWidth 3 ≠ 4#3 := by
      simp [low_bits_four, notRsp, isR12]
    have wellFormed := memoryForm_wellFormed _ (intOfRegister register) off wide
      classified.isLegacy_of_mem classified.found plainBase
    rw [reads_iff wellFormed same, memoryForm_reading classified, meaning]
    cases first <;> simp [meant.access, plainReading, registerOperand, isR12]

end MemoryForms

theorem rr_reads (opcode : Byte) (dest src : Register) (known : opcode ∈ rrOpcodes) :
    Reads bytes meant (rr opcode (intOfRegister dest) (intOfRegister src) true) := by
  have rows : ∀ opcode ∈ rrOpcodes, Classified none false opcode .absent false false := by
    decide
  have classified := rows _ known
  rw [directForm_reads classified true dest _ [] rfl rfl, directForm_reading classified]
  simp [meant, plainReading, registerOperand, classified.row]

theorem rr_row_reads (opcode : Byte) (dest : Register) (row : BitVec 32)
    (known : (opcode, row) ∈ rrRows) :
    Reads bytes meant (rr opcode (intOfRegister dest) row true) := by
  have rows : rrRows.all (fun entry => decide (∃ immediate ∈ [Immediate.absent, .dwordOfTest],
      immediate.length (some (modrmOf 0 entry.2 3)) = 0 ∧
        Classified none false entry.1 immediate true false)) = true := by
    decide
  obtain ⟨immediate, -, noConstant, classified⟩ :=
    of_decide_eq_true (List.all_eq_true.mp rows _ known)
  have length : 0 = immediate.length (some (modrmOf (intOfRegister dest) row 3)) := noConstant.symm
  rw [directForm_reads classified true dest row [] rfl length, directForm_reading classified]
  simp [meant, plainReading, registerOperand, classified.row]

theorem rr0_reads (opcode : Byte) (dest src : Register) (op64 : Bool)
    (known : (opcode, op64) ∈ rr0Opcodes) :
    Reads bytes meant (rr0 opcode (intOfRegister dest) (intOfRegister src) 3 op64) := by
  have rows : rr0Opcodes.all
      (fun entry => decide (Classified none true entry.1 .absent false true)) = true := by
    decide
  have classified := of_decide_eq_true (List.all_eq_true.mp rows _ known)
  rw [directForm_reads classified op64 dest _ [] rfl rfl, directForm_reading classified]
  simp [meant, plainReading, registerOperand]

theorem rrf_reads (legacy opcode : Byte) (dest src : Register) (op64 : Bool)
    (known : (legacy, opcode, op64) ∈ rrfOpcodes) :
    Reads bytes meant (rrf legacy opcode (intOfRegister dest) (intOfRegister src) op64) := by
  have rows : rrfOpcodes.all
      (fun entry => decide (Classified (some entry.1) true entry.2.1 .absent false true)) = true := by
    decide
  have classified := of_decide_eq_true (List.all_eq_true.mp rows _ known)
  rw [directForm_reads classified op64 src _ [] rfl rfl, directForm_reading classified]
  simp [meant, plainReading, registerOperand]

theorem ri8_reads (opcode : Byte) (dest : Register) (row im : BitVec 32)
    (known : (opcode, row) ∈ ri8Rows) :
    Reads bytes meant (ri8 opcode (intOfRegister dest) row im 3 true) ↔
      (im.setWidth 8).signExtend 32 = im := by
  have rows : ri8Rows.all
      (fun entry => decide (Classified none false entry.1 .byte true false)) = true := by
    decide
  have classified := of_decide_eq_true (List.all_eq_true.mp rows _ known)
  have whole : ByteOrder.join 8 [im.setWidth 8] = im.setWidth 8 := by
    simp [ByteOrder.join]
  have kept : signedBytes [im.setWidth 8] = ((im.setWidth 8).signExtend 32).signExtend 64 := by
    rw [BitFields.signExtend_signExtend _ (by decide) (by decide)]
    exact congrArg (BitVec.signExtend 64) whole
  rw [directForm_reads classified true dest row [im.setWidth 8] rfl rfl,
    directForm_reading classified, kept]
  simp [meant, plainReading, registerOperand, BitFields.signExtend_inj]

theorem movi32_reads (dest : Register) (im : BitVec 32) :
    Reads bytes meant (movi32 (intOfRegister dest) im) := by
  have classified : Classified none false 0xC7 .dword true false := by
    decide
  have nonempty : le32 im ≠ [] := List.cons_ne_nil _ _
  rw [movi32, directForm_reads classified true dest 0 (le32 im) rfl rfl,
    directForm_reading classified, signedBytes_le32]
  simp [meant, plainReading, registerOperand, nonempty]

theorem access_reads (opcode : Byte) (base register : Register) (off : BitVec 32) (op64 : Bool)
    (known : opcode ∈ accessOpcodes) (notStack : intOfRegister base ≠ jitSp) :
    Reads bytes meant (ri32 opcode (intOfRegister base) (intOfRegister register) off 2 op64) ↔
      intOfRegister base ≠ intOfRegister r12 := by
  have rows : ∀ opcode ∈ accessOpcodes,
      Classified none false opcode .absent false (opcode ≠ 0x89) := by
    decide
  have classified := rows _ known
  refine memoryForm_reads classified op64 base register off rfl ?_ notStack
  simp [meant, plainReading]

theorem rmf_reads (opcode : Byte) (base register : Register) (off : BitVec 32)
    (known : opcode ∈ rmfOpcodes) (notStack : intOfRegister base ≠ jitSp) :
    Reads bytes meant (rmf opcode (intOfRegister base) (intOfRegister register) off) ↔
      intOfRegister base ≠ intOfRegister r12 := by
  have rows : ∀ opcode ∈ rmfOpcodes,
      Classified (some 0xF3) true opcode .absent false (opcode ≠ 0x11) := by
    decide
  have classified := rows _ known
  refine memoryForm_reads classified false base register off rfl ?_ notStack
  simp [meant, plainReading]

theorem rmf4_reads (opcode : Byte) (base register : Register) (off : BitVec 32)
    (known : opcode ∈ rmfOpcodes) (notStack : intOfRegister base ≠ jitSp) :
    Reads bytes meant (rmf4 opcode (intOfRegister base) (intOfRegister register) off) ↔
      intOfRegister base ≠ intOfRegister r12 := by
  have rows : ∀ opcode ∈ rmfOpcodes,
      Classified none true opcode .absent false (opcode ≠ 0x11) := by
    decide
  have classified := rows _ known
  refine memoryForm_reads classified false base register off rfl ?_ notStack
  simp [meant, plainReading]

theorem opi32_reads (opcode : Byte) (im : BitVec 32) (known : opcode ∈ opi32Opcodes) :
    Reads bytes meant (opi32 opcode im) := by
  have rows : ∀ opcode ∈ opi32Opcodes,
      oneByteForm opcode = some { modrm := false, immediate := .dword } ∧
        inOpcodeRow false opcode = false ∧ hasRow false opcode = false := by
    decide
  obtain ⟨found, notInOpcode, noRow⟩ := rows _ known
  have nonempty : le32 im ≠ [] := List.cons_ne_nil _ _
  have wellFormed := plain_wellFormed opcode none false (le32 im) _ found rfl rfl
  rw [reads_iff wellFormed (bytes_of_encoded rfl)]
  simp [Encoded.reading, Encoded.operands, Encoded.rexBit, bare, meant, plainReading, notInOpcode,
    noRow, nonempty, signedBytes_le32]

theorem op0_reads (opcode : Byte) (known : opcode ∈ op0Opcodes) :
    Reads bytes meant (op0 opcode raxInt al) := by
  have rows : ∀ opcode ∈ op0Opcodes,
      escapedForm opcode = some { modrm := true, immediate := .absent } ∧
        (op0 opcode raxInt al).encoded.map (fun encoded => some encoded.reading) =
          [(op0 opcode raxInt al).meant] := by
    decide
  obtain ⟨found, reading⟩ := rows _ known
  have wellFormed := direct_wellFormed opcode none true raxInt al [] _ found rfl rfl
  rw [reads_iff wellFormed (bytes_of_encoded rfl)]
  exact List.singleton_inj.mp reading

theorem push_reads (src : Register) : Reads bytes meant (push (intOfRegister src)) := by
  rw [reads_iff (push_wellFormed src) (bytes_of_encoded rfl)]
  revert src
  decide

theorem pop_reads (src : Register) : Reads bytes meant (pop (intOfRegister src)) := by
  rw [reads_iff (pop_wellFormed src) (bytes_of_encoded rfl)]
  revert src
  decide

theorem bare_reads {use : EncoderUse} {opcode : Byte} (stands : use.encoded = [bare opcode])
    (found : oneByteForm opcode = some { modrm := false, immediate := .absent })
    (reading : some (bare opcode).reading = use.meant) : Reads bytes meant use := by
  have wellFormed := plain_wellFormed opcode none false [] _ found rfl rfl
  exact (reads_iff wellFormed (bytes_of_encoded stands)).mpr reading

theorem AsMade.pair {use : EncoderUse} (made : use.AsMade) {dest src : BitVec 32}
    (operands : use.registers = [dest, src]) :
    (∃ register : Register, dest = intOfRegister register) ∧
      ∃ register : Register, src = intOfRegister register := by
  have registers := made.registers
  rw [operands] at registers
  simpa using registers

theorem reads_iff_readable (use : EncoderUse) (made : use.AsMade) :
    Reads bytes meant use ↔ use.Readable := by
  have known := made.known
  cases use with
  | opi32 opcode im => exact iff_of_true (opi32_reads opcode im known) trivial
  | op0 opcode dest src =>
    obtain ⟨known, rfl, rfl⟩ := known
    exact iff_of_true (op0_reads opcode known) trivial
  | rr opcode dest src op64 =>
    obtain ⟨⟨dest, rfl⟩, real⟩ := made.pair rfl
    obtain ⟨known, rfl⟩ := known
    refine iff_of_true ?_ trivial
    cases known with
    | inl known =>
      obtain ⟨src, rfl⟩ := real
      exact rr_reads opcode dest src known
    | inr known => exact rr_row_reads opcode dest src known
  | rr0 opcode dest src mod op64 =>
    obtain ⟨⟨dest, rfl⟩, ⟨src, rfl⟩⟩ := made.pair rfl
    obtain ⟨known, rfl⟩ := known
    exact iff_of_true (rr0_reads opcode dest src op64 known) trivial
  | rrf legacy opcode dest src op64 =>
    obtain ⟨⟨dest, rfl⟩, ⟨src, rfl⟩⟩ := made.pair rfl
    exact iff_of_true (rrf_reads legacy opcode dest src op64 known) trivial
  | rmf opcode dest src off =>
    obtain ⟨⟨dest, rfl⟩, ⟨src, rfl⟩⟩ := made.pair rfl
    exact rmf_reads opcode dest src off known (made.base _ rfl)
  | rmf4 opcode dest src off =>
    obtain ⟨⟨dest, rfl⟩, ⟨src, rfl⟩⟩ := made.pair rfl
    exact rmf4_reads opcode dest src off known (made.base _ rfl)
  | ri8 opcode dest src im mod op64 =>
    obtain ⟨⟨dest, rfl⟩, -⟩ := made.pair rfl
    obtain ⟨known, rfl, rfl⟩ := known
    exact ri8_reads opcode dest src im known
  | ri32 opcode dest src im mod op64 =>
    obtain ⟨⟨dest, rfl⟩, real⟩ := made.pair rfl
    cases known with
    | inl known =>
      obtain ⟨rfl, rfl, rfl, rfl⟩ := known
      exact iff_of_true (movi32_reads dest im) (by simp [Readable])
    | inr known =>
      obtain ⟨src, rfl⟩ := real
      obtain ⟨known, rfl⟩ := known
      rw [access_reads opcode dest src im op64 known (made.base _ rfl)]
      simp [Readable]
  | jz off | jnz off =>
    have single := made.single
    simp [encoded, testJump] at single
  | push src =>
    obtain ⟨src, rfl⟩ := made.registers src (by simp [EncoderUse.registers])
    exact iff_of_true (push_reads src) trivial
  | pop src =>
    obtain ⟨src, rfl⟩ := made.registers src (by simp [EncoderUse.registers])
    exact iff_of_true (pop_reads src) trivial
  | cdq => exact iff_of_true (bare_reads rfl rfl rfl) trivial
  | ret => exact iff_of_true (bare_reads rfl rfl rfl) trivial

end EncoderUse

theorem sweepReads_iff_readable (uses : List EncoderUse) (made : ∀ use ∈ uses, use.AsMade) :
    SweepReads EncoderUse.bytes EncoderUse.meant uses ↔ ∀ use ∈ uses, use.Readable := by
  rw [sweepReads_iff]
  apply forall₂_congr
  intro use member
  exact EncoderUse.reads_iff_readable use (made use member)

/-- The emitted stream reads back as meant exactly when each macro use of it does; so does the code of
any calls. -/
theorem stream_reads_iff (uses : List EncoderUse) (calls : List JitCall) :
    ((∀ use ∈ uses, use.AsMade) →
      (SweepReads EncoderUse.bytes EncoderUse.meant uses ↔ ∀ use ∈ uses, use.Readable)) ∧
    ((∀ use ∈ calls.flatMap JitCall.uses, use.Passed) →
      (SweepReads EncoderUse.bytes EncoderUse.meant (calls.flatMap JitCall.uses) ↔
        ∀ use ∈ calls.flatMap JitCall.uses, use.Readable)) := by
  refine ⟨sweepReads_iff_readable uses, fun passed => sweepReads_iff_readable _ ?_⟩
  intro use member
  obtain ⟨call, -, emitted⟩ := List.mem_flatMap.mp member
  exact ⟨passed use member, call.uses_known use emitted⟩

theorem load64_asMade (dest base : Register) (off : BitVec 32) (notStack : base ≠ rsp) :
    (EncoderUse.load64 (intOfRegister dest) (intOfRegister base) off).AsMade where
  known := .inr ⟨by decide, rfl⟩
  single := rfl
  registers := by
    simp only [EncoderUse.load64, EncoderUse.registers, List.forall_mem_cons]
    exact ⟨⟨base, rfl⟩, ⟨dest, rfl⟩, by simp⟩
  base := by
    have apart : intOfRegister base ≠ jitSp := (intOfRegister_inj base rsp).not.mpr notStack
    simpa [EncoderUse.load64, EncoderUse.base?] using apart

theorem push_asMade (src : Register) : (EncoderUse.push (intOfRegister src)).AsMade where
  known := trivial
  single := rfl
  registers := by simp [EncoderUse.registers]
  base := by simp [EncoderUse.base?]

-- Through R13, with the displacement below the base.
theorem stream_reads_back :
    let access := EncoderUse.load64 (intOfRegister r8) (intOfRegister r13) (-8)
    let calls : List JitCall := [.load64 (intOfRegister r8) (intOfRegister r13) (-8)]
    SweepReads EncoderUse.bytes EncoderUse.meant [.push (intOfRegister rdx), access] ∧
      SweepReads EncoderUse.bytes EncoderUse.meant (calls.flatMap JitCall.uses) := by
  intro access calls
  have saves := push_asMade rdx
  have loads : access.AsMade := load64_asMade r8 r13 (-8) (by decide)
  have apart : intOfRegister r13 ≠ intOfRegister r12 := by decide
  have readable : access.Readable := fun _ => apart
  have emitted : calls.flatMap JitCall.uses = [access] := by decide
  obtain ⟨uses, code⟩ := stream_reads_iff [.push (intOfRegister rdx), access] calls
  rw [emitted] at code ⊢
  constructor
  · refine (uses ?_).mpr ?_
    · exact List.forall_mem_cons.mpr ⟨saves, List.forall_mem_singleton.mpr loads⟩
    · exact List.forall_mem_cons.mpr ⟨trivial, List.forall_mem_singleton.mpr readable⟩
  · refine (code ?_).mpr ?_
    · exact List.forall_mem_singleton.mpr loads.toPassed
    · exact List.forall_mem_singleton.mpr readable

-- `JIT_LOAD64(JIT_R3, JIT_R4, 0)` emits `49 8B 9C 00 00 00 00`, a byte less than the instruction it
-- begins.
theorem load_through_r12_is_unfinished :
    (∀ use ∈ (JitCall.load64 (intOfRegister rbx) (intOfRegister r12) 0).uses, use.AsMade) ∧
      ¬ SweepReads EncoderUse.bytes EncoderUse.meant
        (JitCall.load64 (intOfRegister rbx) (intOfRegister r12) 0).uses := by
  have uses : (JitCall.load64 (intOfRegister rbx) (intOfRegister r12) 0).uses =
      [.load64 (intOfRegister rbx) (intOfRegister r12) 0] := by decide
  rw [uses]
  constructor
  · simpa using load64_asMade rbx r12 0 (by decide)
  · rintro ⟨decoded, swept, -⟩
    have unfinished :
        sweep (usesBytes [.load64 (intOfRegister rbx) (intOfRegister r12) 0]) = none := by
      decide
    cases unfinished.symm.trans swept

end Jit
