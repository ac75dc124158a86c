import Mips64Emulator.Jit.LoadedCode
import Mips64Emulator.Jit.OperandForms
import Mips64Emulator.X86.Vector

set_option autoImplicit false

namespace Jit

open X86 EncoderUse

def floatMove (d s : BitVec 32) : Span → EncoderUse
  | .scalar => movss d s
  | .packed => movups d s

def floatUse (d s : BitVec 32) : FloatOp → Span → EncoderUse
  | .add, .scalar => addss d s
  | .add, .packed => addps d s
  | .sub, .scalar => subss d s
  | .sub, .packed => subps d s
  | .mul, .scalar => mulss d s
  | .mul, .packed => mulps d s
  | .div, .scalar => divss d s
  | .div, .packed => divps d s
  | .min, .scalar => minss d s
  | .min, .packed => minps d s
  | .max, .scalar => maxss d s
  | .max, .packed => maxps d s

def floatCall (d s t : BitVec 32) : FloatOp → Span → JitCall
  | .add, .scalar => .addf d s t
  | .add, .packed => .addf4 d s t
  | .sub, .scalar => .subf d s t
  | .sub, .packed => .subf4 d s t
  | .mul, .scalar => .mulf d s t
  | .mul, .packed => .mulf4 d s t
  | .div, .scalar => .divf d s t
  | .div, .packed => .divf4 d s t
  | .min, .scalar => .minf d s t
  | .min, .packed => .minf4 d s t
  | .max, .scalar => .maxf d s t
  | .max, .packed => .maxf4 d s t

def loadfCall (d s o : BitVec 32) : Span → JitCall
  | .scalar => .loadf d s o
  | .packed => .loadf4 d s o

def storefCall (d o s : BitVec 32) : Span → JitCall
  | .scalar => .storef d o s
  | .packed => .storef4 d o s

section Forms

def vectorForm (legacy : Option Byte) (opcode : Byte) (register rm : Register) (wide : Bool) :
    Encoded :=
  { bare opcode with
    legacy := legacy, rex := some (rexOf (intOfRegister rm) (intOfRegister register) wide)
    escape := true, modrm := some (modrmOf (intOfRegister rm) (intOfRegister register) 3) }

theorem vectorForm_wellFormed (legacy : Option Byte) (opcode : Byte) (register rm : Register)
    (wide : Bool) (accepted : ∀ byte ∈ legacy, isLegacy byte = true)
    (found : escapedForm opcode = some { modrm := true, immediate := .absent }) :
    (vectorForm legacy opcode register rm wide).WellFormed :=
  mandatory_wellFormed legacy opcode _ true _ _ [] _ accepted found rfl rfl

variable {legacy : Option Byte} {opcode : Byte} {register rm : Register} {wide : Bool}

theorem vectorForm_regOperand : (vectorForm legacy opcode register rm wide).regOperand
    (modrmOf (intOfRegister rm) (intOfRegister register) 3) = register :=
  (coded_regOperand rfl).trans (registerNumber_intOfRegister register)

theorem vectorForm_rmRegister : (vectorForm legacy opcode register rm wide).rmRegister
    (modrmOf (intOfRegister rm) (intOfRegister register) 3) = rm := by
  simp [vectorForm, Encoded.rmRegister, Encoded.rexBit, rexOf, modrmOf]

theorem arithmetic_instruction (op : FloatOp) (span : Span) (d s : Register) :
    (vectorForm span.legacy op.opcode d s false).vectorInstruction =
      some (.arithmetic op span d s) := by
  refine Encoded.vectorInstruction_of_spanned rfl rfl rfl ?_
  rw [Encoded.spanned_arithmetic span rfl rfl, vectorForm_regOperand, vectorForm_rmRegister]

theorem move_instruction (span : Span) (d s : Register) :
    (vectorForm span.legacy 0x10 d s false).vectorInstruction =
      some (.load span d (.register s)) := by
  refine Encoded.vectorInstruction_of_spanned rfl rfl rfl ?_
  change some (VectorInstruction.load _ _ _) = _
  rw [vectorForm_regOperand, direct_rmOperand rfl]

theorem compare_instruction (s t : Register) :
    (vectorForm none 0x2E s t false).vectorInstruction = some (.compare s t) := by
  change some (VectorInstruction.compare _ _) = _
  rw [vectorForm_regOperand, vectorForm_rmRegister]

theorem xor_instruction (d s : Register) :
    (vectorForm (some 0x66) 0xEF d s false).vectorInstruction = some (.xor d s) := by
  change some (VectorInstruction.xor _ _) = _
  rw [vectorForm_regOperand, vectorForm_rmRegister]

theorem fromInteger_instruction (d s : Register) :
    (vectorForm (some 0xF3) 0x2A d s true).vectorInstruction = some (.fromInteger d s) := by
  change some (VectorInstruction.fromInteger _ _) = _
  rw [vectorForm_regOperand, vectorForm_rmRegister]

theorem toInteger_instruction (d s : Register) :
    (vectorForm (some 0xF3) 0x2D d s true).vectorInstruction = some (.toInteger d s) := by
  change some (VectorInstruction.toInteger _ _) = _
  rw [vectorForm_regOperand, vectorForm_rmRegister]

end Forms

section Rows

variable {unit : FloatUnit}

abbrev CallRow (unit : FloatUnit) (call : JitCall) : VectorState → VectorState → Prop :=
  VectorRow unit (instructions call.uses)

namespace CallRow

theorem of_row {call : JitCall} {encodeds : List Encoded} {before after : VectorState}
    (row : VectorRow unit encodeds before after) (emits : instructions call.uses = encodeds) :
    CallRow unit call before after := by
  rw [CallRow, emits]
  exact row

variable {call : JitCall} {before after : VectorState} (row : CallRow unit call before after)

include row

theorem run_correct : vectorRun unit call.code before = some after := by
  rw [JitCall.code, usesBytes_correct]
  exact VectorRow.run_correct row

theorem steps (loaded : Loaded before.core.memory before.core.rip call.code) :
    VectorSteps unit before after := by
  rw [JitCall.code, usesBytes_correct] at loaded
  exact VectorRow.steps row loaded

theorem fallsThrough : FallsThrough call.code before.core after.core := by
  rw [JitCall.code, usesBytes_correct]
  exact ⟨VectorRow.rip row, fun address _ => congrFun (VectorRow.memory row) address⟩

end CallRow

theorem legacy_accepted (span : Span) : ∀ byte ∈ span.legacy, isLegacy byte = true := by
  intro byte member
  cases span with
  | scalar => exact Option.some.inj member ▸ rfl
  | packed => cases member

variable (unit) in
theorem arithmetic_row (op : FloatOp) (span : Span) (d t : Register) (before : VectorState) :
    ∃ after, VectorRow unit (floatUse (intOfRegister d) (intOfRegister t) op span).encoded
        before after ∧
      after.core.registers = before.core.registers ∧
      after.vectors = Function.update before.vectors d (span.blend (before.vectors d)
        (mapLanes (unit.arithmetic op) (before.vectors d) (before.vectors t))) := by
  have encoded : (floatUse (intOfRegister d) (intOfRegister t) op span).encoded =
      [vectorForm span.legacy op.opcode d t false] := by
    cases op <;> cases span <;> rfl
  have wellFormed := vectorForm_wellFormed span.legacy op.opcode d t false
    (legacy_accepted span) (by cases op <;> rfl)
  rw [encoded]
  exact ⟨_, .single wellFormed (arithmetic_instruction op span d t) trivial before, rfl, rfl⟩

variable (unit) in
theorem move_row (span : Span) (d s : Register) (before : VectorState) :
    ∃ moved, VectorRow unit (instructions (onlyIf (intOfRegister s ≠ intOfRegister d)
        (floatMove (intOfRegister d) (intOfRegister s) span))) before moved ∧
      moved.core.registers = before.core.registers ∧
      moved.vectors = Function.update before.vectors d
        (span.blend (before.vectors d) (before.vectors s)) := by
  by_cases same : s = d
  · subst same
    have stays : onlyIf (intOfRegister s ≠ intOfRegister s)
        (floatMove (intOfRegister s) (intOfRegister s) span) = [] := if_neg (by simp)
    rw [stays, Span.blend_self, Function.update_eq_self]
    exact ⟨before, rfl, rfl, rfl⟩
  · have differ : intOfRegister s ≠ intOfRegister d := (intOfRegister_inj s d).not.mpr same
    have moves : instructions (onlyIf (intOfRegister s ≠ intOfRegister d)
        (floatMove (intOfRegister d) (intOfRegister s) span)) =
        [vectorForm span.legacy 0x10 d s false] := by
      rw [onlyIf, if_pos differ]
      cases span <;> rfl
    have wellFormed := vectorForm_wellFormed span.legacy 0x10 d s false
      (legacy_accepted span) rfl
    rw [moves]
    exact ⟨_, .single wellFormed (move_instruction span d s) trivial before, rfl, rfl⟩

end Rows

section Calls

variable (unit : FloatUnit) (before : VectorState)

/-- The second operand is read behind the move, which may have destroyed it. -/
theorem operatef_row (op : FloatOp) (span : Span) (d s t : Register) :
    ∃ after, CallRow unit
        (floatCall (intOfRegister d) (intOfRegister s) (intOfRegister t) op span) before after ∧
      after.core.registers = before.core.registers ∧
      after.vectors = Function.update before.vectors d (span.blend (before.vectors d)
        (mapLanes (unit.arithmetic op) (before.vectors s)
          (before.vectors (if d = t then s else t)))) := by
  have uses : (floatCall (intOfRegister d) (intOfRegister s) (intOfRegister t) op span).uses =
      onlyIf (intOfRegister s ≠ intOfRegister d)
        (floatMove (intOfRegister d) (intOfRegister s) span) ++
      [floatUse (intOfRegister d) (intOfRegister t) op span] := by
    cases op <;> cases span <;> exact recorded_uses _
  obtain ⟨moved, moves, movedRegisters, movedVectors⟩ := move_row unit span d s before
  obtain ⟨after, operates, registers, vectors⟩ := arithmetic_row unit op span d t moved
  refine ⟨after, ?_, registers.trans movedRegisters, ?_⟩
  · rw [CallRow, uses, instructions_append, instructions_single]
    exact moves.append operates
  · rw [vectors, movedVectors, Function.update_self, Function.update_idem, Span.blend_moved]
    by_cases overwritten : d = t
    · rw [if_pos overwritten, ← overwritten, Function.update_self, Span.blend_second]
    · rw [if_neg overwritten, Function.update_of_ne (Ne.symm overwritten)]

theorem lessf_row (d s t : Register) :
    ∃ after, CallRow unit
        (JitCall.lessf (intOfRegister d) (intOfRegister s) (intOfRegister t)) before after ∧
      after.core.registers d =
        (if unit.compare (lane (before.vectors s) 0) (lane (before.vectors t) 0) = some .gt then 1
          else 0) ∧
      (∀ other, other ≠ d → other ≠ rax → after.core.registers other = before.core.registers other) ∧
      after.vectors = before.vectors := by
  have emits : instructions
      (JitCall.lessf (intOfRegister d) (intOfRegister s) (intOfRegister t)).uses =
        [vectorForm none 0x2E s t false] ++ (instructions [op0 0x97 0 0, movzx 0 0] ++
          instructions [mov (intOfRegister d) (intOfRegister rax)]) :=
    congrArg instructions (recorded_uses _)
  let compared := VectorInstruction.execute unit
    { before with core := { before.core with
      rip := before.core.rip + (vectorForm none 0x2E s t false).size } } (.compare s t)
  have compares : VectorRow unit [vectorForm none 0x2E s t false] before compared :=
    .single (vectorForm_wellFormed none 0x2E s t false (by simp) rfl) (compare_instruction s t)
      trivial before
  have setInstruction : Encoded.instruction { bare 0x97 with
      escape := true, modrm := some (modrmOf 0 0 3) } = some (.set 0x7 rax) := rfl
  have above : compared.core.flags.holds 0x7 = some (decide (unit.compare
      (lane (before.vectors s) 0) (lane (before.vectors t) 0) = some .gt)) := compareFlags_above _
  obtain ⟨outcome, sets, setRegisters, -, -⟩ := outcome_straight compared.core setInstruction above
  have transforms := mov_transforms d rax
  obtain ⟨core, moves, registers, -⟩ := transforms.straight outcome
  have setDirect : AllDirect [op0 0x97 0 0, movzx 0 0] := by
    simp [movzx, IsDirect]
  have moveDirect : AllDirect [mov (intOfRegister d) (intOfRegister rax)] := by simp
  have setWellFormed : ∀ encoded ∈ instructions [op0 0x97 0 0, movzx 0 0], encoded.WellFormed := by
    intro encoded member
    rcases List.mem_cons.mp member with rfl | member
    · exact direct_wellFormed 0x97 none true 0 0 [] _ rfl rfl rfl
    · exact List.mem_singleton.mp member ▸ direct_wellFormed 0xB6 none true 0 0 [] _ rfl rfl rfl
  have row := compares.append
    ((VectorRow.of_straight sets setWellFormed setDirect.keepsMemory before.vectors).append
      (VectorRow.of_straight moves transforms.wellFormed moveDirect.keepsMemory before.vectors))
  refine ⟨_, .of_row row emits, ?_, ?_, rfl⟩
  · simp only [registers, setRegisters, Function.update_self, decide_eq_true_eq]
  · intro other notDestination notRax
    simp only [registers, setRegisters, Function.update_of_ne notDestination,
      Function.update_of_ne notRax]
    rfl

theorem itof_row (d : Register) (s : Option Register) :
    ∃ after, CallRow unit (JitCall.itof (intOfRegister d) (operandInt s)) before after ∧
      after.core.registers = before.core.registers ∧
      after.vectors = Function.update before.vectors d
        (withLow 0 (unit.ofInteger (operandValue before.core.registers s))) := by
  have clears : VectorRow unit [vectorForm (some 0x66) 0xEF d d false] before _ :=
    .single (vectorForm_wellFormed (some 0x66) 0xEF d d false (by decide) rfl) (xor_instruction d d)
      trivial before
  cases s with
  | none =>
    have emits : instructions (JitCall.itof (intOfRegister d) (operandInt none)).uses =
        [vectorForm (some 0x66) 0xEF d d false] := congrArg instructions (recorded_uses _)
    refine ⟨_, .of_row clears emits, rfl, ?_⟩
    have zero : withLow 0 (unit.ofInteger (operandValue before.core.registers none)) = 0 := by
      rw [operandValue, Option.map_none, Option.getD_none, unit.ofInteger_zero]
      rfl
    simp only [zero, VectorInstruction.execute, VectorState.setVector, BitVec.xor_self]
    rfl
  | some s =>
    have uses : (JitCall.itof (intOfRegister d) (operandInt (some s))).uses =
        [pxor (intOfRegister d) (intOfRegister d), cvtsi2ss (intOfRegister d) (intOfRegister s)] := by
      refine (recorded_uses _).trans (congrArg (List.cons _) ?_)
      exact if_pos (intOfRegister_ne_jitR0 s)
    have emits : instructions (JitCall.itof (intOfRegister d) (operandInt (some s))).uses =
        [vectorForm (some 0x66) 0xEF d d false] ++ [vectorForm (some 0xF3) 0x2A d s true] :=
      congrArg instructions uses
    have converts := clears.append (VectorRow.single
      (vectorForm_wellFormed (some 0xF3) 0x2A d s true (by decide) rfl)
      (fromInteger_instruction d s) trivial _)
    refine ⟨_, .of_row converts emits, rfl, ?_⟩
    simp only [VectorInstruction.execute, VectorState.setVector, BitVec.xor_self, Function.update_self,
      Function.update_idem]
    rfl

theorem ftoi_row (d s : Register) :
    ∃ after, CallRow unit (JitCall.ftoi (intOfRegister d) (intOfRegister s)) before after ∧
      after.core.registers = Function.update before.core.registers d
        (unit.toInteger (lane (before.vectors s) 0)) ∧
      after.vectors = before.vectors := by
  have uses : (JitCall.ftoi (intOfRegister d) (intOfRegister s)).uses =
      [cvtss2si (intOfRegister d) (intOfRegister s)] :=
    (recorded_uses _).trans (if_pos (intOfRegister_ne_jitR0 d))
  have emits : instructions (JitCall.ftoi (intOfRegister d) (intOfRegister s)).uses =
      [vectorForm (some 0xF3) 0x2D d s true] := congrArg instructions uses
  have converts : VectorRow unit [vectorForm (some 0xF3) 0x2D d s true] before _ :=
    .single (vectorForm_wellFormed (some 0xF3) 0x2D d s true (by decide) rfl)
      (toInteger_instruction d s) trivial before
  exact ⟨_, .of_row converts emits, rfl, rfl⟩

end Calls

section Accesses

variable (span : Span) (b v : Register) (o : BitVec 32)

def vectorMemoryForm (opcode : Byte) : Encoded :=
  memoryForm span.legacy true opcode (intOfRegister b) (intOfRegister v) o false

def displaced : Address :=
  { base := some b, index := none, displacement := o.signExtend 64, ripRelative := false }

theorem vectorMemoryForm_wellFormed {opcode : Byte} (plainBase : ¬ (b = rsp ∨ b = r12))
    (found : escapedForm opcode = some { modrm := true, immediate := .absent }) :
    (vectorMemoryForm span b v o opcode).WellFormed :=
  memoryForm_wellFormed _ _ o false (legacy_accepted span) found
    (mt (low_bits_four b).mp plainBase)

theorem loadf_instruction : (vectorMemoryForm span b v o 0x10).vectorInstruction =
    some (.load span v (.memory (displaced b o))) := by
  refine Encoded.vectorInstruction_of_spanned rfl rfl rfl ?_
  change some (VectorInstruction.load _ _ _) = _
  rw [vectorMemoryForm, memoryForm_rmOperand, memoryForm_regOperand, registerNumber_intOfRegister,
    displaced]

theorem storef_instruction : (vectorMemoryForm span b v o 0x11).vectorInstruction =
    some (.store span (.memory (displaced b o)) v) := by
  refine Encoded.vectorInstruction_of_spanned rfl rfl rfl ?_
  change some (VectorInstruction.store _ _ _) = _
  rw [vectorMemoryForm, memoryForm_rmOperand, memoryForm_regOperand, registerNumber_intOfRegister,
    displaced]

theorem loadf_uses : ∃ access : BitVec 32 → EncoderUse,
    (loadfCall (intOfRegister v) (intOfRegister b) o span).uses =
      throughStackPointer access (intOfRegister b) ∧
    ∀ base, (access (intOfRegister base)).encoded = [vectorMemoryForm span base v o 0x10] := by
  have real : intOfRegister v ≠ jitR0 ∧ intOfRegister b ≠ jitR0 :=
    ⟨intOfRegister_ne_jitR0 v, intOfRegister_ne_jitR0 b⟩
  cases span with
  | scalar =>
    refine ⟨fun base => loadss (intOfRegister v) base o, ?_, fun _ => rfl⟩
    have uses : (loadfCall (intOfRegister v) (intOfRegister b) o .scalar).uses =
        accessLike loadss (intOfRegister v) (intOfRegister b) o := recorded_uses _
    exact uses.trans (if_pos real)
  | packed =>
    exact ⟨fun base => loadups (intOfRegister v) base o,
      (recorded_uses _).trans (if_pos real), fun _ => rfl⟩

theorem storef_uses : ∃ access : BitVec 32 → EncoderUse,
    (storefCall (intOfRegister b) o (intOfRegister v) span).uses =
      throughStackPointer access (intOfRegister b) ∧
    ∀ base, (access (intOfRegister base)).encoded = [vectorMemoryForm span base v o 0x11] := by
  cases span with
  | scalar =>
    exact ⟨fun base => storess base o (intOfRegister v), (recorded_uses _).trans
      (if_pos ⟨intOfRegister_ne_jitR0 b, intOfRegister_ne_jitR0 v⟩), fun _ => rfl⟩
  | packed =>
    exact ⟨fun base => storeups base o (intOfRegister v), (recorded_uses _).trans
      (if_pos (intOfRegister_ne_jitR0 b)), fun _ => rfl⟩

theorem BaseReached.address {b base : Register} {front : List EncoderUse} {before moved : State}
    (reached : BaseReached b front base before moved) (o : BitVec 32) (rip : BitVec 64) :
    State.address { moved with rip := rip } (displaced base o) =
      before.registers b + o.signExtend 64 :=
  (address_displaced base o _).trans (congrArg (· + o.signExtend 64) reached.source)

variable (unit : FloatUnit) (before : VectorState) (plainBase : b ≠ r12)

include plainBase

theorem loadf_row :
    ∃ after, CallRow unit (loadfCall (intOfRegister v) (intOfRegister b) o span) before after ∧
      (∀ other, other ≠ rax → after.core.registers other = before.core.registers other) ∧
      after.vectors = Function.update before.vectors v ((before.core.load span.bytes
        (before.core.registers b + o.signExtend 64)).setWidth 128) := by
  obtain ⟨front, base, moved, reached⟩ := base_reached b plainBase before.core
  obtain ⟨access, uses, accesses⟩ := loadf_uses span b v o
  have emits : instructions (loadfCall (intOfRegister v) (intOfRegister b) o span).uses =
      instructions front ++ [vectorMemoryForm span base v o 0x10] := by
    rw [uses, reached.shape, instructions_append, instructions_single, accesses]
  have moves : VectorRow unit (instructions front) before { before with core := moved } :=
    .of_straight reached.moves reached.wellFormed reached.keeps before.vectors
  have row := moves.append (.single (vectorMemoryForm_wellFormed span base v o reached.plain rfl)
    (loadf_instruction span base v o) trivial _)
  refine ⟨_, .of_row row emits, reached.others, ?_⟩
  simp only [VectorInstruction.execute, VectorState.setVector, VectorState.loaded, reached.address o]
  simp only [State.load, reached.memory]

theorem storef_row :
    ∃ (front : List Encoded) (last : Encoded) (moved after : VectorState),
      (storefCall (intOfRegister b) o (intOfRegister v) span).code =
        front.flatMap Encoded.bytes ++ last.bytes ∧
      VectorRow unit front before moved ∧ last.WellFormed ∧
      last.executeVector unit moved = some after ∧
      after.core.rip = before.core.rip + BitVec.ofNat 64
        (storefCall (intOfRegister b) o (intOfRegister v) span).code.length ∧
      (∀ other, other ≠ rax → after.core.registers other = before.core.registers other) ∧
      after.core.memory = (before.core.store (before.core.registers b + o.signExtend 64)
        (ByteOrder.split span.bytes (before.vectors v))).memory ∧
      after.vectors = before.vectors := by
  obtain ⟨front, base, moved, reached⟩ := base_reached b plainBase before.core
  obtain ⟨access, uses, accesses⟩ := storef_uses span b v o
  let last := vectorMemoryForm span base v o 0x11
  have code : (storefCall (intOfRegister b) o (intOfRegister v) span).code =
      (instructions front).flatMap Encoded.bytes ++ last.bytes := by
    rw [JitCall.code, usesBytes_correct, uses, reached.shape, instructions_append,
      instructions_single, accesses, List.flatMap_append, List.flatMap_singleton]
  have moves : VectorRow unit (instructions front) before { before with core := moved } :=
    .of_straight reached.moves reached.wellFormed reached.keeps before.vectors
  have executed : last.executeVector unit { before with core := moved } = some _ :=
    Encoded.executeVector_correct (storef_instruction span base v o) _
  refine ⟨instructions front, last, { before with core := moved }, _, code, moves,
    vectorMemoryForm_wellFormed span base v o reached.plain rfl, executed, ?_, reached.others, ?_,
    rfl⟩
  · have rip : moved.rip = _ := moves.rip
    simp only [VectorInstruction.execute, State.store, rip, code, List.length_append,
      BitVec.ofNat_add, ← BitVec.add_assoc]
    rfl
  · simp only [VectorInstruction.execute, reached.address o]
    simp only [State.store, reached.memory]

end Accesses

end Jit
