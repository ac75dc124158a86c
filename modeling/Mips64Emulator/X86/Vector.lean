import Mips64Emulator.X86.Stepping

set_option autoImplicit false

/-!
# The vector part of an x86-64 machine

Sixteen registers of four lanes beside the integer machine. What the lanes mean is left to a float
unit; the machine moves them about. Packed arithmetic on memory and the float exceptions are left out.
-/

namespace X86

inductive FloatOp where
  | add
  | mul
  | sub
  | min
  | div
  | max
  deriving DecidableEq, Repr

-- Unordered operands compare as `none`. Both conversions are those of 64-bit integers.
structure FloatUnit where
  arithmetic : FloatOp → BitVec 32 → BitVec 32 → BitVec 32
  compare : BitVec 32 → BitVec 32 → Option Ordering
  ofInteger : BitVec 64 → BitVec 32
  toInteger : BitVec 32 → BitVec 64
  ofInteger_zero : ofInteger 0 = 0

inductive Span where
  | scalar
  | packed
  deriving DecidableEq, Repr

abbrev Span.bytes : Span → Nat
  | scalar => 4
  | packed => 16

def Span.legacy : Span → Option Byte
  | scalar => some 0xF3
  | packed => none

def withLow (value : BitVec 128) (low : BitVec 32) : BitVec 128 := value.extractLsb' 32 96 ++ low

def lane (value : BitVec 128) (index : Nat) : BitVec 32 := value.extractLsb' (32 * index) 32

def mapLanes (f : BitVec 32 → BitVec 32 → BitVec 32) (left right : BitVec 128) : BitVec 128 :=
  f (lane left 3) (lane right 3) ++ f (lane left 2) (lane right 2) ++
    (f (lane left 1) (lane right 1) ++ f (lane left 0) (lane right 0))

-- A scalar result keeps the other lanes of its register.
def Span.blend : Span → BitVec 128 → BitVec 128 → BitVec 128
  | scalar, old, new => withLow old (lane new 0)
  | packed, _, new => new

theorem lane_append_zero (upper : BitVec 96) (low : BitVec 32) : lane (upper ++ low) 0 = low := by
  apply BitVec.eq_of_getLsbD_eq
  intro i inside
  simp only [lane, BitVec.getLsbD_extractLsb', BitVec.getLsbD_append]
  simp [inside]

theorem Span.blend_self (span : Span) (value : BitVec 128) : span.blend value value = value := by
  cases span with
  | scalar =>
    apply BitVec.eq_of_getLsbD_eq
    intro i inside
    simp only [blend, withLow, lane, BitVec.getLsbD_append, BitVec.getLsbD_extractLsb']
    by_cases low : i < 32
    · simp [low]
    · have above : i - 32 < 96 := by omega
      have back : 32 + (i - 32) = i := by omega
      simp [low, above, back]
  | packed => rfl

theorem withLow_withLow (value : BitVec 128) (first second : BitVec 32) :
    withLow (withLow value first) second = withLow value second := by
  have upper : (withLow value first).extractLsb' 32 96 = value.extractLsb' 32 96 := by
    apply BitVec.eq_of_getLsbD_eq
    intro i inside
    simp only [withLow, BitVec.getLsbD_extractLsb', BitVec.getLsbD_append]
    simp [inside]
  rw [withLow, upper, withLow]

theorem lane_mapLanes_zero (f : BitVec 32 → BitVec 32 → BitVec 32) (left right : BitVec 128) :
    lane (mapLanes f left right) 0 = f (lane left 0) (lane right 0) := by
  apply BitVec.eq_of_getLsbD_eq
  intro i inside
  have lower : i < 64 := by omega
  rw [lane, mapLanes, BitVec.getLsbD_extractLsb', BitVec.getLsbD_append, BitVec.getLsbD_append]
  simp [inside, lower]

theorem Span.blend_moved (span : Span) (f : BitVec 32 → BitVec 32 → BitVec 32)
    (old left right : BitVec 128) :
    span.blend (span.blend old left) (mapLanes f (span.blend old left) right) =
      span.blend old (mapLanes f left right) := by
  cases span with
  | scalar =>
    simp only [blend, withLow_withLow, lane_mapLanes_zero]
    rw [withLow, withLow, lane_append_zero]
    rfl
  | packed => rfl

theorem Span.blend_second (span : Span) (f : BitVec 32 → BitVec 32 → BitVec 32)
    (old other left right : BitVec 128) :
    span.blend old (mapLanes f left (span.blend other right)) =
      span.blend old (mapLanes f left right) := by
  cases span with
  | scalar =>
    simp only [blend, lane_mapLanes_zero]
    rw [withLow, withLow, lane_append_zero]
    rfl
  | packed => rfl

inductive VectorInstruction where
  | load (span : Span) (destination : Register) (source : Operand)
  | store (span : Span) (destination : Operand) (source : Register)
  | arithmetic (op : FloatOp) (span : Span) (destination source : Register)
  | compare (left right : Register)
  | fromInteger (destination source : Register)
  | toInteger (destination source : Register)
  | xor (destination source : Register)
  deriving DecidableEq, Repr

def floatOp (opcode : Byte) : Option FloatOp :=
  if opcode = 0x58 then some .add
  else if opcode = 0x59 then some .mul
  else if opcode = 0x5C then some .sub
  else if opcode = 0x5D then some .min
  else if opcode = 0x5E then some .div
  else if opcode = 0x5F then some .max
  else none

def FloatOp.opcode : FloatOp → Byte
  | add => 0x58
  | mul => 0x59
  | sub => 0x5C
  | min => 0x5D
  | div => 0x5E
  | max => 0x5F

namespace Encoded

def spanned (encoded : Encoded) (span : Span) (modrm : ModRm) : Option VectorInstruction :=
  let reg := encoded.regOperand modrm
  if encoded.opcode = 0x10 then some (.load span reg (encoded.rmOperand modrm))
  else if encoded.opcode = 0x11 then some (.store span (encoded.rmOperand modrm) reg)
  else if modrm.mod = 3 then
    (floatOp encoded.opcode).map fun op => .arithmetic op span reg (encoded.rmRegister modrm)
  else none

def twoRegisters (encoded : Encoded) (modrm : ModRm) : Option VectorInstruction :=
  let reg := encoded.regOperand modrm
  let rm := encoded.rmRegister modrm
  if modrm.mod ≠ 3 then none
  else if encoded.legacy = none ∧ encoded.opcode = 0x2E then some (.compare reg rm)
  else if encoded.legacy = some 0x66 ∧ encoded.opcode = 0xEF then some (.xor reg rm)
  else if encoded.legacy = some 0xF3 ∧ encoded.rexBit Rex.w = true then
    if encoded.opcode = 0x2A then some (.fromInteger reg rm)
    else if encoded.opcode = 0x2D then some (.toInteger reg rm)
    else none
  else none

def vectorInstruction (encoded : Encoded) : Option VectorInstruction :=
  match encoded.escape, encoded.modrm with
  | true, some modrm =>
    let spanned :=
      if encoded.legacy = none then encoded.spanned .packed modrm
      else if encoded.legacy = some 0xF3 then encoded.spanned .scalar modrm
      else none
    spanned.or (encoded.twoRegisters modrm)
  | _, _ => none

theorem spanned_arithmetic {encoded : Encoded} {modrm : ModRm} {op : FloatOp} (span : Span)
    (opcode : encoded.opcode = op.opcode) (direct : modrm.mod = 3) :
    encoded.spanned span modrm =
      some (.arithmetic op span (encoded.regOperand modrm) (encoded.rmRegister modrm)) := by
  cases op <;> simp [spanned, floatOp, opcode, FloatOp.opcode, direct]

theorem vectorInstruction_of_spanned {encoded : Encoded} {modrm : ModRm} {span : Span}
    {instruction : VectorInstruction} (escape : encoded.escape = true)
    (found : encoded.modrm = some modrm) (legacy : encoded.legacy = span.legacy)
    (means : encoded.spanned span modrm = some instruction) :
    encoded.vectorInstruction = some instruction := by
  cases span with
  | scalar => simp [vectorInstruction, escape, found, legacy, Span.legacy, means]
  | packed => simp [vectorInstruction, escape, found, legacy, Span.legacy, means]

end Encoded

structure VectorState where
  core : State
  vectors : Register → BitVec 128

namespace VectorState

def setVector (state : VectorState) (index : Register) (value : BitVec 128) : VectorState :=
  { state with vectors := Function.update state.vectors index value }

-- A scalar load from memory clears the other lanes; one from a register keeps them.
def loaded (state : VectorState) (span : Span) (destination : Register) : Operand → BitVec 128
  | .register source => span.blend (state.vectors destination) (state.vectors source)
  | .memory address => (state.core.load span.bytes (state.core.address address)).setWidth 128

end VectorState

-- UCOMISS; the parity flag is left out.
def compareFlags (outcome : Option Ordering) : Flags :=
  { carry := some (outcome = none ∨ outcome = some .lt)
    zero := some (outcome = none ∨ outcome = some .eq)
    sign := some false
    overflow := some false }

theorem compareFlags_above (outcome : Option Ordering) :
    (compareFlags outcome).holds 0x7 = some (decide (outcome = some .gt)) := by
  rcases outcome with _ | (_ | _ | _) <;> rfl

section Execution

variable (unit : FloatUnit)

namespace VectorInstruction

def execute (state : VectorState) : VectorInstruction → VectorState
  | load span destination source =>
    state.setVector destination (state.loaded span destination source)
  | store span (.memory address) source =>
    { state with
      core := state.core.store (state.core.address address)
        (ByteOrder.split span.bytes (state.vectors source)) }
  | store span (.register destination) source =>
    state.setVector destination (state.loaded span destination (.register source))
  | arithmetic op span destination source =>
    let left := state.vectors destination
    state.setVector destination
      (span.blend left (mapLanes (unit.arithmetic op) left (state.vectors source)))
  | compare left right =>
    let outcome := unit.compare (lane (state.vectors left) 0) (lane (state.vectors right) 0)
    { state with core := { state.core with flags := compareFlags outcome } }
  | fromInteger destination source =>
    state.setVector destination
      (withLow (state.vectors destination) (unit.ofInteger (state.core.registers source)))
  | toInteger destination source =>
    { state with
      core := state.core.setRegister destination
        (unit.toInteger (lane (state.vectors source) 0)) }
  | xor destination source =>
    state.setVector destination (state.vectors destination ^^^ state.vectors source)

end VectorInstruction

namespace Encoded

def executeVector (encoded : Encoded) (state : VectorState) : Option VectorState :=
  match encoded.vectorInstruction with
  | some instruction =>
    some (instruction.execute unit
      { state with core := { state.core with rip := state.core.rip + encoded.size } })
  | none => (encoded.execute state.core).map fun core => { state with core := core }

variable {unit} in
theorem executeVector_correct {encoded : Encoded} {instruction : VectorInstruction}
    (means : encoded.vectorInstruction = some instruction) (state : VectorState) :
    encoded.executeVector unit state = some (instruction.execute unit
      { state with core := { state.core with rip := state.core.rip + encoded.size } }) := by
  rw [executeVector, means]

end Encoded

def vectorStep (state : VectorState) : Option VectorState := do
  let (encoded, _) ← decode state.core.window
  encoded.executeVector unit state

def executeAllVector : List Encoded → VectorState → Option VectorState
  | [], state => some state
  | encoded :: rest, state => do
    let next ← encoded.executeVector unit state
    if next.core.rip = state.core.rip + encoded.size then executeAllVector rest next else some next

def vectorRun (bytes : List Byte) (state : VectorState) : Option VectorState := do
  let instructions ← sweep bytes
  executeAllVector unit instructions state

abbrev VectorSteps : VectorState → VectorState → Prop := Reachability.Reaches (vectorStep unit)

end Execution

def isIntegerOpcode (opcode : Byte) : Bool :=
  opcode = 0xAF || opcode = 0xB6 || opcode.extractLsb' 4 4 = 0x9

theorem integerOpcode_apart : ∀ opcode : Byte, isIntegerOpcode opcode = true →
    opcode ≠ 0x10 ∧ opcode ≠ 0x11 ∧ floatOp opcode = none ∧ opcode ≠ 0x2E := by
  decide

theorem Encoded.vectorInstruction_of_instruction {encoded : Encoded} {instruction : Instruction}
    (means : encoded.instruction = some instruction) : encoded.vectorInstruction = none := by
  cases legacy : encoded.legacy with
  | some byte => simp [Encoded.instruction, legacy] at means
  | none =>
    cases escape : encoded.escape with
    | false => simp [vectorInstruction, escape]
    | true =>
      cases modrm : encoded.modrm with
      | none => simp [vectorInstruction, modrm]
      | some modrm' =>
        have integer : encoded.escapedOperand modrm' = some instruction := by
          simpa [Encoded.instruction, legacy, escape, modrm] using means
        have kind : isIntegerOpcode encoded.opcode = true := by
          by_contra other
          simp only [isIntegerOpcode, Bool.or_eq_true, decide_eq_true_eq, not_or] at other
          simp only [escapedOperand, other, if_false] at integer
          cases integer
        obtain ⟨notLoad, notStore, notArithmetic, notCompare⟩ := integerOpcode_apart _ kind
        simp only [vectorInstruction, spanned, twoRegisters, legacy, escape, modrm, notLoad, notStore,
          notArithmetic, notCompare, if_false, and_false, false_and, Option.map_none,
          ite_self, reduceCtorEq, Option.none_or]

theorem vectorStep_of_step (unit : FloatUnit) {before after : State} (stepped : step before = some after)
    (vectors : Register → BitVec 128) :
    vectorStep unit { core := before, vectors := vectors } =
      some { core := after, vectors := vectors } := by
  obtain ⟨⟨encoded, rest⟩, decoded, executed⟩ := Option.bind_eq_some_iff.mp stepped
  obtain ⟨instruction, means, -⟩ := Option.bind_eq_some_iff.mp executed
  have integer := Encoded.vectorInstruction_of_instruction means
  simp only [vectorStep, decoded, bind, Option.bind_some, Encoded.executeVector, integer]
  have executes : encoded.execute before = some after := executed
  rw [executes, Option.map_some]

theorem vectorSteps_of_steps (unit : FloatUnit) {before after : State} (steps : Steps before after)
    (vectors : Register → BitVec 128) :
    VectorSteps unit { core := before, vectors := vectors } { core := after, vectors := vectors } := by
  induction steps with
  | refl => exact .refl _
  | tail _ last ih => exact ih.trans (.single (vectorStep_of_step unit last vectors))

section Rows

variable {unit : FloatUnit}

theorem vectorStep_loaded {state : VectorState} {encoded : Encoded}
    (wellFormed : encoded.WellFormed)
    (loaded : Loaded state.core.memory state.core.rip encoded.bytes) :
    vectorStep unit state = encoded.executeVector unit state := by
  obtain ⟨rest, window⟩ := window_loaded loaded (Encoded.bytes_length_le wellFormed)
  simp only [vectorStep, window, Encoded.decode_bytes wellFormed rest, bind, Option.bind_some]

theorem VectorInstruction.execute_rip (instruction : VectorInstruction) (state : VectorState) :
    (instruction.execute unit state).core.rip = state.core.rip := by
  cases instruction with
  | store span destination source => cases destination <;> rfl
  | _ => rfl

def VectorInstruction.WritesRegisters : VectorInstruction → Prop
  | store _ (.memory _) _ => False
  | _ => True

theorem VectorInstruction.execute_memory {instruction : VectorInstruction}
    (registers : instruction.WritesRegisters) (state : VectorState) :
    (instruction.execute unit state).core.memory = state.core.memory := by
  cases instruction with
  | store span destination source =>
    cases destination with
    | register index => rfl
    | memory address => exact registers.elim
  | _ => rfl

variable (unit) in
/-- Instructions of both kinds one behind the other, none of which jumps or writes memory. -/
def VectorRow : List Encoded → VectorState → VectorState → Prop
  | [], before, after => before = after
  | encoded :: rest, before, after =>
    encoded.WellFormed ∧ ∃ middle, encoded.executeVector unit before = some middle ∧
      middle.core.rip = before.core.rip + encoded.size ∧
      middle.core.memory = before.core.memory ∧ VectorRow rest middle after

namespace VectorRow

variable {row others : List Encoded} {before middle after : VectorState}

theorem append (first : VectorRow unit row before middle)
    (second : VectorRow unit others middle after) :
    VectorRow unit (row ++ others) before after := by
  induction row generalizing before with
  | nil =>
    have same : before = middle := first
    exact same ▸ second
  | cons encoded rest ih =>
    obtain ⟨wellFormed, next, executed, falls, memory, later⟩ := first
    exact ⟨wellFormed, next, executed, falls, memory, ih later⟩

theorem single {encoded : Encoded} {instruction : VectorInstruction}
    (wellFormed : encoded.WellFormed) (means : encoded.vectorInstruction = some instruction)
    (registers : instruction.WritesRegisters) (before : VectorState) :
    VectorRow unit [encoded] before (instruction.execute unit
      { before with core := { before.core with rip := before.core.rip + encoded.size } }) := by
  refine ⟨wellFormed, _, Encoded.executeVector_correct means before, instruction.execute_rip _, ?_, rfl⟩
  rw [VectorInstruction.execute_memory registers]

theorem of_straight {before after : State} (straight : Straight row before after)
    (wellFormed : ∀ encoded ∈ row, encoded.WellFormed)
    (keeps : ∀ encoded ∈ row, encoded.KeepsMemory) (vectors : Register → BitVec 128) :
    VectorRow unit row { core := before, vectors := vectors }
      { core := after, vectors := vectors } := by
  induction row generalizing before with
  | nil =>
    have same : before = after := straight
    exact same ▸ rfl
  | cons encoded rest ih =>
    obtain ⟨middle, executed, falls, later⟩ := straight
    obtain ⟨instruction, means, -⟩ := Option.bind_eq_some_iff.mp executed
    have integer := Encoded.vectorInstruction_of_instruction means
    refine ⟨wellFormed encoded (by simp), { core := middle, vectors := vectors }, ?_, falls,
      (keeps encoded (by simp)).execute executed,
      ih later (fun other member => wellFormed other (.tail _ member))
        fun other member => keeps other (.tail _ member)⟩
    simp only [Encoded.executeVector, integer, executed, Option.map_some]

theorem executeAllVector_append (ran : VectorRow unit row before middle) (others : List Encoded) :
    executeAllVector unit (row ++ others) before = executeAllVector unit others middle := by
  induction row generalizing before with
  | nil =>
    have same : before = middle := ran
    rw [List.nil_append, same]
  | cons encoded rest ih =>
    obtain ⟨-, next, executed, falls, -, later⟩ := ran
    simp only [List.cons_append, executeAllVector, executed, bind, Option.bind_some, falls, if_true]
    exact ih later

theorem wellFormed (ran : VectorRow unit row before after) : ∀ encoded ∈ row, encoded.WellFormed := by
  induction row generalizing before with
  | nil =>
    intro encoded member
    cases member
  | cons first rest ih =>
    obtain ⟨wellFormed, next, -, -, -, later⟩ := ran
    intro encoded member
    rcases List.mem_cons.mp member with rfl | inRest
    · exact wellFormed
    · exact ih later encoded inRest

theorem run_correct (ran : VectorRow unit row before after) :
    vectorRun unit (row.flatMap Encoded.bytes) before = some after := by
  have all := ran.executeAllVector_append []
  rw [List.append_nil] at all
  simp only [vectorRun, sweep_bytes row ran.wellFormed, bind, Option.bind_some, all, executeAllVector]

theorem run_last {last : Encoded} (ran : VectorRow unit row before middle)
    (wellFormed : last.WellFormed) (executed : last.executeVector unit middle = some after) :
    vectorRun unit (row.flatMap Encoded.bytes ++ last.bytes) before = some after := by
  have swept := sweep_bytes (row ++ [last]) (by
    intro encoded member
    rcases List.mem_append.mp member with inRow | isLast
    · exact ran.wellFormed encoded inRow
    · exact List.mem_singleton.mp isLast ▸ wellFormed)
  rw [List.flatMap_append, List.flatMap_singleton] at swept
  simp only [vectorRun, swept, bind, Option.bind_some, ran.executeAllVector_append, executeAllVector,
    executed, ite_self]

theorem memory (ran : VectorRow unit row before after) :
    after.core.memory = before.core.memory := by
  induction row generalizing before with
  | nil =>
    have same : before = after := ran
    rw [same]
  | cons encoded rest ih =>
    obtain ⟨-, middle, -, -, kept, later⟩ := ran
    exact (ih later).trans kept

theorem rip (ran : VectorRow unit row before after) : after.core.rip =
    before.core.rip + BitVec.ofNat 64 (row.flatMap Encoded.bytes).length := by
  induction row generalizing before with
  | nil =>
    have same : before = after := ran
    simp [same]
  | cons encoded rest ih =>
    obtain ⟨-, middle, -, falls, -, later⟩ := ran
    have behind := ih later
    rw [falls, Encoded.size] at behind
    rw [behind, List.flatMap_cons, List.length_append, BitVec.ofNat_add, BitVec.add_assoc]

theorem steps (ran : VectorRow unit row before after)
    (loaded : Loaded before.core.memory before.core.rip (row.flatMap Encoded.bytes)) :
    VectorSteps unit before after := by
  induction row generalizing before with
  | nil =>
    have same : before = after := ran
    exact same ▸ .refl _
  | cons encoded rest ih =>
    obtain ⟨wellFormed, middle, executed, falls, memory, later⟩ := ran
    obtain ⟨here, behind⟩ := (Loaded.append_iff _ _).mp loaded
    have first : VectorSteps unit before middle :=
      .single ((vectorStep_loaded wellFormed here).trans executed)
    have still : Loaded middle.core.memory middle.core.rip (rest.flatMap Encoded.bytes) := by
      rw [memory, falls]
      exact behind
    exact first.trans (ih later still)

theorem steps_last {last : Encoded} (ran : VectorRow unit row before middle)
    (wellFormed : last.WellFormed) (executed : last.executeVector unit middle = some after)
    (loaded : Loaded before.core.memory before.core.rip
      (row.flatMap Encoded.bytes ++ last.bytes)) : VectorSteps unit before after := by
  obtain ⟨front, behind⟩ := (Loaded.append_iff _ _).mp loaded
  rw [← ran.rip, ← ran.memory] at behind
  exact (ran.steps front).trans (.single ((vectorStep_loaded wellFormed behind).trans executed))

end VectorRow

end Rows

end X86
