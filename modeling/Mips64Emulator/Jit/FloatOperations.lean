import Mips64Emulator.Jit.FloatCode

set_option autoImplicit false

namespace Jit

open X86 EncoderUse

section Operations

variable (unit : FloatUnit) (op : FloatOp) (span : Span) (d s t : Register) (before : VectorState)

def FloatComputes : Prop :=
  let call := floatCall (intOfRegister d) (intOfRegister s) (intOfRegister t) op span
  ∃ after, vectorRun unit call.code before = some after ∧
    after.core.rip = before.core.rip + BitVec.ofNat 64 call.code.length ∧
    after.core.registers = before.core.registers ∧ after.core.memory = before.core.memory ∧
    after.vectors = Function.update before.vectors d (span.blend (before.vectors d)
      (mapLanes (unit.arithmetic op) (before.vectors s) (before.vectors t)))

/-- The operation is right unless the first move overwrites a second operand that would have given
another result. -/
theorem floatOperation_computes_iff : FloatComputes unit op span d s t before ↔
    (d = t → s ≠ t →
      span.blend (before.vectors d)
          (mapLanes (unit.arithmetic op) (before.vectors s) (before.vectors s)) =
        span.blend (before.vectors d)
          (mapLanes (unit.arithmetic op) (before.vectors s) (before.vectors t))) := by
  obtain ⟨after, row, registers, vectors⟩ := operatef_row unit before op span d s t
  have ran := row.run_correct
  have computes : FloatComputes unit op span d s t before ↔
      span.blend (before.vectors d) (mapLanes (unit.arithmetic op) (before.vectors s)
          (before.vectors (if d = t then s else t))) =
        span.blend (before.vectors d)
          (mapLanes (unit.arithmetic op) (before.vectors s) (before.vectors t)) := by
    constructor
    · rintro ⟨other, ran', -, -, -, result⟩
      obtain rfl : other = after := Option.some.inj (ran'.symm.trans ran)
      rw [vectors] at result
      simpa using congrFun result d
    · intro same
      rw [same] at vectors
      exact ⟨after, ran, row.fallsThrough.rip, registers, VectorRow.memory row, vectors⟩
  rw [computes]
  by_cases overwritten : d = t
  · by_cases same : s = t
    · simp [overwritten, same]
    · simp [overwritten, same]
  · simp [overwritten]

end Operations

section Comparison

variable (unit : FloatUnit) (d s t : Register) (before : VectorState)

def floatOrder : Option Ordering :=
  unit.compare (lane (before.vectors s) 0) (lane (before.vectors t) 0)

def LeavesOutcome (outcome : Prop) [Decidable outcome] : Prop :=
  let call := JitCall.lessf (intOfRegister d) (intOfRegister s) (intOfRegister t)
  ∃ after, vectorRun unit call.code before = some after ∧
    after.core.rip = before.core.rip + BitVec.ofNat 64 call.code.length ∧
    after.core.memory = before.core.memory ∧ after.vectors = before.vectors ∧
    after.core.registers d = (if outcome then 1 else 0) ∧
    ∀ other, other ≠ d → other ≠ rax → after.core.registers other = before.core.registers other

theorem leavesOutcome_iff (outcome : Prop) [Decidable outcome] :
    LeavesOutcome unit d s t before outcome ↔ (floatOrder unit s t before = some .gt ↔ outcome) := by
  obtain ⟨after, row, destination, others, vectors⟩ := lessf_row unit before d s t
  have ran := row.run_correct
  have greater : after.core.registers d =
      (if floatOrder unit s t before = some .gt then 1 else 0) := destination
  constructor
  · rintro ⟨other, ran', -, -, -, result, -⟩
    obtain rfl : other = after := Option.some.inj (ran'.symm.trans ran)
    rw [greater] at result
    by_cases above : floatOrder unit s t before = some .gt <;> by_cases holds : outcome <;>
      simp_all
  · intro same
    refine ⟨after, ran, row.fallsThrough.rip, VectorRow.memory row, vectors, ?_, others⟩
    rw [greater, if_congr same rfl rfl]

/-- `JIT_LESSF` tells whether its first operand is greater, so it tells whether it is less only where
neither holds. -/
theorem lessf_compares :
    LeavesOutcome unit d s t before (floatOrder unit s t before = some .gt) ∧
    (LeavesOutcome unit d s t before (floatOrder unit s t before = some .lt) ↔
      floatOrder unit s t before = none ∨ floatOrder unit s t before = some .eq) := by
  rw [leavesOutcome_iff, leavesOutcome_iff]
  refine ⟨Iff.rfl, ?_⟩
  rcases floatOrder unit s t before with _ | (_ | _ | _) <;> simp

end Comparison

section RoundTrip

variable (unit : FloatUnit) (abi : Abi) (span : Span) (d v : Register) (b : JitBase) (o : BitVec 32)
  (before : VectorState)

def FloatRoundTrips : Prop :=
  let start := before.core.registers (b.number abi) + o.signExtend 64
  let store := storefCall (b.int abi) o (intOfRegister v) span
  let load := loadfCall (intOfRegister d) (b.int abi) o span
  ∃ stored, vectorRun unit store.code before = some stored ∧
    stored.core.memory =
      (before.core.store start (ByteOrder.split span.bytes (before.vectors v))).memory ∧
    (∀ other, other ≠ rax → stored.core.registers other = before.core.registers other) ∧
    stored.vectors = before.vectors ∧
    ∃ loaded, vectorRun unit load.code stored = some loaded ∧
      loaded.core.memory = stored.core.memory ∧
      (∀ other, other ≠ rax → loaded.core.registers other = before.core.registers other) ∧
      loaded.vectors = Function.update before.vectors d
        (((before.vectors v).setWidth (8 * span.bytes)).setWidth 128)

theorem storef_unfinished : vectorRun unit (storefCall (intOfRegister r12) o (intOfRegister v) span).code
    before = none := by
  obtain ⟨access, uses, accesses⟩ := storef_uses span r12 v o
  have direct : throughStackPointer access (intOfRegister r12) = [access (intOfRegister r12)] :=
    if_neg (by decide)
  have code : (storefCall (intOfRegister r12) o (intOfRegister v) span).code =
      (vectorMemoryForm span r12 v o 0x11).bytes := by
    rw [JitCall.code, usesBytes_correct, uses, direct, instructions_single, accesses,
      List.flatMap_singleton]
  have unfinished : decode (vectorMemoryForm span r12 v o 0x11).bytes = none :=
    memoryForm_unfinished _ _ o false (legacy_accepted span) rfl (by decide)
  simp only [vectorRun, code, sweep_unfinished unfinished Encoded.bytes_ne_nil, bind,
    Option.bind_none]

theorem floatMemory_roundTrips_iff :
    FloatRoundTrips unit abi span d v b o before ↔ b.number abi ≠ r12 := by
  constructor
  · rintro ⟨stored, ran, -⟩ twelfth
    have unfinished := storef_unfinished unit span v o before
    rw [← twelfth] at unfinished
    exact Option.some_ne_none stored (ran.symm.trans unfinished)
  · intro plainBase
    obtain ⟨front, last, moved, stored, code, row, wellFormed, executed, -, registers, memory,
      vectors⟩ := storef_row span (b.number abi) v o unit before plainBase
    have ran := row.run_last wellFormed executed
    obtain ⟨loaded, loads, loadedRegisters, loadedVectors⟩ :=
      loadf_row span (b.number abi) d o unit stored plainBase
    have base : stored.core.registers (b.number abi) = before.core.registers (b.number abi) := by
      apply registers
      cases b with
      | sp => exact (by decide : rsp ≠ rax)
      | register index => exact index.number_ne_rax abi
    have bounded : span.bytes ≤ 2 ^ 64 := by
      cases span <;> decide
    have found := State.load_stored before.core stored.core _ span.bytes _ bounded memory
    rw [base, found, vectors] at loadedVectors
    refine ⟨stored, code ▸ ran, memory, registers, vectors, loaded, loads.run_correct,
      VectorRow.memory loads, ?_, loadedVectors⟩
    intro other notRax
    exact (loadedRegisters other notRax).trans (registers other notRax)

end RoundTrip

end Jit
