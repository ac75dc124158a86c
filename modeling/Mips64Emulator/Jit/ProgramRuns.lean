import Mips64Emulator.Jit.LinkTables
import Mips64Emulator.Jit.VectorSimulation

set_option autoImplicit false

namespace Jit

open X86

theorem run_simulated {layout : Layout} {unit : FloatUnit} {source final : Source}
    {caller : Register → BitVec 64} {state : VectorState}
    (represents : Represents layout caller source state)
    (runs : Reachability.Reaches (Source.step layout unit) source final) :
    ∃ after, VectorSteps unit state after ∧ Represents layout caller final after :=
  runs.simulated (Represents layout caller)
    (fun _ _ _ kept stepped => step_simulated kept stepped) represents

def Layout.entry (layout : Layout) (state : VectorState) : Source :=
  { pc := 0, registers := fun index => state.core.registers (index.number layout.abi)
    result := none, returns := [], memory := state.core.memory, vectors := state.vectors }

theorem Layout.entry_represents {layout : Layout} {state : VectorState}
    (rip : state.core.rip = layout.base) (stack : state.core.registers rsp = layout.stackTop)
    (code : Loaded state.core.memory layout.base layout.code) :
    RepresentsCore layout state.core.registers (layout.entry state) state.core where
  rip := by
    rw [rip]
    exact (BitVec.add_zero _).symm
  registers _ := rfl
  result value known := by cases known
  stack := by
    rw [stack]
    exact (BitVec.sub_zero _).symm
  room := Nat.zero_le _
  returns n pc pushed := by cases pushed
  memory _ _ := rfl
  code := code
  spared _ _ := rfl

section Compiled

def Layout.emission (layout : Layout) (leftover : Leftover) : JitParsing :=
  JitParsing.start.performCalls layout.base leftover layout.calls

def Layout.emitted (layout : Layout) (leftover : Leftover) : List Byte :=
  (layout.emission leftover).buffer

theorem Layout.emitted_correct (layout : Layout) (leftover : Leftover) :
    layout.emitted leftover = layout.code :=
  (start_correct layout.base leftover layout.calls).buffer

theorem Statement.toCall_plain (abi : Abi) (statement : Statement) :
    (statement.toCall abi).isLoadf = false := by
  cases statement with
  | operate op d s t => cases op <;> rfl
  | shift op d s t => cases op <;> rfl
  | load width d b o => cases width <;> rfl
  | store width b v => cases width <;> rfl
  | float statement =>
    cases statement with
    | operatef op span d s t => cases op <;> cases span <;> rfl
    | storef span b o v => cases span <;> rfl
    | _ => rfl
  | _ => rfl

-- No call of a program stores through what was left in the tables.
theorem Layout.emission_elsewhere (layout : Layout) (leftover : Leftover) :
    (layout.emission leftover).elsewhere = [] := by
  have plain : layout.calls.countP JitCall.isLoadf = 0 := by
    apply List.countP_eq_zero.mpr
    intro call member
    obtain ⟨statement, -, rfl⟩ := List.mem_map.mp member
    simp [statement.toCall_plain]
  exact List.length_eq_zero_iff.mp
    ((start_correct layout.base leftover layout.calls).elsewhere.trans plain)

/-- The caller has put the emitted code in place and jumps to its start. -/
structure Layout.Called (layout : Layout) (leftover : Leftover) (state : VectorState) : Prop where
  rip : state.core.rip = layout.base
  stack : state.core.registers rsp = layout.stackTop
  code : Loaded state.core.memory layout.base (layout.emitted leftover)

variable {layout : Layout} {leftover : Leftover} {unit : FloatUnit} {state : VectorState}
  (called : layout.Called leftover state)

include called

theorem Layout.Called.represents :
    Represents layout state.core.registers (layout.entry state) state :=
  ⟨Layout.entry_represents called.rip called.stack (layout.emitted_correct leftover ▸ called.code),
    rfl⟩

/-- Emitting the calls stores nothing through the old tables, and the machine runs their code. -/
theorem program_simulated {final : Source}
    (runs : Reachability.Reaches (Source.step layout unit) (layout.entry state) final) :
    (layout.emission leftover).elsewhere = [] ∧ ∃ after, VectorSteps unit state after ∧
      Represents layout state.core.registers final after :=
  ⟨layout.emission_elsewhere leftover, run_simulated called.represents runs⟩

section Return

variable {final : Source}
  (runs : Reachability.Reaches (Source.step layout unit) (layout.entry state) final)
  (atReturn : layout.program[final.pc]? = some .return) (outermost : final.returns = [])

include runs atReturn outermost

end Return

end Compiled

-- Counts down from 2 to 0 in a loop, clears a vector register and returns the step.
def countdownProgram : List Statement :=
  [.constant (.register .r1) 2, .constant (.register .r2) 1,
    .operate .sub (.register .r1) (.register .r1) (.register .r2),
    .nbranch (.register .r1) .r0 (-21), .float (.itof ⟨3, by decide⟩ .r0),
    .operate .or .re (.register .r2) (.register .r2), .return]

theorem countdownProgram_faithful :
    ∀ statement ∈ countdownProgram, statement.Faithful .systemV := by decide

theorem countdownProgram_length : (programCode .systemV countdownProgram).length = 44 := by decide

theorem countdownStack_apart (address : BitVec 64)
    (onStack : Covers (0x9000#64 - BitVec.ofNat 64 (8 * (1 + 1))) (8 * (1 + 1)) address) :
    ¬ Covers 0x1000#64 (programCode .systemV countdownProgram).length address := by
  intro inCode
  rw [countdownProgram_length] at inCode
  simp only [Covers, BitVec.toNat_sub, BitVec.toNat_ofNat] at onStack inCode
  omega

def countdown : Layout where
  abi := .systemV
  program := countdownProgram
  base := 0x1000#64
  stackTop := 0x9000#64
  depth := 1
  faithful := countdownProgram_faithful
  codeFits := by decide
  stackFits := by decide
  apart := countdownStack_apart

-- The caller goes on at 0x5000.
def countdownCalled : VectorState where
  core := State.store
    { registers := fun index => if index = rsp then countdown.stackTop else 0
      flags := Flags.undefined, memory := fun address => if address = 0x9001#64 then 0x50 else 0
      rip := countdown.base }
    countdown.base countdown.code
  vectors := fun _ => 1

def noFloats : FloatUnit where
  arithmetic _ left _ := left
  compare _ _ := none
  ofInteger _ := 0
  toInteger _ := 0
  ofInteger_zero := rfl

theorem countdown_called :
    countdown.Called { buffer := fun _ => 0, info1 := fun _ => 0 } countdownCalled where
  rip := rfl
  stack := rfl
  code := by
    rw [Layout.emitted_correct]
    exact State.store_loaded _ _ _ countdown.codeFits

-- The loop is left after its second round.
theorem program_simulated_countdown : ∃ final after, VectorSteps noFloats countdownCalled after ∧
    Represents countdown countdownCalled.core.registers final after ∧ final.pc = 4 ∧
    final.registers .r1 = 0 := by
  obtain ⟨-, after, steps, represents⟩ :=
    program_simulated countdown_called (Reachability.Reaches.of_steps 6 rfl)
  exact ⟨_, after, steps, represents, rfl, rfl⟩

end Jit
