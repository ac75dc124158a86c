import Mips64Emulator.X86.Machine

set_option autoImplicit false

namespace X86

def Straight : List Encoded → State → State → Prop
  | [], before, after => before = after
  | encoded :: rest, before, after =>
    ∃ middle, encoded.execute before = some middle ∧ middle.rip = before.rip + encoded.size ∧
      Straight rest middle after

theorem executeAll_single (encoded : Encoded) (state : State) :
    executeAll [encoded] state = encoded.execute state := by
  cases executed : encoded.execute state with
  | none => simp [executeAll, executed]
  | some next => simp [executeAll, executed]

theorem run_bytes (instructions : List Encoded)
    (wellFormed : ∀ encoded ∈ instructions, encoded.WellFormed) (state : State) :
    run (instructions.flatMap Encoded.bytes) state = executeAll instructions state := by
  simp only [run, sweep_bytes instructions wellFormed, bind, Option.bind_some]

namespace Straight

variable {instructions others : List Encoded} {before middle after : State}

theorem single {encoded : Encoded} (executed : encoded.execute before = some after)
    (falls : after.rip = before.rip + encoded.size) : Straight [encoded] before after :=
  ⟨after, executed, falls, rfl⟩

theorem append (first : Straight instructions before middle) (second : Straight others middle after) :
    Straight (instructions ++ others) before after := by
  induction instructions generalizing before with
  | nil =>
    have same : before = middle := first
    exact same ▸ second
  | cons encoded rest ih =>
    obtain ⟨next, executed, falls, later⟩ := first
    exact ⟨next, executed, falls, ih later⟩

theorem executeAll_append (straight : Straight instructions before after) (others : List Encoded) :
    executeAll (instructions ++ others) before = executeAll others after := by
  induction instructions generalizing before with
  | nil =>
    have same : before = after := straight
    rw [List.nil_append, same]
  | cons encoded rest ih =>
    obtain ⟨next, executed, falls, later⟩ := straight
    simp only [List.cons_append, executeAll, executed, bind, Option.bind_some, falls, if_true]
    exact ih later

theorem rip (straight : Straight instructions before after) :
    after.rip = before.rip + BitVec.ofNat 64 (instructions.flatMap Encoded.bytes).length := by
  induction instructions generalizing before with
  | nil =>
    have same : before = after := straight
    simp [same]
  | cons encoded rest ih =>
    obtain ⟨next, -, falls, later⟩ := straight
    have behind := ih later
    rw [falls, Encoded.size] at behind
    rw [behind, List.flatMap_cons, List.length_append, BitVec.ofNat_add, BitVec.add_assoc]

theorem run_correct (straight : Straight instructions before after)
    (wellFormed : ∀ encoded ∈ instructions, encoded.WellFormed) :
    run (instructions.flatMap Encoded.bytes) before = some after := by
  have all := straight.executeAll_append []
  rw [List.append_nil] at all
  exact (run_bytes instructions wellFormed before).trans all

theorem executeAll_fault {encoded : Encoded} (straight : Straight instructions before middle)
    (fault : encoded.execute middle = none) (others : List Encoded) :
    executeAll (instructions ++ encoded :: others) before = none := by
  rw [straight.executeAll_append, executeAll, fault]
  rfl

end Straight

/-- Straight-line code that leaves memory alone and whose registers depend on the registers only. -/
structure Transforms (instructions : List Encoded)
    (registers : (Register → BitVec 64) → Register → BitVec 64) : Prop where
  wellFormed : ∀ encoded ∈ instructions, encoded.WellFormed
  straight : ∀ before, ∃ after, Straight instructions before after ∧
    after.registers = registers before.registers ∧ after.memory = before.memory

namespace Transforms

variable {instructions others : List Encoded}
  {registers registers' : (Register → BitVec 64) → Register → BitVec 64}

theorem nil : Transforms [] id where
  wellFormed := by simp
  straight before := ⟨before, rfl, rfl, rfl⟩

theorem single {encoded : Encoded} {instruction : Instruction} (wellFormed : encoded.WellFormed)
    (means : encoded.instruction = some instruction)
    (executes : ∀ state : State, ∃ after, instruction.execute state = some after ∧
      after.registers = registers state.registers ∧ after.memory = state.memory ∧
      after.rip = state.rip) :
    Transforms [encoded] registers where
  wellFormed := by simpa using wellFormed
  straight before := by
    obtain ⟨after, executed, afterRegisters, memory, falls⟩ :=
      executes { before with rip := before.rip + encoded.size }
    have ran : encoded.execute before = some after := by
      simp [Encoded.execute, means, executed]
    exact ⟨after, Straight.single ran falls, afterRegisters, memory⟩

theorem append (first : Transforms instructions registers) (second : Transforms others registers') :
    Transforms (instructions ++ others) (fun initial => registers' (registers initial)) where
  wellFormed encoded member := by
    cases List.mem_append.mp member with
    | inl inFirst => exact first.wellFormed encoded inFirst
    | inr inSecond => exact second.wellFormed encoded inSecond
  straight before := by
    obtain ⟨middle, reaches, middleRegisters, middleMemory⟩ := first.straight before
    obtain ⟨after, arrives, afterRegisters, afterMemory⟩ := second.straight middle
    have memory : after.memory = before.memory := afterMemory.trans middleMemory
    rw [middleRegisters] at afterRegisters
    exact ⟨after, reaches.append arrives, afterRegisters, memory⟩

theorem run_correct (transforms : Transforms instructions registers) (before : State) :
    ∃ after, run (instructions.flatMap Encoded.bytes) before = some after ∧
      after.registers = registers before.registers ∧ after.memory = before.memory ∧
      after.rip = before.rip + BitVec.ofNat 64 (instructions.flatMap Encoded.bytes).length := by
  obtain ⟨after, straight, afterRegisters, memory⟩ := transforms.straight before
  have ran := straight.run_correct transforms.wellFormed
  exact ⟨after, ran, afterRegisters, memory, straight.rip⟩

theorem run_append (transforms : Transforms instructions registers)
    (wellFormed : ∀ encoded ∈ others, encoded.WellFormed) (before : State) :
    ∃ middle, run ((instructions ++ others).flatMap Encoded.bytes) before =
        executeAll others middle ∧
      middle.registers = registers before.registers ∧ middle.memory = before.memory ∧
      middle.rip = before.rip + BitVec.ofNat 64 (instructions.flatMap Encoded.bytes).length := by
  obtain ⟨middle, straight, middleRegisters, memory⟩ := transforms.straight before
  have all : ∀ encoded ∈ instructions ++ others, encoded.WellFormed := by
    intro encoded member
    cases List.mem_append.mp member with
    | inl inFirst => exact transforms.wellFormed encoded inFirst
    | inr inSecond => exact wellFormed encoded inSecond
  refine ⟨middle, ?_, middleRegisters, memory, straight.rip⟩
  rw [run_bytes _ all, straight.executeAll_append]

end Transforms

end X86
