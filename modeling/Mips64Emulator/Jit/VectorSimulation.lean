import Mips64Emulator.Jit.ProgramSimulation

set_option autoImplicit false

namespace Jit

open X86

structure Represents (layout : Layout) (caller : Register → BitVec 64) (source : Source)
    (state : VectorState) : Prop where
  core : RepresentsCore layout caller source state.core
  vectors : state.vectors = source.vectors

section Outcomes

variable {layout : Layout} {unit : FloatUnit} {source next : Source}

theorem Source.place_top {start : BitVec 64} {bytes : List Byte}
    (writable : Writable layout start bytes.length) (address : BitVec 64)
    (onTop : layout.OnTop address) :
    (source.place start bytes).memory address = source.memory address := by
  have outside : ¬ Covers start bytes.length address := fun covered =>
    (writable_covers writable covered).2.1 onTop
  have past : bytes[(address - start).toNat]? = none :=
    List.getElem?_eq_none (Nat.le_of_not_lt outside)
  simp only [place, past, Option.getD_none]

/-- What one call does to the registers: it writes its destination, of either kind, or none. The
return address of the caller stays where it is. -/
inductive Source.Outcome (layout : Layout) (source : Source) (statement : Statement) :
    Source → Prop where
  | writes (d : JitTarget) (value : BitVec 64) (named : statement.destination = some d) :
      Outcome layout source statement (source.write value d)
  | writesVector (d : Register) (value : BitVec 128)
      (named : statement.vectorDestination = some d) :
      Outcome layout source statement (source.writeVector value d)
  | moves (pc : Nat) (result : Option (BitVec 64)) (returns : List Nat)
      (memory : BitVec 64 → Byte)
      (kept : ∀ address, layout.OnTop address → memory address = source.memory address) :
      Outcome layout source statement
        { source with pc := pc, result := result, returns := returns, memory := memory }

theorem Source.jump_outcome (statement : Statement) {o : BitVec 32}
    (jumped : source.jump layout o = some next) : source.Outcome layout statement next := by
  obtain ⟨target, -, same⟩ := Option.bind_eq_some_iff.mp jumped
  cases same
  exact .moves target none source.returns source.memory fun _ _ => rfl

theorem Source.decideJump_outcome (statement : Statement) {taken : Bool} {o : BitVec 32}
    (decided : source.decideJump layout taken o = some next) : source.Outcome layout statement next := by
  cases taken with
  | true => exact jump_outcome statement decided
  | false =>
    cases decided
    exact .moves (source.pc + 1) none source.returns source.memory fun _ _ => rfl

theorem Source.enter_outcome (statement : Statement) {address : BitVec 64}
    (entered : source.enter layout address = some next) : source.Outcome layout statement next := by
  obtain ⟨target, -, room⟩ := Option.bind_eq_some_iff.mp entered
  split at room
  · cases room
    exact .moves target source.result _ source.memory fun _ _ => rfl
  · cases room

theorem Source.performFloat_outcome {statement : FloatStatement}
    (performed : source.performFloat layout unit statement = some next) :
    source.Outcome layout (.float statement) next := by
  cases statement with
  | operatef op span d s t =>
    cases performed
    exact .writesVector d _ rfl
  | lessf d s t =>
    cases performed
    exact .writes d _ rfl
  | itof d s =>
    obtain ⟨value, -, performed⟩ := Option.bind_eq_some_iff.mp performed
    cases performed
    exact .writesVector d _ rfl
  | ftoi d s =>
    cases performed
    exact .writes d _ rfl
  | loadf4 d b o =>
    simp only [performFloat] at performed
    split at performed <;> cases performed
    exact .writesVector d _ rfl
  | storef span b o v =>
    simp only [performFloat] at performed
    split at performed
    next writable =>
      cases performed
      refine .moves _ none source.returns _ (source.place_top ?_)
      rwa [ByteOrder.split_length]
    next => cases performed

theorem Source.perform_outcome {statement : Statement}
    (performed : source.perform layout unit statement = some next) :
    source.Outcome layout statement next := by
  cases statement with
  | operate op d s t =>
    obtain ⟨left, -, performed⟩ := Option.bind_eq_some_iff.mp performed
    obtain ⟨right, -, performed⟩ := Option.bind_eq_some_iff.mp performed
    cases performed
    exact .writes d _ rfl
  | shift op d s t =>
    obtain ⟨operand, -, performed⟩ := Option.bind_eq_some_iff.mp performed
    obtain ⟨count, -, performed⟩ := Option.bind_eq_some_iff.mp performed
    cases performed
    exact .writes d _ rfl
  | divide d s t =>
    obtain ⟨left, -, performed⟩ := Option.bind_eq_some_iff.mp performed
    obtain ⟨right, -, performed⟩ := Option.bind_eq_some_iff.mp performed
    split at performed <;> cases performed
    exact .writes d _ rfl
  | constant d i =>
    cases performed
    exact .writes d _ rfl
  | load width d b o =>
    simp only [perform] at performed
    split at performed <;> cases performed
    exact .writes d _ rfl
  | store width b v =>
    simp only [perform] at performed
    split at performed
    next writable =>
      cases performed
      refine .moves _ source.result source.returns _ (source.place_top ?_)
      rwa [ByteOrder.split_length]
    next => cases performed
  | jump o => exact jump_outcome _ performed
  | branch s t o | nbranch s t o =>
    obtain ⟨left, -, performed⟩ := Option.bind_eq_some_iff.mp performed
    obtain ⟨right, -, performed⟩ := Option.bind_eq_some_iff.mp performed
    exact decideJump_outcome _ performed
  | call o => exact enter_outcome _ performed
  | callex s =>
    obtain ⟨address, -, performed⟩ := Option.bind_eq_some_iff.mp performed
    exact enter_outcome _ performed
  | «return» =>
    simp only [perform] at performed
    split at performed <;> cases performed
    exact .moves _ source.result _ source.memory fun _ _ => rfl
  | float statement => exact performFloat_outcome performed

namespace Source.Outcome

variable {statement : Statement} (outcome : source.Outcome layout statement next)

include outcome

theorem registers (index : JitRegister) (spared : statement.destination ≠ some (.register index)) :
    next.registers index = source.registers index := by
  cases outcome with
  | writes d value named =>
    cases d with
    | re => rfl
    | register target =>
      have other : index ≠ target := by
        rintro rfl
        exact spared named
      exact Function.update_of_ne other value source.registers
  | writesVector d value named => rfl
  | moves pc result returns memory kept => rfl

theorem vectors (register : Register) (spared : statement.vectorDestination ≠ some register) :
    next.vectors register = source.vectors register := by
  cases outcome with
  | writes d value named => cases d <;> rfl
  | writesVector d value named =>
    have other : register ≠ d := by
      rintro rfl
      exact spared named
    exact Function.update_of_ne other value source.vectors
  | moves pc result returns memory kept => rfl

theorem top {address : BitVec 64} (onTop : layout.OnTop address) :
    next.memory address = source.memory address := by
  cases outcome with
  | writes d value named => cases d <;> rfl
  | writesVector d value named => rfl
  | moves pc result returns memory kept => exact kept address onTop

end Source.Outcome

end Outcomes

theorem RepresentsCore.withVectors {layout : Layout} {caller : Register → BitVec 64}
    {source : Source} {state : State} (represents : RepresentsCore layout caller source state)
    (vectors : Register → BitVec 128) :
    RepresentsCore layout caller { source with vectors := vectors } state :=
  ⟨represents.rip, represents.registers, represents.result, represents.stack, represents.room,
    represents.returns, represents.memory, represents.code, represents.spared⟩

section Simulation

variable {layout : Layout} {unit : FloatUnit} {caller : Register → BitVec 64}
  {source next : Source} {state : VectorState} (represents : Represents layout caller source state)

include represents

section Rows

variable {statement : Statement} (found : layout.program[source.pc]? = some statement)
  {after : VectorState} (row : CallRow unit (statement.toCall layout.abi) state after)

include found row

theorem Represents.row_steps : VectorSteps unit state after :=
  row.steps (represents.core.loaded found)

theorem Represents.write {d : JitTarget} {value : BitVec 64}
    (destination : after.core.registers (d.number layout.abi) = value)
    (others : ∀ other, other ≠ d.number layout.abi → other ≠ rax →
      after.core.registers other = state.core.registers other)
    (vectors : after.vectors = state.vectors) :
    Represents layout caller (source.write value d) after where
  core := represents.core.write found row.fallsThrough destination others
  vectors := by
    rw [vectors, represents.vectors]
    cases d <;> rfl

theorem Represents.writeVector {d : Register} {value : BitVec 128}
    (registers : ∀ other, other ≠ rax → after.core.registers other = state.core.registers other)
    (vectors : after.vectors = Function.update source.vectors d value) :
    Represents layout caller (source.writeVector value d) after where
  core := by
    have rip := row.fallsThrough.rip
    rw [represents.core.rip, ← Layout.address_next found] at rip
    have moved := represents.core.move rip (VectorRow.memory row) registers
    exact moved.withVectors _
  vectors := vectors

end Rows

theorem operatef_simulated {op : FloatOp} {span : Span} {d s t : Register}
    (found : layout.program[source.pc]? = some (.float (.operatef op span d s t)))
    (faithful : d = t → s = t)
    (performed : source.performFloat layout unit (.operatef op span d s t) = some next) :
    ∃ after, VectorSteps unit state after ∧ Represents layout caller next after := by
  cases performed
  obtain ⟨after, row, registers, vectors⟩ := operatef_row unit state op span d s t
  have second : (if d = t then s else t) = t := by
    split
    next overwritten => exact faithful overwritten
    next => rfl
  rw [second, represents.vectors] at vectors
  exact ⟨after, represents.row_steps found row,
    represents.writeVector found row (fun other _ => congrFun registers other) vectors⟩

theorem lessf_simulated {d : JitTarget} {s t : Register}
    (found : layout.program[source.pc]? = some (.float (.lessf d s t)))
    (performed : source.performFloat layout unit (.lessf d s t) = some next) :
    ∃ after, VectorSteps unit state after ∧ Represents layout caller next after := by
  cases performed
  obtain ⟨after, row, destination, others, vectors⟩ := lessf_row unit state (d.number layout.abi) s t
  rw [represents.vectors] at destination
  exact ⟨after, represents.row_steps found row,
    represents.write found row destination others vectors⟩

theorem itof_simulated {d : Register} {s : JitInteger}
    (found : layout.program[source.pc]? = some (.float (.itof d s)))
    (performed : source.performFloat layout unit (.itof d s) = some next) :
    ∃ after, VectorSteps unit state after ∧ Represents layout caller next after := by
  obtain ⟨value, known, performed⟩ := Option.bind_eq_some_iff.mp performed
  cases performed
  obtain ⟨after, row, registers, vectors⟩ := itof_row unit state d (s.number? layout.abi)
  have read : operandValue state.core.registers (s.number? layout.abi) = value :=
    represents.core.value known
  rw [represents.vectors, read] at vectors
  exact ⟨after, represents.row_steps found row,
    represents.writeVector found row (fun other _ => congrFun registers other) vectors⟩

theorem ftoi_simulated {d : JitTarget} {s : Register}
    (found : layout.program[source.pc]? = some (.float (.ftoi d s)))
    (performed : source.performFloat layout unit (.ftoi d s) = some next) :
    ∃ after, VectorSteps unit state after ∧ Represents layout caller next after := by
  cases performed
  obtain ⟨after, row, registers, vectors⟩ := ftoi_row unit state (d.number layout.abi) s
  rw [represents.vectors] at registers
  refine ⟨after, represents.row_steps found row, represents.write found row ?_ ?_ vectors⟩
  · rw [registers, Function.update_self]
  · intro other notDestination _
    rw [registers, Function.update_of_ne notDestination]

theorem loadf4_simulated {d : Register} {b : JitBase} {o : BitVec 32}
    (found : layout.program[source.pc]? = some (.float (.loadf4 d b o)))
    (faithful : b.number layout.abi ≠ r12)
    (performed : source.performFloat layout unit (.loadf4 d b o) = some next) :
    ∃ after, VectorSteps unit state after ∧ Represents layout caller next after := by
  simp only [Source.performFloat] at performed
  split at performed
  next readable =>
    cases performed
    obtain ⟨after, row, registers, vectors⟩ :=
      loadf_row .packed (b.number layout.abi) d o unit state faithful
    rw [represents.vectors, represents.core.baseValue b, represents.core.load_eq readable] at vectors
    exact ⟨after, represents.row_steps found row,
      represents.writeVector found row registers vectors⟩
  next => cases performed

theorem storef_simulated {span : Span} {b : JitBase} {o : BitVec 32} {v : Register}
    (found : layout.program[source.pc]? = some (.float (.storef span b o v)))
    (faithful : b.number layout.abi ≠ r12)
    (performed : source.performFloat layout unit (.storef span b o v) = some next) :
    ∃ after, VectorSteps unit state after ∧ Represents layout caller next after := by
  simp only [Source.performFloat] at performed
  split at performed
  next writable =>
    cases performed
    obtain ⟨front, last, moved, after, code, row, wellFormed, executed, rip, registers, memory,
      vectors⟩ := storef_row span (b.number layout.abi) v o unit state faithful
    have loaded := represents.core.loaded found
    simp only [Statement.toCall, FloatStatement.toCall, JitBase.int, code] at loaded
    rw [represents.vectors, represents.core.baseValue b] at memory
    rw [represents.core.rip] at rip
    have behind := rip.trans (Layout.address_next found).symm
    have length : (ByteOrder.split span.bytes (source.vectors v)).length = span.bytes := by simp
    refine ⟨after, row.steps_last wellFormed executed loaded, ?_, vectors.trans represents.vectors⟩
    exact represents.core.place (length.symm ▸ writable) behind registers (by simp) memory
  next => cases performed

theorem step_simulated (stepped : source.step layout unit = some next) :
    ∃ after, VectorSteps unit state after ∧ Represents layout caller next after := by
  obtain ⟨statement, found, performed⟩ := Option.bind_eq_some_iff.mp stepped
  by_cases integer : ∀ float, statement ≠ .float float
  · obtain ⟨core, steps, kept⟩ := core_simulated represents.core found integer performed
    have untouched : statement.vectorDestination = none := by
      cases statement with
      | float float => exact (integer float rfl).elim
      | _ => rfl
    have vectors : next.vectors = source.vectors := by
      funext register
      apply (Source.perform_outcome performed).vectors
      rw [untouched]
      exact (Option.some_ne_none register).symm
    exact ⟨_, vectorSteps_of_steps unit steps state.vectors, kept,
      represents.vectors.trans vectors.symm⟩
  · obtain ⟨float, rfl⟩ : ∃ float, statement = .float float := by simpa using integer
    have faithful := layout.faithful _ (List.mem_of_getElem? found)
    cases float with
    | operatef op span d s t => exact operatef_simulated represents found faithful performed
    | lessf d s t => exact lessf_simulated represents found performed
    | itof d s => exact itof_simulated represents found performed
    | ftoi d s => exact ftoi_simulated represents found performed
    | loadf4 d b o => exact loadf4_simulated represents found faithful performed
    | storef span b o v => exact storef_simulated represents found faithful performed

end Simulation

end Jit
