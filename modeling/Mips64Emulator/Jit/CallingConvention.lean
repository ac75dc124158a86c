import Mips64Emulator.Jit.ProgramRuns

set_option autoImplicit false

namespace Jit

open X86

section Runs

variable (layout : Layout)

def Layout.Writes (target : JitTarget) : Prop :=
  ∃ statement ∈ layout.program, statement.destination = some target

def Layout.WritesVector (register : Register) : Prop :=
  ∃ statement ∈ layout.program, statement.vectorDestination = some register

structure Source.Keeps (entry source : Source) : Prop where
  registers : ∀ index, ¬ layout.Writes (.register index) →
    source.registers index = entry.registers index
  vectors : ∀ register, ¬ layout.WritesVector register →
    source.vectors register = entry.vectors register

variable {layout} {unit : FloatUnit} {entry source next : Source}

theorem Source.Keeps.step (keeps : entry.Keeps layout source)
    (stepped : source.step layout unit = some next) : entry.Keeps layout next := by
  obtain ⟨statement, found, performed⟩ := Option.bind_eq_some_iff.mp stepped
  have member := List.mem_of_getElem? found
  have outcome := Source.perform_outcome performed
  constructor
  · intro index unwritten
    have other := outcome.registers index fun named => unwritten ⟨statement, member, named⟩
    exact other.trans (keeps.registers index unwritten)
  · intro register unwritten
    have other := outcome.vectors register fun named => unwritten ⟨statement, member, named⟩
    exact other.trans (keeps.vectors register unwritten)

end Runs

end Jit
