import Mips64Emulator.Api.Calls

set_option autoImplicit false

namespace Mips64

def Reachable (config : Config) (emulator : Emulator) : Prop :=
  ∃ start calls responses, Created config start ∧
    Transducer.run Call.apply (.ref start) calls = some (responses, .ref emulator)

structure Restored (before after : Emulator) : Prop where
  pc : after.cpu.pc = before.config.resetPc
  gpr : ∀ index, after.cpu.gpr index = 0
  hi : after.cpu.hi = 0
  lo : after.cpu.lo = 0
  config : after.config = before.config
  memoryPointer : after.memory = .null ↔ before.memory = .null
  memorySize : after.memorySize = before.memorySize
  cleared : before.config.clearMemoryOnReset ≠ 0 → ∀ byte ∈ after.buffer, byte = 0
  kept : before.config.clearMemoryOnReset = 0 → after.buffer = before.buffer
  asCreated : before.config.clearMemoryOnReset ≠ 0 → after = fresh before.config

structure Emulator.Consistent (config : Config) (emulator : Emulator) : Prop where
  backed : emulator.Backed
  config : emulator.config = config
  hi : emulator.cpu.hi = 0
  lo : emulator.cpu.lo = 0

theorem Emulator.Consistent.apply {config : Config} {emulator : Emulator}
    (consistent : emulator.Consistent config) {call : Call} {response : Response}
    {next : Ptr Emulator} (applied : call.apply (.ref emulator) = some (response, next)) :
    ∃ after, next = .ref after ∧ after.Consistent config := by
  obtain ⟨after, rfl, effect⟩ := apply_cases consistent.backed applied
  refine ⟨after, rfl, ?_⟩
  rcases effect with ⟨-, touched⟩ | ⟨-, rfl⟩
  · have backed := touched.backed consistent.backed
    obtain ⟨start, bytes, pc, -, -, rfl⟩ := touched
    exact ⟨backed, consistent.config, consistent.hi, consistent.lo⟩
  · exact ⟨afterReset_backed emulator, consistent.config, consistent.hi, consistent.lo⟩

theorem reachable_consistent (config : Config) (emulator : Emulator)
    (reachable : Reachable config emulator) : config.Valid ∧ emulator.Consistent config := by
  obtain ⟨start, calls, responses, created, ran⟩ := reachable
  obtain ⟨valid, rfl⟩ := (created_iff config start).mp created
  refine ⟨valid, ?_⟩
  let Kept (state : Ptr Emulator) : Prop :=
    ∃ emulator, state = .ref emulator ∧ emulator.Consistent config
  have preserved (state : Ptr Emulator) (call : Call) (response : Response)
      (next : Ptr Emulator) (kept : Kept state) (_ : True)
      (applied : call.apply state = some (response, next)) : Kept next := by
    obtain ⟨emulator, rfl, consistent⟩ := kept
    exact consistent.apply applied
  have initial : Kept (.ref (fresh config)) := ⟨_, rfl, fresh_backed config, rfl, rfl, rfl⟩
  obtain ⟨_, same, consistent⟩ := Transducer.run_invariant Kept (fun _ => True) preserved initial
    (fun _ _ => trivial) ran
  cases same
  exact consistent

theorem afterReset_gpr_iff (emulator : Emulator) :
    (∀ index, emulator.afterReset.cpu.gpr index = 0) ↔ emulator.config.resetPc = 0 := by
  have file : emulator.afterReset.cpu.gpr =
      Function.update (fun _ => 0) 30 emulator.config.resetPc := rfl
  rw [file]
  constructor
  · intro zeros
    have stray := zeros 30
    rwa [Function.update_self] at stray
  · intro zero index
    rw [zero]
    by_cases stray : index = 30 <;> simp [stray]

-- The size of a fresh emulator is not zero, the one a reset leaves is.
theorem afterReset_ne_fresh (emulator : Emulator) (config : Config) (valid : config.Valid) :
    emulator.afterReset ≠ fresh config := by
  intro same
  have size := congrArg Emulator.memorySize same
  exact valid.1 size.symm

theorem afterReset_restored_iff (config : Config) (valid : config.Valid) (emulator : Emulator)
    (consistent : emulator.Consistent config) :
    Restored emulator emulator.afterReset ↔
      emulator.memory = .null ∧ config.resetPc = 0 ∧ config.clearMemoryOnReset = 0 := by
  obtain ⟨backed, rfl, hi, lo⟩ := consistent
  constructor
  · intro restored
    refine ⟨restored.memoryPointer.mp rfl, (afterReset_gpr_iff emulator).mp restored.gpr, ?_⟩
    by_contra clear
    exact afterReset_ne_fresh emulator emulator.config valid (restored.asCreated clear)
  · intro ⟨lost, zero, keep⟩
    have nothing : emulator.buffer = [] := by
      rw [Emulator.buffer, lost]
    have size : emulator.memorySize = 0 := by
      rw [Emulator.Backed, nothing] at backed
      exact BitVec.eq_of_toNat_eq backed.symm
    exact
      { pc := zero.symm
        gpr := (afterReset_gpr_iff emulator).mpr zero
        hi := hi
        lo := lo
        config := rfl
        memoryPointer := iff_of_true rfl lost
        memorySize := size.symm
        cleared := fun clear => absurd keep clear
        kept := fun _ => nothing.symm
        asCreated := fun clear => absurd keep clear }

/-- A reset answers OK in every reachable state, and restores only what an earlier reset has already
lost. -/
theorem machineReset_restored_iff (config : Config) (emulator : Emulator)
    (reachable : Reachable config emulator) (status : Status) :
    ∃ after, machineReset (.ref emulator) status = some (.ok, .ref after) ∧
      (Restored emulator after ↔
        emulator.memory = .null ∧ config.resetPc = 0 ∧ config.clearMemoryOnReset = 0) := by
  obtain ⟨valid, consistent⟩ := reachable_consistent config emulator reachable
  exact ⟨_, machineReset_correct emulator status,
    afterReset_restored_iff config valid emulator consistent⟩

-- The second reset of an emulator that keeps its memory and starts at 0.
theorem machineReset_restored_twice :
    let config : Config :=
      { memorySize := 8, resetPc := 0, endian := .big, clearMemoryOnReset := 0 }
    let emulator := (fresh config).afterReset
    ∃ after, machineReset (.ref emulator) .ok = some (.ok, .ref after) ∧
      Restored emulator after := by
  intro config emulator
  have created : Created config (fresh config) := (created_iff _ _).mpr ⟨by decide, rfl⟩
  have applied : (Call.machineReset .ok).apply (.ref (fresh config)) =
      some (.status .ok, .ref emulator) := by
    rw [Call.apply, machineReset_correct]
    rfl
  have ran : Transducer.run Call.apply (.ref (fresh config)) [.machineReset .ok] =
      some ([.status .ok], .ref emulator) :=
    (Transducer.run_cons _ _ _ _ _).mpr ⟨_, _, _, applied, rfl, rfl⟩
  obtain ⟨after, answered, restores⟩ :=
    machineReset_restored_iff config emulator ⟨_, _, _, created, ran⟩ .ok
  exact ⟨after, answered, restores.mpr ⟨rfl, rfl, rfl⟩⟩

-- One reset of a fresh emulator answers OK and loses the memory.
theorem machineReset_lost :
    let config : Config :=
      { memorySize := 8, resetPc := 4, endian := .big, clearMemoryOnReset := 1 }
    Reachable config (fresh config) ∧
      ∃ after, machineReset (.ref (fresh config)) .ok = some (.ok, .ref after) ∧
        ¬ Restored (fresh config) after := by
  intro config
  have created : Created config (fresh config) := (created_iff _ _).mpr ⟨by decide, rfl⟩
  refine ⟨⟨_, [], [], created, rfl⟩, _, machineReset_correct _ _, ?_⟩
  intro restored
  have lost := restored.memoryPointer.mp rfl
  cases lost

end Mips64
