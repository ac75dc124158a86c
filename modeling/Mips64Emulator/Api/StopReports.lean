import Mips64Emulator.Api.MachineReset

set_option autoImplicit false

namespace Mips64

structure Emulator.Fetching (emulator : Emulator) : Prop where
  backed : emulator.Backed
  aligned : 4 ∣ emulator.cpu.pc.toNat

theorem Emulator.Fetching.apply {emulator : Emulator} (fetching : emulator.Fetching) {call : Call}
    {response : Response} {next : Ptr Emulator}
    (applied : call.apply (.ref emulator) = some (response, next)) :
    ∃ after, next = .ref after ∧ after.Fetching := by
  obtain ⟨after, rfl, effect⟩ := apply_cases fetching.backed applied
  refine ⟨after, rfl, ?_⟩
  rcases effect with ⟨-, touched⟩ | ⟨-, rfl⟩
  · refine ⟨touched.backed fetching.backed, ?_⟩
    obtain ⟨start, bytes, pc, -, kept | moved, rfl⟩ := touched
    · exact kept ▸ fetching.aligned
    · exact moved
  · exact ⟨afterReset_backed emulator, Nat.dvd_zero 4⟩

theorem reachable_fetching (config : Config) (emulator : Emulator)
    (reachable : Reachable config emulator) : emulator.Fetching := by
  obtain ⟨start, calls, responses, created, ran⟩ := reachable
  obtain ⟨valid, rfl⟩ := (created_iff config start).mp created
  let Kept (state : Ptr Emulator) : Prop := ∃ emulator, state = .ref emulator ∧ emulator.Fetching
  have preserved (state : Ptr Emulator) (call : Call) (response : Response)
      (next : Ptr Emulator) (kept : Kept state) (_ : True)
      (applied : call.apply state = some (response, next)) : Kept next := by
    obtain ⟨emulator, rfl, fetching⟩ := kept
    exact fetching.apply applied
  have initial : Kept (.ref (fresh config)) := ⟨_, rfl, fresh_backed config, valid.2.2.1⟩
  obtain ⟨_, same, fetching⟩ := Transducer.run_invariant Kept (fun _ => True) preserved initial
    (fun _ _ => trivial) ran
  cases same
  exact fetching

def ReportsAlike (emulator : Emulator) (maxSteps : BitVec 64) : Prop :=
  ∀ outStep outRun status info next,
    step (.ref emulator) (.ref outStep) = some (status, .ref info, next) → status ≠ .ok →
      ∃ report, runProgram (.ref emulator) maxSteps (.ref outRun) = some (status, .ref report, next) ∧
        report.lastStatus = status ∧ report.stopReason = info.stopReason ∧
        report.finalPc = info.pcAfter ∧ report.stepsExecuted = 0

theorem reportsAlike_reason_iff {emulator : Emulator} (backed : emulator.Backed)
    (maxSteps : BitVec 64) (positive : maxSteps ≠ 0) :
    ReportsAlike emulator maxSteps ↔
      stopReasonFromStatus (stepStatus emulator) = (stepReport emulator).stopReason := by
  have reason : (runReport emulator maxSteps).stopReason =
      stopReasonFromStatus (stepStatus emulator) := if_neg positive
  constructor
  · intro alike
    obtain ⟨report, ran, -, same, -⟩ := alike (stepReport emulator) (runReport emulator maxSteps) _ _ _
      (step_correct backed _) (stepStatus_ne_ok emulator)
    rw [runProgram_correct backed, if_neg positive] at ran
    cases ran
    rw [← reason, same]
  · intro same outStep outRun status info next stepped _
    rw [step_correct backed] at stepped
    cases stepped
    refine ⟨runReport emulator maxSteps, ?_, if_neg positive, reason.trans same, rfl, rfl⟩
    rw [runProgram_correct backed, if_neg positive]
    rfl

theorem stopReason_same_iff (emulator : Emulator) (aligned : 4 ∣ emulator.cpu.pc.toNat) :
    stopReasonFromStatus (stepStatus emulator) = (stepReport emulator).stopReason ↔
      emulator.memorySize.toNat < emulator.cpu.pc.toNat + 4 := by
  by_cases outside : emulator.memorySize.toNat < emulator.cpu.pc.toNat + 4
  · have refused : fetchStatus emulator emulator.cpu.pc = .addressOutOfRange := by
      simp [fetchStatus, aligned, outside]
    simp [stepStatus, stepReport, refused, outside]
  · have accepted : fetchStatus emulator emulator.cpu.pc = .ok :=
      (fetchStatus_ok_iff _ _).mpr ⟨aligned, Nat.le_of_not_lt outside⟩
    simp [stepStatus, stepReport, accepted, outside, stopReasonFromStatus]

/-- The two reports agree in a reachable state exactly when its pc has no four bytes to fetch. -/
theorem reportsAlike_iff (config : Config) (emulator : Emulator)
    (reachable : Reachable config emulator) (maxSteps : BitVec 64) (positive : maxSteps ≠ 0) :
    ReportsAlike emulator maxSteps ↔ emulator.memorySize.toNat < emulator.cpu.pc.toNat + 4 := by
  have fetching := reachable_fetching config emulator reachable
  rw [reportsAlike_reason_iff fetching.backed maxSteps positive,
    stopReason_same_iff emulator fetching.aligned]

theorem fresh_reachable (config : Config) (valid : config.Valid) :
    Reachable config (fresh config) :=
  ⟨_, [], [], (created_iff config _).mpr ⟨valid, rfl⟩, rfl⟩

-- The reset pc is the end of the memory.
theorem reportsAlike_end :
    let config : Config :=
      { memorySize := 8, resetPc := 8, endian := .big, clearMemoryOnReset := 0 }
    ReportsAlike (fresh config) 1 := by
  intro config
  exact (reportsAlike_iff config (fresh config) (fresh_reachable config (by decide)) 1
    (by decide)).mpr (by decide)

-- At pc 0 a word is fetched: the step stops with one enumerator, the run with the other.
theorem reportsAlike_fetched :
    let config : Config :=
      { memorySize := 8, resetPc := 0, endian := .big, clearMemoryOnReset := 0 }
    Reachable config (fresh config) ∧ ¬ ReportsAlike (fresh config) 1 := by
  intro config
  have reachable := fresh_reachable config (by decide)
  refine ⟨reachable, ?_⟩
  intro alike
  have same := (reportsAlike_reason_iff (fresh_backed config) 1 (by decide)).mp alike
  cases same

end Mips64
