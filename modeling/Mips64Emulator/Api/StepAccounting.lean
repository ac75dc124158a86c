import Mips64Emulator.Api.CoreCalls
import Mips64Emulator.Shared.LeadingSteps

set_option autoImplicit false

namespace Mips64

section Loop

variable {State : Type} (step : State → Status × State)

abbrev Succeeds (state : State) : Prop := (step state).1 = .ok

def advance (state : State) : State := (step state).2

def leadingOk (limit : Nat) (state : State) : Nat :=
  LeadingSteps.count (Succeeds step) (advance step) limit state

def settled (limit : Nat) (state : State) : State :=
  LeadingSteps.settled (Succeeds step) (advance step) limit state

def failure (limit : Nat) (state : State) : Option Status :=
  if leadingOk step limit state < limit then
    some (step ((advance step)^[leadingOk step limit state] state)).1
  else none

theorem leadingOk_le (limit : Nat) (state : State) : leadingOk step limit state ≤ limit :=
  LeadingSteps.count_le _ _ _ _

theorem runSteps_correct (limit : Nat) (state : State) :
    runSteps (fun state => some (step state)) limit state =
      some (failure step limit state, settled step limit state) := by
  induction limit generalizing state with
  | zero => rfl
  | succ limit ih =>
    by_cases success : Succeeds step state
    · have counted : leadingOk step (limit + 1) state =
          leadingOk step limit (advance step state) + 1 := if_pos success
      have failed : failure step (limit + 1) state = failure step limit (advance step state) := by
        simp only [failure, counted, Nat.add_lt_add_iff_right, Function.iterate_succ_apply]
      have moved : settled step (limit + 1) state = settled step limit (advance step state) := by
        rw [settled, LeadingSteps.settled, LeadingSteps.taken_succeeds _ _ limit state success,
          Function.iterate_succ_apply]
        rfl
      rw [failed, moved, ← ih, advance]
      simp [runSteps, success]
    · have counted : leadingOk step (limit + 1) state = 0 := if_neg success
      have failed : failure step (limit + 1) state = some (step state).1 := by
        simp [failure, counted]
      have moved : settled step (limit + 1) state = advance step state := by
        simp [settled, LeadingSteps.settled, LeadingSteps.taken, LeadingSteps.count, success]
      rw [failed, moved, advance]
      simp [runSteps, success]

end Loop

section Report

variable (step : Emulator → Status × Emulator)

def runStatus (maxSteps : BitVec 64) (emulator : Emulator) : Status :=
  (failure step maxSteps.toNat emulator).getD .stepLimitReached

def runInfo (maxSteps : BitVec 64) (emulator : Emulator) : RunInfo :=
  { stepsExecuted := if leadingOk step maxSteps.toNat emulator < maxSteps.toNat then 0 else maxSteps
    stepFinal := 0
    finalPc := (settled step maxSteps.toNat emulator).cpu.pc
    stopReason :=
      ((failure step maxSteps.toNat emulator).map stopReasonFromStatus).getD .stepLimit
    lastStatus := runStatus step maxSteps emulator }

theorem runProgramWith_correct (maxSteps : BitVec 64) (emulator : Emulator)
    (outInfo : Ptr RunInfo) :
    runProgramWith (fun emulator => some (step emulator)) (.ref emulator) maxSteps outInfo =
      some (runStatus step maxSteps emulator, outInfo.map fun _ => runInfo step maxSteps emulator,
        .ref (settled step maxSteps.toNat emulator)) := by
  simp only [runProgramWith, runSteps_correct, Option.bind_eq_bind, Option.bind_some, runStatus,
    runInfo]
  by_cases early : leadingOk step maxSteps.toNat emulator < maxSteps.toNat
  · simp [failure, early]
  · simp [failure, early]

structure Accounts (maxSteps : BitVec 64) (emulator : Emulator) (status : Status) (info : RunInfo)
    (after : Emulator) : Prop where
  final : after = settled step maxSteps.toNat emulator
  stepsExecuted : info.stepsExecuted.toNat = leadingOk step maxSteps.toNat emulator
  finalPc : info.finalPc = after.cpu.pc
  returned : status = (failure step maxSteps.toNat emulator).getD .stepLimitReached
  lastStatus : info.lastStatus = status

theorem stepsExecuted_toNat (maxSteps : BitVec 64) (emulator : Emulator) :
    (runInfo step maxSteps emulator).stepsExecuted.toNat =
      if leadingOk step maxSteps.toNat emulator = maxSteps.toNat then maxSteps.toNat else 0 := by
  have bounded := leadingOk_le step maxSteps.toNat emulator
  by_cases reached : leadingOk step maxSteps.toNat emulator = maxSteps.toNat
  · simp [runInfo, reached]
  · have early : leadingOk step maxSteps.toNat emulator < maxSteps.toNat := by omega
    simp [runInfo, early, reached]

theorem runInfo_accounts_iff (maxSteps : BitVec 64) (emulator : Emulator) :
    Accounts step maxSteps emulator (runStatus step maxSteps emulator)
        (runInfo step maxSteps emulator) (settled step maxSteps.toNat emulator) ↔
      leadingOk step maxSteps.toNat emulator = 0 ∨
        leadingOk step maxSteps.toNat emulator = maxSteps.toNat := by
  constructor
  · intro accounts
    have counted := accounts.stepsExecuted
    rw [stepsExecuted_toNat] at counted
    split at counted
    next reached => exact Or.inr reached
    next => exact Or.inl counted.symm
  · intro exact
    refine ⟨rfl, ?_, rfl, rfl, rfl⟩
    rw [stepsExecuted_toNat]
    split <;> omega

theorem settled_split (first second : Nat) (emulator : Emulator)
    (reached : leadingOk step first emulator = first) :
    settled step (first + second) emulator =
      settled step second (settled step first emulator) := by
  have middle : settled step first emulator = (advance step)^[first] emulator :=
    LeadingSteps.settled_reached _ _ first emulator reached
  rw [middle]
  exact LeadingSteps.settled_add _ _ first second emulator reached

theorem leadingOk_split (first second : Nat) (emulator : Emulator)
    (reached : leadingOk step first emulator = first) :
    leadingOk step (first + second) emulator =
      first + leadingOk step second (settled step first emulator) := by
  have middle : settled step first emulator = (advance step)^[first] emulator :=
    LeadingSteps.settled_reached _ _ first emulator reached
  rw [middle]
  exact LeadingSteps.count_add _ _ first second emulator reached

theorem stepsExecuted_split_iff (first second : BitVec 64) (emulator : Emulator)
    (fits : first.toNat + second.toNat < 2 ^ 64)
    (reached : leadingOk step first.toNat emulator = first.toNat) :
    (runInfo step (first + second) emulator).stepsExecuted.toNat =
        (runInfo step first emulator).stepsExecuted.toNat +
          (runInfo step second (settled step first.toNat emulator)).stepsExecuted.toNat ↔
      first = 0 ∨ leadingOk step second.toNat (settled step first.toNat emulator) =
        second.toNat := by
  have sum : (first + second).toNat = first.toNat + second.toNat := by
    rw [BitVec.toNat_add, Nat.mod_eq_of_lt fits]
  have zero : first = 0 ↔ first.toNat = 0 := BitVec.toNat_eq
  simp only [stepsExecuted_toNat, sum, leadingOk_split step _ _ emulator reached, reached, if_true,
    Nat.add_left_cancel_iff, zero]
  by_cases whole :
      leadingOk step second.toNat (settled step first.toNat emulator) = second.toNat
  · simp [whole]
  · simp [whole, eq_comm]

/-- Final state, pc and status are always accounted for. The number of steps is reported right
exactly when none succeeds before the failing one or they fill the limit; so is the total of a run
split in two. -/
theorem runProgramWith_accounts_iff (emulator : Emulator) (out : RunInfo) :
    (∀ maxSteps, ∃ status info after,
      runProgramWith (fun emulator => some (step emulator)) (.ref emulator) maxSteps (.ref out) =
        some (status, .ref info, .ref after) ∧
      after = settled step maxSteps.toNat emulator ∧ info.finalPc = after.cpu.pc ∧
      status = (failure step maxSteps.toNat emulator).getD .stepLimitReached ∧
      info.lastStatus = status ∧
      (Accounts step maxSteps emulator status info after ↔
        leadingOk step maxSteps.toNat emulator = 0 ∨
          leadingOk step maxSteps.toNat emulator = maxSteps.toNat)) ∧
    ∀ first second : BitVec 64, first.toNat + second.toNat < 2 ^ 64 →
      leadingOk step first.toNat emulator = first.toNat →
      ∃ status₁ info₁ middle status₂ info₂ after status info whole,
        runProgramWith (fun emulator => some (step emulator)) (.ref emulator) first (.ref out) =
          some (status₁, .ref info₁, .ref middle) ∧
        runProgramWith (fun emulator => some (step emulator)) (.ref middle) second (.ref out) =
          some (status₂, .ref info₂, .ref after) ∧
        runProgramWith (fun emulator => some (step emulator)) (.ref emulator) (first + second)
          (.ref out) = some (status, .ref info, .ref whole) ∧
        whole = after ∧
        (info.stepsExecuted.toNat = info₁.stepsExecuted.toNat + info₂.stepsExecuted.toNat ↔
          first = 0 ∨ leadingOk step second.toNat middle = second.toNat) := by
  constructor
  · intro maxSteps
    exact ⟨_, _, _, runProgramWith_correct step maxSteps emulator (.ref out), rfl, rfl, rfl, rfl,
      runInfo_accounts_iff step maxSteps emulator⟩
  · intro first second fits reached
    have sum : (first + second).toNat = first.toNat + second.toNat := by
      rw [BitVec.toNat_add, Nat.mod_eq_of_lt fits]
    refine ⟨_, _, _, _, _, _, _, _, _, runProgramWith_correct step first emulator (.ref out),
      runProgramWith_correct step second _ (.ref out),
      runProgramWith_correct step (first + second) emulator (.ref out), ?_,
      stepsExecuted_split_iff step first second emulator fits reached⟩
    rw [sum, settled_split step _ _ emulator reached]

end Report

def onceOk (emulator : Emulator) : Status × Emulator :=
  if emulator.cpu.pc = 0 then (.ok, emulator.movePc 4) else (.notImplemented, emulator)

theorem onceOk_leading (config : Config) (start : config.resetPc = 0) :
    leadingOk onceOk 2 (fresh config) = 1 := by
  simp [leadingOk, LeadingSteps.count, Succeeds, advance, onceOk, fresh, Cpu.cleared, start,
    Emulator.movePc]

-- One step to the limit and one more, which fails: the second report says none was executed.
theorem runProgramWith_accounts_onceOk :
    let config : Config :=
      { memorySize := 8, resetPc := 0, endian := .big, clearMemoryOnReset := 0 }
    let out : RunInfo :=
      { stepsExecuted := 0, stepFinal := 0, finalPc := 0, stopReason := .none, lastStatus := .ok }
    ∃ status₁ info₁ middle status₂ info₂ after status info whole,
      runProgramWith (fun emulator => some (onceOk emulator)) (.ref (fresh config)) 1 (.ref out) =
        some (status₁, .ref info₁, .ref middle) ∧
      runProgramWith (fun emulator => some (onceOk emulator)) (.ref middle) 1 (.ref out) =
        some (status₂, .ref info₂, .ref after) ∧
      runProgramWith (fun emulator => some (onceOk emulator)) (.ref (fresh config)) (1 + 1)
        (.ref out) = some (status, .ref info, .ref whole) ∧
      whole = after ∧
      (info.stepsExecuted.toNat = info₁.stepsExecuted.toNat + info₂.stepsExecuted.toNat ↔
        (1 : BitVec 64) = 0 ∨ leadingOk onceOk (1 : BitVec 64).toNat middle =
          (1 : BitVec 64).toNat) := by
  intro config out
  exact (runProgramWith_accounts_iff onceOk (fresh config) out).2 1 1 (by decide) rfl

-- The same step run with a limit of two succeeds once and reports 0.
theorem runProgramWith_miscounts :
    let config : Config :=
      { memorySize := 8, resetPc := 0, endian := .big, clearMemoryOnReset := 0 }
    let out : RunInfo :=
      { stepsExecuted := 0, stepFinal := 0, finalPc := 0, stopReason := .none, lastStatus := .ok }
    ∃ status info after,
      runProgramWith (fun emulator => some (onceOk emulator)) (.ref (fresh config)) 2 (.ref out) =
        some (status, .ref info, .ref after) ∧
      leadingOk onceOk 2 (fresh config) = 1 ∧ info.stepsExecuted = 0 ∧
      ¬ Accounts onceOk 2 (fresh config) status info after := by
  intro config out
  have once := onceOk_leading config rfl
  refine ⟨_, _, _, runProgramWith_correct onceOk 2 (fresh config) (.ref out), once, ?_, ?_⟩
  · simp [runInfo, once]
  · intro accounts
    rcases (runInfo_accounts_iff onceOk 2 (fresh config)).mp accounts with none | whole
    · exact absurd (none.symm.trans once) (by decide)
    · exact absurd (whole.symm.trans once) (by decide)

end Mips64
