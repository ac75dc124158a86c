import Mips64Emulator.Isa.Streams

set_option autoImplicit false

namespace Mips64

open Transducer

inductive CpuRequest where
  | reset (resetPc : BitVec 64)
  | getGpr (index : BitVec 32) (outValue : Ptr (BitVec 64))
  | getPc (outPc : Ptr (BitVec 64))
  | call (call : CpuCall)

inductive CpuAnswer where
  | status (status : Status)
  | value (status : Status) (out : Ptr (BitVec 64))

def CpuRequest.answer (cpu : Ptr Cpu) : CpuRequest → Option (CpuAnswer × Ptr Cpu)
  | reset resetPc => (cpuReset cpu resetPc).map fun (status, cpu) => (.status status, cpu)
  | getGpr index outValue =>
    (cpuMipsGetGpr cpu index outValue).map fun (status, out) => (.value status out, cpu)
  | getPc outPc =>
    let (status, out) := cpuGetPc cpu outPc
    some (.value status out, cpu)
  | call request => (cpuCall cpu request).map fun (status, cpu) => (.status status, cpu)

section Phases

def callStatus : CpuCall → Status
  | .setGpr index _ => if index.toNat < gprCount then .ok else .invalidRegister
  | .setPc pc => if 4 ∣ pc.toNat then .ok else .unalignedPc
  | .execute raw _ => if Handled raw then .ok else .notImplemented

def movePc (pc : BitVec 64) : CpuCall → BitVec 64
  | .setGpr .. => pc
  | .setPc next => if 4 ∣ next.toNat then next else pc
  | .execute raw _ => if Handled raw then pc + 4 else pc

structure CpuPhase where
  resetPc : BitVec 64
  calls : List CpuCall

namespace CpuPhase

def next (phase : CpuPhase) : CpuRequest → CpuPhase
  | .reset resetPc => ⟨resetPc, []⟩
  | .getGpr .. | .getPc _ => phase
  | .call call => ⟨phase.resetPc, phase.calls ++ [call]⟩

def after (resetPc : BitVec 64) (requests : List CpuRequest) : CpuPhase :=
  requests.foldl next ⟨resetPc, []⟩

theorem after_snoc (resetPc : BitVec 64) (requests : List CpuRequest) (request : CpuRequest) :
    after resetPc (requests ++ [request]) = (after resetPc requests).next request := by
  rw [after, List.foldl_append]
  rfl

def cpu (phase : CpuPhase) : Cpu where
  gpr := registerValue (registerHistory phase.calls)
  pc := phase.calls.foldl movePc phase.resetPc
  hi := 0
  lo := 0

def reply (phase : CpuPhase) : CpuRequest → CpuAnswer
  | .reset _ => .status .ok
  | .getGpr _ .null | .getPc .null => .value .invalidArgument .null
  | .getGpr index (.ref out) =>
    if bound : index.toNat < gprCount then
      .value .ok (.ref (registerValue (registerHistory phase.calls) ⟨index.toNat, bound⟩))
    else .value .invalidRegister (.ref out)
  | .getPc (.ref _) => .value .ok (.ref (phase.calls.foldl movePc phase.resetPc))
  | .call call => .status (callStatus call)

theorem cpu_zero (phase : CpuPhase) : phase.cpu.gpr 0 = 0 := rfl

theorem fresh_cpu (resetPc : BitVec 64) : (CpuPhase.mk resetPc []).cpu = Cpu.cleared resetPc := by
  have registers : registerValue (registerHistory []) = fun _ => 0 := by
    funext index
    simp [registerValue, registerHistory]
  rw [cpu, registers]
  rfl

theorem called_cpu (phase : CpuPhase) (call : CpuCall) (after : Cpu)
    (registers : after.gpr =
      registerValue (callWrites phase.cpu.gpr call ++ registerHistory phase.calls))
    (pc : after.pc = movePc phase.cpu.pc call) (hi : after.hi = 0) (lo : after.lo = 0) :
    after = (phase.next (.call call)).cpu := by
  have history := registerHistory_snoc phase.calls call
  have moved : (phase.calls ++ [call]).foldl movePc phase.resetPc = movePc phase.cpu.pc call := by
    rw [List.foldl_append]
    rfl
  obtain ⟨gpr, afterPc, afterHi, afterLo⟩ := after
  simp only [next, cpu, history, moved, Cpu.mk.injEq]
  exact ⟨registers, pc, hi, lo⟩

theorem executed_gpr (raw : BitVec 32) {cpu : Cpu} {writes : List RegisterWrite}
    (agrees : cpu.gpr = registerValue writes) :
    (executed raw cpu).2.gpr = registerValue (instructionWrites raw cpu.gpr ++ writes) := by
  rcases executed_cases raw cpu with
    ⟨ran, wrote⟩ | ⟨target, value, ran, wrote⟩ | ⟨ran, wrote⟩ <;> rw [ran, wrote]
  · exact agrees
  · exact registerValue_single writes target value cpu agrees
  · exact agrees

theorem execute_phase (phase : CpuPhase) (raw : BitVec 32) (scratch : Decoded) :
    cpuCall (.ref phase.cpu) (.execute raw scratch) =
      some (callStatus (.execute raw scratch),
        .ref (phase.next (.call (.execute raw scratch))).cpu) := by
  rw [cpuCall, decodeAndExecute_correct, callStatus]
  have registers : (executed raw phase.cpu).2.gpr = registerValue
      (callWrites phase.cpu.gpr (.execute raw scratch) ++ registerHistory phase.calls) :=
    executed_gpr raw rfl
  by_cases handled : Handled raw
  · have ran := executed_retired phase.cpu_zero raw handled
    have moved : (retired phase.cpu raw).pc = movePc phase.cpu.pc (.execute raw scratch) :=
      (if_pos handled).symm
    rw [ran] at registers
    have ended := called_cpu phase (.execute raw scratch) _ registers moved rfl rfl
    rw [ran, if_pos handled, ended]
  · have ran := Stream.executed_unhandled phase.cpu raw handled
    have kept : phase.cpu.pc = movePc phase.cpu.pc (.execute raw scratch) :=
      (if_neg handled).symm
    rw [ran] at registers
    have ended := called_cpu phase (.execute raw scratch) phase.cpu registers kept rfl rfl
    rw [ran, if_neg handled, ← ended]

theorem call_phase (phase : CpuPhase) (call : CpuCall) :
    cpuCall (.ref phase.cpu) call =
      some (callStatus call, .ref (phase.next (.call call)).cpu) := by
  cases call with
  | setGpr index value =>
    rw [cpuCall, cpuSetGpr_correct, callStatus]
    by_cases bound : index.toNat < gprCount
    · have writes : callWrites phase.cpu.gpr (.setGpr index value) =
          [Overlay.single ⟨index.toNat, bound⟩ value] := dif_pos bound
      have written := registerValue_single _ ⟨index.toNat, bound⟩ value phase.cpu rfl
      have ended : phase.cpu.write ⟨index.toNat, bound⟩ value =
          (phase.next (.call (.setGpr index value))).cpu :=
        called_cpu phase _ _ (writes ▸ written) rfl rfl rfl
      rw [dif_pos bound, if_pos bound, ended]
    · have writes : callWrites phase.cpu.gpr (.setGpr index value) = [] := dif_neg bound
      have ended := called_cpu phase (.setGpr index value) phase.cpu (writes ▸ rfl) rfl rfl rfl
      rw [dif_neg bound, if_neg bound, ← ended]
  | setPc pc =>
    rw [cpuCall, cpuSetPc_correct, callStatus]
    by_cases aligned : 4 ∣ pc.toNat
    · have moved : pc = movePc phase.cpu.pc (.setPc pc) := (if_pos aligned).symm
      have ended := called_cpu phase (.setPc pc) { phase.cpu with pc := pc } rfl moved rfl rfl
      rw [if_pos aligned, if_pos aligned, ended]
    · have kept : phase.cpu.pc = movePc phase.cpu.pc (.setPc pc) := (if_neg aligned).symm
      have ended := called_cpu phase (.setPc pc) phase.cpu rfl kept rfl rfl
      rw [if_neg aligned, if_neg aligned, ← ended]
  | execute raw scratch =>
    exact execute_phase phase raw scratch

theorem getGpr_phase (phase : CpuPhase) (index : BitVec 32) (outValue : Ptr (BitVec 64)) :
    CpuRequest.answer (.ref phase.cpu) (.getGpr index outValue) =
      some (phase.reply (.getGpr index outValue), .ref phase.cpu) := by
  cases outValue with
  | null => rfl
  | ref out =>
    rw [CpuRequest.answer, cpuMipsGetGpr_correct, reply]
    by_cases bound : index.toNat < gprCount
    · rw [dif_pos bound, dif_pos bound]
      by_cases zero : index = 0
      · subst zero
        rfl
      · rw [if_neg zero]
        rfl
    · rw [dif_neg bound, dif_neg bound]
      rfl

theorem answer_phase (phase : CpuPhase) (request : CpuRequest) :
    request.answer (.ref phase.cpu) =
      some (phase.reply request, .ref (phase.next request).cpu) := by
  cases request with
  | reset resetPc =>
    rw [next, fresh_cpu]
    rfl
  | getGpr index outValue => exact getGpr_phase phase index outValue
  | getPc outPc => cases outPc <;> rfl
  | call request =>
    rw [CpuRequest.answer, call_phase]
    rfl

end CpuPhase

/-- After any requests the CPU is what its last phase has made of a cleared one, and answers the next
request as that. -/
theorem cpuRequests_lastPhase (garbage : Cpu) (resetPc : BitVec 64) (requests : List CpuRequest) :
    ∃ start answers, cpuReset (.ref garbage) resetPc = some (.ok, .ref start) ∧
      run CpuRequest.answer (.ref start) requests =
        some (answers, .ref (CpuPhase.after resetPc requests).cpu) ∧
      ∀ request, request.answer (.ref (CpuPhase.after resetPc requests).cpu) =
        some ((CpuPhase.after resetPc requests).reply request,
          .ref ((CpuPhase.after resetPc requests).next request).cpu) := by
  let Kept (earlier : List CpuRequest) (state : Ptr Cpu) : Prop :=
    state = .ref (CpuPhase.after resetPc earlier).cpu
  have answers (earlier : List CpuRequest) (state : Ptr Cpu) (request : CpuRequest)
      (kept : Kept earlier state) (_ : True) :
      ∃ answer next, request.answer state = some (answer, next) ∧ Kept (earlier ++ [request]) next := by
    subst kept
    have extended := CpuPhase.after_snoc resetPc earlier request
    exact ⟨_, _, CpuPhase.answer_phase _ request,
      congrArg (fun phase : CpuPhase => Ptr.ref phase.cpu) extended.symm⟩
  have initial : Kept [] (.ref (Cpu.cleared resetPc)) :=
    congrArg Ptr.ref (CpuPhase.fresh_cpu resetPc).symm
  obtain ⟨replies, _, ran, rfl⟩ :=
    run_history Kept (fun _ => True) answers [] _ requests initial fun _ _ => trivial
  exact ⟨_, replies, rfl, ran, CpuPhase.answer_phase _⟩

end Phases

section Observations

structure Cpu.Similar (first second : Cpu) : Prop where
  gpr : first.gpr = second.gpr
  pc : first.pc = second.pc

namespace Cpu.Similar

variable {first second : Cpu} (similar : first.Similar second)

include similar

theorem write (target : Fin gprCount) (value : BitVec 64) :
    (first.write target value).Similar (second.write target value) where
  gpr := by simp only [Cpu.write, similar.gpr]
  pc := similar.pc

theorem advance : first.advance.Similar second.advance where
  gpr := similar.gpr
  pc := by simp only [Cpu.advance, similar.pc]

theorem executed (raw : BitVec 32) :
    (executed raw first).1 = (executed raw second).1 ∧
      (executed raw first).2.Similar (executed raw second).2 := by
  simp only [Mips64.executed, similar.gpr]
  split
  · exact ⟨rfl, similar.advance⟩
  split
  · exact ⟨rfl, (similar.write _ _).advance⟩
  split
  · exact ⟨rfl, (similar.write _ _).advance⟩
  · exact ⟨rfl, similar⟩

end Cpu.Similar

theorem call_matches {first second : Cpu} (similar : first.Similar second) (call : CpuCall) :
    Matches (Ptr.Both Cpu.Similar) (cpuCall (.ref first) call) (cpuCall (.ref second) call) := by
  have both {cpu other : Cpu} (similar : cpu.Similar other) :
      Ptr.Both Cpu.Similar (.ref cpu) (.ref other) := ⟨cpu, other, rfl, rfl, similar⟩
  cases call with
  | setGpr index value =>
    simp only [cpuCall, cpuSetGpr_correct]
    split
    · exact .same (both (similar.write _ value))
    · exact .same (both similar)
  | setPc pc =>
    simp only [cpuCall, cpuSetPc_correct]
    split
    · exact .same (both ⟨similar.gpr, rfl⟩)
    · exact .same (both similar)
  | execute raw scratch =>
    obtain ⟨statuses, ends⟩ := similar.executed raw
    simp only [cpuCall, decodeAndExecute_correct, statuses]
    exact .same (both ends)

theorem request_matches (first second : Ptr Cpu) (request : CpuRequest)
    (similar : Ptr.Both Cpu.Similar first second) :
    Matches (Ptr.Both Cpu.Similar) (request.answer first) (request.answer second) := by
  have kept := similar
  obtain ⟨cpu, other, rfl, rfl, similar⟩ := similar
  cases request with
  | reset resetPc => exact .same ⟨_, _, rfl, rfl, rfl, rfl⟩
  | getGpr index outValue =>
    cases outValue with
    | null => exact .same kept
    | ref out =>
      simp only [CpuRequest.answer, cpuMipsGetGpr_correct, similar.gpr, Option.map_some]
      exact .same kept
  | getPc outPc =>
    cases outPc with
    | null => exact .same kept
    | ref out =>
      simp only [CpuRequest.answer, cpuGetPc, similar.pc]
      exact .same kept
  | call request => exact (call_matches similar request).map CpuAnswer.status

section Probes

variable {first second : Cpu}
  (alike : Alike CpuRequest.answer CpuRequest.answer (.ref first) (.ref second))

include alike

theorem pc_alike : first.pc = second.pc := by
  have answers (cpu : Cpu) : (CpuRequest.getPc (.ref 0)).answer (.ref cpu) =
      some (.value .ok (.ref cpu.pc), .ref cpu) := rfl
  have same := (alike.next _ (answers first) (answers second)).1
  simpa using same

theorem gpr_alike (index : Fin gprCount) (real : index ≠ 0) :
    first.gpr index = second.gpr index := by
  have small : (BitVec.ofNat 32 index).toNat = index := by
    rw [BitVec.toNat_ofNat]
    exact Nat.mod_eq_of_lt (Nat.lt_trans index.isLt (by decide))
  have bound : (BitVec.ofNat 32 index).toNat < gprCount := by
    rw [small]
    exact index.isLt
  have named : BitVec.ofNat 32 index ≠ 0 := by
    intro zero
    rw [zero] at small
    exact real (Fin.ext small.symm)
  have answers (cpu : Cpu) : (CpuRequest.getGpr (.ofNat 32 index) (.ref 0)).answer (.ref cpu) =
      some (.value .ok (.ref (cpu.gpr index)), .ref cpu) := by
    have read : cpu.gpr ⟨(BitVec.ofNat 32 index).toNat, bound⟩ = cpu.gpr index :=
      congrArg cpu.gpr (Fin.ext small)
    rw [CpuRequest.answer, cpuMipsGetGpr_correct, dif_pos bound, if_neg named, read]
    rfl
  have same := (alike.next _ (answers first) (answers second)).1
  simpa using same

-- DADDIU r1, r0, 0 moves what lies behind register 0 into register 1.
theorem slot_alike : first.gpr 0 = second.gpr 0 := by
  have executes (cpu : Cpu) : executed 0x64010000 cpu = (.ok, (cpu.write 1 (cpu.gpr 0)).advance) := by
    have sum : cpu.gpr 0 + BitVec.ofNat 64 0 = cpu.gpr 0 := BitVec.add_zero _
    rw [← sum]
    rfl
  have answers (cpu : Cpu) : (CpuRequest.call (.execute 0x64010000 default)).answer (.ref cpu) =
      some (.status .ok, .ref (cpu.write 1 (cpu.gpr 0)).advance) := by
    rw [CpuRequest.answer, cpuCall, decodeAndExecute_correct, executes]
    rfl
  have moved := (alike.next _ (answers first) (answers second)).2
  have same := gpr_alike moved 1 (by decide)
  simpa using same

end Probes

/-- No requests tell two CPUs apart just when their pcs and all 32 registers are the same: `hi` and
`lo` are out of reach, what lies behind register 0 is not. -/
theorem cpus_alike_iff (first second : Cpu) :
    Alike CpuRequest.answer CpuRequest.answer (.ref first) (.ref second) ↔
      first.gpr = second.gpr ∧ first.pc = second.pc := by
  constructor
  · intro alike
    refine ⟨?_, pc_alike alike⟩
    funext index
    by_cases zero : index = 0
    · exact zero ▸ slot_alike alike
    · exact gpr_alike alike index zero
  · rintro ⟨gpr, pc⟩
    exact alike_of_matches (Ptr.Both Cpu.Similar) request_matches ⟨first, second, rfl, rfl, gpr, pc⟩

end Observations

end Mips64
