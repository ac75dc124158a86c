import Mips64Emulator.Isa.DecodeExecute
import Mips64Emulator.Shared.Overlay
import Mips64Emulator.Shared.Transducer

set_option autoImplicit false

namespace Mips64

inductive CpuCall where
  | setGpr (index : BitVec 32) (value : BitVec 64)
  | setPc (pc : BitVec 64)
  | execute (raw : BitVec 32) (scratch : Decoded)

def cpuCall (cpu : Ptr Cpu) : CpuCall → Option (Status × Ptr Cpu)
  | .setGpr index value => cpuSetGpr cpu index value
  | .setPc pc => some (cpuSetPc cpu pc)
  | .execute raw scratch => decodeAndExecute raw scratch cpu

abbrev RegisterWrite := Fin gprCount → Option (BitVec 64)

-- Register 0 reads as 0 whatever was put there.
def registerValue (writes : List RegisterWrite) (index : Fin gprCount) : BitVec 64 :=
  if index = 0 then 0 else (Overlay.latest writes index).getD 0

def instructionWrites (raw : BitVec 32) (file : Fin gprCount → BitVec 64) : List RegisterWrite :=
  if raw = 0 then []
  else if field raw 26 6 = 0 ∧ field raw 0 6 = 0x2D then
    [Overlay.single (register raw 11) (file (register raw 21) + file (register raw 16))]
  else if field raw 26 6 = 0x19 then
    [Overlay.single (register raw 16)
      (file (register raw 21) + BitVec.ofNat 64 (field raw 0 12))]
  else []

def callWrites (file : Fin gprCount → BitVec 64) : CpuCall → List RegisterWrite
  | .setGpr index value =>
    if bound : index.toNat < gprCount then [Overlay.single ⟨index.toNat, bound⟩ value] else []
  | .setPc _ => []
  | .execute raw _ => instructionWrites raw file

/-- The register writes of a run, newest first. -/
def registerHistory (calls : List CpuCall) : List RegisterWrite :=
  calls.foldl (fun writes call => callWrites (registerValue writes) call ++ writes) []

theorem registerHistory_snoc (calls : List CpuCall) (call : CpuCall) :
    registerHistory (calls ++ [call]) =
      callWrites (registerValue (registerHistory calls)) call ++ registerHistory calls := by
  simp [registerHistory, List.foldl_append]

theorem registerValue_single (writes : List RegisterWrite) (target : Fin gprCount)
    (value : BitVec 64) (cpu : Cpu) (agrees : cpu.gpr = registerValue writes) :
    (cpu.write target value).gpr = registerValue ([Overlay.single target value] ++ writes) := by
  funext index
  rw [Cpu.write_gpr, registerValue]
  by_cases zero : index = 0
  · simp [zero]
  · by_cases same : index = target <;>
      simp [zero, same, agrees, registerValue, Overlay.latest_cons, Overlay.single]

structure Cpu.Sound (cpu : Cpu) : Prop where
  zero : cpu.gpr 0 = 0
  aligned : 4 ∣ cpu.pc.toNat
  hi : cpu.hi = 0
  lo : cpu.lo = 0

theorem Cpu.Sound.cleared (pc : BitVec 64) (aligned : 4 ∣ pc.toNat) : (Cpu.cleared pc).Sound :=
  ⟨rfl, aligned, rfl, rfl⟩

theorem Cpu.Sound.write {cpu : Cpu} (sound : cpu.Sound) (target : Fin gprCount)
    (value : BitVec 64) : (cpu.write target value).Sound :=
  ⟨by simp, sound.aligned, sound.hi, sound.lo⟩

theorem Cpu.Sound.advance {cpu : Cpu} (sound : cpu.Sound) : cpu.advance.Sound := by
  refine ⟨sound.zero, ?_, sound.hi, sound.lo⟩
  have aligned := sound.aligned
  rw [Cpu.advance_pc]
  bv_omega

structure CallEffect (before : Cpu) (call : CpuCall) (status : Status) (after : Cpu) : Prop where
  rejected : status ≠ .ok → after = before
  executed : ∀ raw scratch, call = .execute raw scratch → status = .ok →
    after.pc = before.pc + 4 ∧ after.hi = before.hi ∧ after.lo = before.lo ∧
      ∃ target, ∀ index ≠ target, after.gpr index = before.gpr index

theorem executed_cases (raw : BitVec 32) (cpu : Cpu) :
    (executed raw cpu = (.ok, cpu.advance) ∧ instructionWrites raw cpu.gpr = []) ∨
    (∃ target value, executed raw cpu = (.ok, (cpu.write target value).advance) ∧
      instructionWrites raw cpu.gpr = [Overlay.single target value]) ∨
    (executed raw cpu = (.notImplemented, cpu) ∧ instructionWrites raw cpu.gpr = []) := by
  unfold executed instructionWrites
  split
  · exact .inl ⟨rfl, rfl⟩
  split
  · exact .inr (.inl ⟨_, _, rfl, rfl⟩)
  split
  · exact .inr (.inl ⟨_, _, rfl, rfl⟩)
  · exact .inr (.inr ⟨rfl, rfl⟩)

theorem write_others {cpu : Cpu} (zero : cpu.gpr 0 = 0) (target : Fin gprCount)
    (value : BitVec 64) (index : Fin gprCount) (other : index ≠ target) :
    (cpu.write target value).gpr index = cpu.gpr index := by
  by_cases isZero : index = 0
  · simp [isZero, zero]
  · simp [isZero, other]

section Call

variable {cpu : Cpu} {writes : List RegisterWrite} (sound : cpu.Sound)
  (agrees : cpu.gpr = registerValue writes)

include sound agrees

theorem executed_keeps (raw : BitVec 32) (scratch : Decoded) :
    (executed raw cpu).2.Sound ∧
      (executed raw cpu).2.gpr =
        registerValue (instructionWrites raw (registerValue writes) ++ writes) ∧
      CallEffect cpu (.execute raw scratch) (executed raw cpu).1 (executed raw cpu).2 := by
  rw [← agrees]
  rcases executed_cases raw cpu with
    ⟨ran, wrote⟩ | ⟨target, value, ran, wrote⟩ | ⟨ran, wrote⟩ <;> rw [ran, wrote]
  · refine ⟨sound.advance, agrees, by simp, ?_⟩
    intro _ _ _ _
    exact ⟨rfl, rfl, rfl, 0, fun _ _ => rfl⟩
  · refine ⟨(sound.write target value).advance, ?_, by simp, ?_⟩
    · exact registerValue_single writes target value cpu agrees
    · intro _ _ _ _
      exact ⟨rfl, rfl, rfl, target, write_others sound.zero target value⟩
  · exact ⟨sound, agrees, by simp, by simp⟩

theorem cpuCall_correct (call : CpuCall) :
    ∃ status after, cpuCall (.ref cpu) call = some (status, .ref after) ∧ after.Sound ∧
      after.gpr = registerValue (callWrites (registerValue writes) call ++ writes) ∧
      CallEffect cpu call status after := by
  cases call with
  | setGpr index value =>
    rw [cpuCall, cpuSetGpr_correct, callWrites]
    by_cases bound : index.toNat < gprCount
    · refine ⟨_, _, by rw [dif_pos bound], sound.write _ value, ?_, by simp, by simp⟩
      rw [dif_pos bound]
      exact registerValue_single writes _ value cpu agrees
    · refine ⟨_, _, by rw [dif_neg bound], sound, ?_, fun _ => rfl, by simp⟩
      rw [dif_neg bound]
      exact agrees
  | setPc pc =>
    rw [cpuCall, cpuSetPc_correct]
    by_cases aligned : 4 ∣ pc.toNat
    · exact ⟨.ok, { cpu with pc := pc }, by rw [if_pos aligned],
        ⟨sound.zero, aligned, sound.hi, sound.lo⟩, agrees, by simp, by simp⟩
    · exact ⟨_, _, by rw [if_neg aligned], sound, agrees, fun _ => rfl, by simp⟩
  | execute raw scratch =>
    exact ⟨_, _, decodeAndExecute_correct raw scratch cpu, executed_keeps sound agrees raw scratch⟩

end Call

/-- After any run of calls: no index leaves the register file (every call answers), the CPU is
sound, and every register holds what the history last put there. -/
theorem cpuRun_correct (pc : BitVec 64) (aligned : 4 ∣ pc.toNat) (calls : List CpuCall) :
    ∃ responses cpu,
      Transducer.run cpuCall (.ref (Cpu.cleared pc)) calls = some (responses, .ref cpu) ∧
      cpu.Sound ∧ cpu.gpr = registerValue (registerHistory calls) := by
  let Kept (history : List CpuCall) (state : Ptr Cpu) : Prop :=
    ∃ cpu, state = .ref cpu ∧ cpu.Sound ∧ cpu.gpr = registerValue (registerHistory history)
  have initial : Kept [] (.ref (Cpu.cleared pc)) := by
    refine ⟨_, rfl, .cleared pc aligned, ?_⟩
    funext index
    simp [Cpu.cleared, registerValue, registerHistory]
  have answers (history : List CpuCall) (state : Ptr Cpu) (call : CpuCall) (kept : Kept history state)
      (_ : True) : ∃ status next, cpuCall state call = some (status, next) ∧
        Kept (history ++ [call]) next := by
    obtain ⟨cpu, rfl, sound, agrees⟩ := kept
    obtain ⟨status, after, answered, still, wrote, -⟩ := cpuCall_correct sound agrees call
    exact ⟨status, .ref after, answered, after, rfl, still, by rw [registerHistory_snoc, wrote]⟩
  obtain ⟨responses, _, ran, cpu, rfl, sound, agrees⟩ :=
    Transducer.run_history Kept (fun _ => True) answers [] _ calls initial (fun _ _ => trivial)
  exact ⟨responses, cpu, ran, sound, agrees⟩

theorem Cpu.Sound.getGpr {cpu : Cpu} (sound : cpu.Sound) (index : BitVec 32) (out : BitVec 64) :
    cpuMipsGetGpr (.ref cpu) index (.ref out) =
      some (if bound : index.toNat < gprCount then (.ok, .ref (cpu.gpr ⟨index.toNat, bound⟩))
      else (.invalidRegister, .ref out)) := by
  rw [cpuMipsGetGpr_correct]
  by_cases zero : index = 0
  · subst zero
    simpa using sound.zero.symm
  · simp only [zero, if_false]

theorem decodedOperands_bound (raw : BitVec 32) (scratch decoded : Decoded)
    (output : decodeInstruction raw (.ref scratch) = some (.ref decoded)) :
    decoded.rs.toNat < gprCount ∧ decoded.rt.toNat < gprCount ∧ decoded.rd.toNat < gprCount := by
  obtain ⟨other, same, decodes⟩ := decodeInstruction_correct raw scratch
  obtain rfl : decoded = other := by simpa [output] using same
  rw [decodes.rs, decodes.rt, decodes.rd]
  exact ⟨field_lt raw 21 5, field_lt raw 16 5, field_lt raw 11 5⟩

theorem cpuCalls_invariant (garbage : Cpu) (pc : BitVec 64) (aligned : 4 ∣ pc.toNat)
    (calls : List CpuCall) :
    (∀ raw scratch decoded, decodeInstruction raw (.ref scratch) = some (.ref decoded) →
      decoded.rs.toNat < gprCount ∧ decoded.rt.toNat < gprCount ∧ decoded.rd.toNat < gprCount) ∧
    ∃ start responses cpu, cpuReset (.ref garbage) pc = some (.ok, .ref start) ∧
      Transducer.run cpuCall (.ref start) calls = some (responses, .ref cpu) ∧
      cpu.Sound ∧
      (∀ call, ∃ status after, cpuCall (.ref cpu) call = some (status, .ref after) ∧
        CallEffect cpu call status after) ∧
      ∀ index out, cpuMipsGetGpr (.ref cpu) index (.ref out) =
        some (if bound : index.toNat < gprCount then
          (.ok, .ref (registerValue (registerHistory calls) ⟨index.toNat, bound⟩))
        else (.invalidRegister, .ref out)) := by
  obtain ⟨responses, cpu, ran, sound, agrees⟩ := cpuRun_correct pc aligned calls
  refine ⟨decodedOperands_bound, _, responses, cpu, rfl, ran, sound, ?_, ?_⟩
  · intro call
    obtain ⟨status, after, answered, -, -, effect⟩ := cpuCall_correct sound agrees call
    exact ⟨status, after, answered, effect⟩
  · intro index out
    rw [sound.getGpr, agrees]

-- r1 := 5, then DADDIU r2, r1, 7.
theorem cpuCalls_daddiu :
    ∃ responses cpu,
      Transducer.run cpuCall (.ref (Cpu.cleared 0))
        [.setGpr 1 5, .execute 0x64220007 default] = some (responses, .ref cpu) ∧
      cpuMipsGetGpr (.ref cpu) 2 (.ref 0) = some (.ok, .ref 12) := by
  obtain ⟨-, start, responses, cpu, reset, ran, -, -, read⟩ :=
    cpuCalls_invariant (Cpu.cleared 0) 0 (by decide) [.setGpr 1 5, .execute 0x64220007 default]
  obtain rfl : Cpu.cleared 0 = start := by simpa [cpuReset] using reset
  have value : registerValue
      (registerHistory [.setGpr 1 5, .execute 0x64220007 default]) 2 = 12 := by decide
  refine ⟨responses, cpu, ran, ?_⟩
  rw [read, dif_pos (by decide)]
  exact congrArg (fun value => some (Status.ok, Ptr.ref value)) value

end Mips64
