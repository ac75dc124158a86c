import Mips64Emulator.Api.Calls
import Mips64Emulator.Isa.RegisterHistory

set_option autoImplicit false

namespace Mips64

-- `out` is what `*get_gpr` holds before the call.
inductive RegisterCall where
  | set (index : BitVec 32) (value : BitVec 64)
  | get (index : BitVec 32) (out : BitVec 64)

namespace RegisterCall

def call : RegisterCall → Call
  | set index value => .setGpr index value
  | get index out => .getGpr index (.ref out)

def writes : RegisterCall → List RegisterWrite
  | set index value =>
    if bound : index.toNat < gprCount then [Overlay.single ⟨index.toNat, bound⟩ value] else []
  | get _ _ => []

-- The answer of a register file that has seen `writes`, newest first.
def answer (writes : List RegisterWrite) : RegisterCall → Response
  | set index _ => .status (if index.toNat < gprCount then .ok else .invalidRegister)
  | get index out =>
    if bound : index.toNat < gprCount then
      .value .ok (.ref (registerValue writes ⟨index.toNat, bound⟩))
    else .value .invalidRegister (.ref out)

def reply : RegisterCall → Response
  | set _ _ => .status .ok
  | get _ out => .value .ok (.ref out)

def Honoured (writes : List RegisterWrite) : RegisterCall → Prop
  | set index _ => index.toNat < gprCount
  | get index out =>
    ∃ bound : index.toNat < gprCount, out = registerValue writes ⟨index.toNat, bound⟩

theorem reply_eq_answer_iff (writes : List RegisterWrite) (call : RegisterCall) :
    call.reply = call.answer writes ↔ call.Honoured writes := by
  cases call with
  | set index value => by_cases bound : index.toNat < gprCount <;> simp [reply, answer, Honoured, bound]
  | get index out => by_cases bound : index.toNat < gprCount <;> simp [reply, answer, Honoured, bound]

end RegisterCall

def registerAnswers : List RegisterWrite → List RegisterCall → List Response
  | _, [] => []
  | writes, call :: rest => call.answer writes :: registerAnswers (call.writes ++ writes) rest

def RegistersHonoured : List RegisterWrite → List RegisterCall → Prop
  | _, [] => True
  | writes, call :: rest => call.Honoured writes ∧ RegistersHonoured (call.writes ++ writes) rest

theorem replies_eq_answers_iff (writes : List RegisterWrite) (calls : List RegisterCall) :
    calls.map RegisterCall.reply = registerAnswers writes calls ↔
      RegistersHonoured writes calls := by
  induction calls generalizing writes with
  | nil => simp [registerAnswers, RegistersHonoured]
  | cons call rest ih =>
    simp only [List.map_cons, registerAnswers, RegistersHonoured, List.cons.injEq, ih,
      RegisterCall.reply_eq_answer_iff]

theorem registerRun_correct (emulator : Emulator) (calls : List RegisterCall) :
    Transducer.run Call.apply (.ref emulator) (calls.map RegisterCall.call) =
      some (calls.map RegisterCall.reply, .ref emulator) := by
  induction calls with
  | nil => rfl
  | cons call rest ih =>
    have applied : call.call.apply (.ref emulator) = some (call.reply, .ref emulator) := by
      cases call <;> rfl
    apply (Transducer.run_cons _ _ _ _ _).mpr
    exact ⟨_, _, _, applied, ih, rfl⟩

def SetAgrees (emulator : Emulator) (index : BitVec 32) (value : BitVec 64) : Prop :=
  some (setGpr (.ref emulator) index value) =
    (cpuSetGpr (.ref emulator.cpu) index value).map fun (status, cpu) =>
      (status, cpu.map fun cpu => { emulator with cpu := cpu })

def GetAgrees (emulator : Emulator) (index : BitVec 32) (out : BitVec 64) : Prop :=
  some (getGpr (.ref emulator) index (.ref out)) =
    cpuMipsGetGpr (.ref emulator.cpu) index (.ref out)

theorem write_eq_self_iff (cpu : Cpu) (target : Fin gprCount) (value : BitVec 64) :
    cpu = cpu.write target value ↔
      cpu.gpr 0 = 0 ∧ (target = 0 ∨ cpu.gpr target = value) := by
  constructor
  · intro same
    have at0 := congrArg (fun after : Cpu => after.gpr 0) same
    have atTarget := congrArg (fun after : Cpu => after.gpr target) same
    simp only [Cpu.write_gpr, if_true] at at0 atTarget
    refine ⟨at0, ?_⟩
    by_cases zero : target = 0
    · exact Or.inl zero
    · exact Or.inr (by simpa [zero] using atTarget)
  · rintro ⟨zero, kept⟩
    have file : cpu.gpr = (cpu.write target value).gpr := by
      funext index
      rw [Cpu.write_gpr]
      by_cases first : index = 0
      · simp [first, zero]
      · rcases kept with discarded | held
        · simp [first, discarded]
        · by_cases same : index = target
          · subst same
            simp [first, held]
          · simp [first, same]
    calc cpu = { cpu with gpr := (cpu.write target value).gpr } := by rw [← file]
      _ = cpu.write target value := rfl

theorem setAgrees_iff (emulator : Emulator) (index : BitVec 32) (value : BitVec 64) :
    SetAgrees emulator index value ↔
      ∃ bound : index.toNat < gprCount, emulator.cpu.gpr 0 = 0 ∧
        (index = 0 ∨ emulator.cpu.gpr ⟨index.toNat, bound⟩ = value) := by
  rw [SetAgrees, cpuSetGpr_correct]
  by_cases bound : index.toNat < gprCount
  · have zero : (⟨index.toNat, bound⟩ : Fin gprCount) = 0 ↔ index = 0 := by
      rw [Fin.ext_iff, BitVec.toNat_eq]
      rfl
    have kept := write_eq_self_iff emulator.cpu ⟨index.toNat, bound⟩ value
    rw [zero] at kept
    have fields : emulator = { emulator with cpu := emulator.cpu.write ⟨index.toNat, bound⟩ value } ↔
        emulator.cpu = emulator.cpu.write ⟨index.toNat, bound⟩ value := by
      constructor
      · exact congrArg Emulator.cpu
      · intro same
        rw [← same]
    simp only [bound, dif_pos, Option.map_some, setGpr, Option.some.injEq, Prod.mk.injEq, true_and,
      Ptr.map, Ptr.ref.injEq, exists_true_left]
    rw [fields, kept]
  · simp [bound, setGpr]

theorem getAgrees_iff (emulator : Emulator) (index : BitVec 32) (out : BitVec 64) :
    GetAgrees emulator index out ↔
      ∃ bound : index.toNat < gprCount,
        out = if index = 0 then 0 else emulator.cpu.gpr ⟨index.toNat, bound⟩ := by
  rw [GetAgrees, cpuMipsGetGpr_correct]
  by_cases bound : index.toNat < gprCount
  · simp [bound, getGpr]
  · simp [bound, getGpr]

/-- The API answers like a register file exactly where storing nothing cannot be told apart. -/
theorem registerApi_iff (config : Config) (start : Emulator) (created : Created config start)
    (calls : List RegisterCall) :
    start.cpu.gpr = registerValue [] ∧
    (∃ responses,
      Transducer.run Call.apply (.ref start) (calls.map RegisterCall.call) =
        some (responses, .ref start) ∧
      (responses = registerAnswers [] calls ↔ RegistersHonoured [] calls)) ∧
    (∀ (emulator : Emulator) (index : BitVec 32) (value : BitVec 64),
      SetAgrees emulator index value ↔
        ∃ bound : index.toNat < gprCount, emulator.cpu.gpr 0 = 0 ∧
          (index = 0 ∨ emulator.cpu.gpr ⟨index.toNat, bound⟩ = value)) ∧
    (∀ (emulator : Emulator) (index : BitVec 32) (out : BitVec 64),
      GetAgrees emulator index out ↔
        ∃ bound : index.toNat < gprCount,
          out = if index = 0 then 0 else emulator.cpu.gpr ⟨index.toNat, bound⟩) := by
  obtain ⟨-, rfl⟩ := (created_iff config start).mp created
  refine ⟨?_, ⟨_, registerRun_correct _ calls, replies_eq_answers_iff [] calls⟩, setAgrees_iff,
    getAgrees_iff⟩
  funext index
  simp [fresh, Cpu.cleared, registerValue]

-- Setting register 3 and reading it into a variable that already holds the value.
theorem registerApi_heldValue :
    let config : Config :=
      { memorySize := 4, resetPc := 0, endian := .big, clearMemoryOnReset := 0 }
    let calls : List RegisterCall := [.set 3 7, .get 3 7]
    (∃ responses,
      Transducer.run Call.apply (.ref (fresh config)) (calls.map RegisterCall.call) =
        some (responses, .ref (fresh config)) ∧
      responses = registerAnswers [] calls) ∧
    SetAgrees (fresh config) 3 0 ∧ ¬ SetAgrees (fresh config) 3 7 ∧
    GetAgrees (fresh config) 3 0 ∧ ¬ GetAgrees (fresh config) 3 7 := by
  intro config calls
  have bound : (3 : BitVec 32).toNat < gprCount := by decide
  have honoured : RegistersHonoured [] calls := ⟨bound, ⟨bound, rfl⟩, trivial⟩
  obtain ⟨-, ⟨responses, ran, answers⟩, sets, gets⟩ :=
    registerApi_iff config (fresh config) ((created_iff _ _).mpr ⟨by decide, rfl⟩) calls
  refine ⟨⟨responses, ran, answers.mpr honoured⟩, ?_, ?_, ?_, ?_⟩
  · exact (sets _ 3 0).mpr ⟨by decide, rfl, Or.inr rfl⟩
  · rw [sets]
    decide
  · exact (gets _ 3 0).mpr ⟨by decide, rfl⟩
  · rw [gets]
    decide

-- Read into a variable that holds 0, register 3 is still 0 after it was set to 7.
theorem registerApi_lostValue :
    let config : Config :=
      { memorySize := 4, resetPc := 0, endian := .big, clearMemoryOnReset := 0 }
    let calls : List RegisterCall := [.set 3 7, .get 3 0]
    ∃ responses, Created config (fresh config) ∧
      Transducer.run Call.apply (.ref (fresh config)) (calls.map RegisterCall.call) =
        some (responses, .ref (fresh config)) ∧
      responses ≠ registerAnswers [] calls := by
  intro config calls
  refine ⟨_, (created_iff _ _).mpr ⟨by decide, rfl⟩, registerRun_correct _ calls, ?_⟩
  decide

end Mips64
