import Mathlib.Data.BitVec
import Mips64Emulator.Isa.Reordering
import Mips64Emulator.Shared.AffineMaps

set_option autoImplicit false

namespace Mips64

namespace Stream

open AffineMaps Matrix

-- Register 0 is no cell: it reads as 0 and keeps nothing.
def cells (cpu : Cpu) : Fin 31 → BitVec 64 := fun cell => cpu.gpr cell.succ

def weight (index : Fin gprCount) : Fin 31 → BitVec 64 :=
  Fin.cases 0 (fun cell => Pi.single cell 1) index

def constant (raw : BitVec 32) : BitVec 64 :=
  if raw = 0 ∨ field raw 26 6 = 0 ∧ field raw 0 6 = 0x2D then 0
  else BitVec.ofNat 64 (field raw 0 12)

def instructionMap (raw : BitVec 32) : Affine (Fin 31) (BitVec 64) :=
  if Handled raw then
    Fin.cases .identity (fun target => .assign target ((sources raw).map weight).sum (constant raw))
      (destination raw)
  else .identity

section Registers

variable {cpu : Cpu} (zero : cpu.gpr 0 = 0)

include zero

theorem gpr_cells : cpu.gpr = Fin.cons 0 (cells cpu) := by
  funext index
  induction index using Fin.cases with
  | zero => exact zero
  | succ cell => rfl

theorem weight_dotProduct (index : Fin gprCount) : weight index ⬝ᵥ cells cpu = cpu.gpr index := by
  induction index using Fin.cases with
  | zero => simp [weight, zero]
  | succ cell => simp [weight, cells]

theorem result_dotProduct (raw : BitVec 32) :
    result raw cpu.gpr = ((sources raw).map weight).sum ⬝ᵥ cells cpu + constant raw := by
  by_cases nop : raw = 0#32
  · simp [result, sources, constant, nop]
  by_cases daddu : field raw 26 6 = 0 ∧ field raw 0 6 = 0x2D
  · have fetched (index : Fin gprCount) := weight_dotProduct zero index
    simp [result, sources, constant, nop, daddu, add_dotProduct, fetched]
  · have fetched := weight_dotProduct zero (register raw 21)
    simp [result, sources, constant, nop, daddu, fetched]

theorem write_cells (target : Fin gprCount) (weights : Fin 31 → BitVec 64) (added : BitVec 64) :
    cells (cpu.write target (weights ⬝ᵥ cells cpu + added)).advance =
      (Fin.cases .identity (fun cell => Affine.assign cell weights added) target :
        Affine (Fin 31) (BitVec 64)).act (cells cpu) := by
  induction target using Fin.cases with
  | zero =>
    rw [write_zero zero]
    exact (Affine.act_identity _).symm
  | succ cell =>
    simp only [Fin.cases_succ, Affine.act_assign]
    funext other
    by_cases here : other = cell
    · subst here
      simp [cells]
    · simp [cells, here]

end Registers

section Streams

def advanced (cpu : Cpu) (word : Fetched) : Cpu :=
  if Handled word.raw then retired cpu word.raw else cpu

def answered (word : Fetched) : Status := if Handled word.raw then .ok else .notImplemented

def wordMap (word : Fetched) : Affine (Fin 31) (BitVec 64) := instructionMap word.raw

def accepted (words : List Fetched) : Nat := words.countP fun word => Handled word.raw

def outcome (words : List Fetched) (cpu : Cpu) : Cpu where
  gpr := Fin.cons 0 ((Affine.summary wordMap words).act (cells cpu))
  pc := cpu.pc + BitVec.ofNat 64 (4 * accepted words)
  hi := cpu.hi
  lo := cpu.lo

theorem executed_unhandled (cpu : Cpu) (raw : BitVec 32) (unhandled : ¬ Handled raw) :
    executed raw cpu = (.notImplemented, cpu) := by
  simp only [Handled, not_or] at unhandled
  rw [executed, if_neg unhandled.1, if_neg unhandled.2.1, if_neg unhandled.2.2]

theorem call_correct {cpu : Cpu} (zero : cpu.gpr 0 = 0) (word : Fetched) :
    word.call (.ref cpu) = some (answered word, .ref (advanced cpu word)) := by
  rw [Fetched.call, decodeAndExecute_correct]
  by_cases handled : Handled word.raw
  · rw [executed_retired zero word.raw handled, answered, advanced, if_pos handled, if_pos handled]
  · rw [executed_unhandled cpu word.raw handled, answered, advanced, if_neg handled,
      if_neg handled]

theorem advanced_zero {cpu : Cpu} (zero : cpu.gpr 0 = 0) (word : Fetched) :
    (advanced cpu word).gpr 0 = 0 := by
  rw [advanced]
  split
  · exact retired_zero cpu word.raw
  · exact zero

theorem advanced_cells {cpu : Cpu} (zero : cpu.gpr 0 = 0) (word : Fetched) :
    cells (advanced cpu word) = (wordMap word).act (cells cpu) := by
  by_cases handled : Handled word.raw
  · rw [advanced, wordMap, instructionMap, if_pos handled, if_pos handled, retired,
      result_dotProduct zero]
    exact write_cells zero _ _ _
  · rw [advanced, wordMap, instructionMap, if_neg handled, if_neg handled, Affine.act_identity]

theorem accepted_cons (word : Fetched) (rest : List Fetched) :
    accepted (word :: rest) = accepted [word] + accepted rest := by
  simp only [accepted, List.countP_cons, List.countP_nil, Nat.zero_add]
  exact Nat.add_comm _ _

theorem advanced_others (cpu : Cpu) (word : Fetched) :
    (advanced cpu word).pc = cpu.pc + BitVec.ofNat 64 (4 * accepted [word]) ∧
      (advanced cpu word).hi = cpu.hi ∧ (advanced cpu word).lo = cpu.lo := by
  by_cases handled : Handled word.raw
  · rw [advanced, if_pos handled]
    have count : accepted [word] = 1 := by simp [accepted, handled]
    rw [count]
    exact ⟨rfl, rfl, rfl⟩
  · rw [advanced, if_neg handled]
    have count : accepted [word] = 0 := by simp [accepted, handled]
    rw [count]
    exact ⟨(BitVec.add_zero _).symm, rfl, rfl⟩

theorem outcome_cons {cpu : Cpu} (zero : cpu.gpr 0 = 0) (word : Fetched) (rest : List Fetched) :
    outcome rest (advanced cpu word) = outcome (word :: rest) cpu := by
  have registers : (Affine.summary wordMap rest).act (cells (advanced cpu word)) =
      (Affine.summary wordMap (word :: rest)).act (cells cpu) := by
    rw [Affine.act_summary, Affine.act_summary, List.foldl_cons, advanced_cells zero]
  obtain ⟨pc, hi, lo⟩ := advanced_others cpu word
  rw [outcome, outcome, registers, pc, hi, lo, accepted_cons word rest, Nat.mul_add, BitVec.ofNat_add,
    BitVec.add_assoc]

theorem stream_correct {cpu : Cpu} (zero : cpu.gpr 0 = 0) (words : List Fetched) :
    Transducer.run Fetched.call (.ref cpu) words =
      some (words.map answered, .ref (outcome words cpu)) := by
  induction words generalizing cpu with
  | nil =>
    have unchanged : outcome [] cpu = cpu := by
      obtain ⟨gpr, pc, hi, lo⟩ := cpu
      simp only [outcome, Affine.summary_nil, Affine.act_identity, ← gpr_cells zero]
      simp [accepted]
    rw [unchanged]
    rfl
  | cons word rest ih =>
    have continued := ih (advanced_zero zero word)
    rw [outcome_cons zero] at continued
    exact (Transducer.run_cons _ _ _ _ _).mpr
      ⟨_, _, _, call_correct zero word, continued, rfl⟩

end Streams

section Blocks

theorem outcome_append (words rest : List Fetched) (cpu : Cpu) :
    outcome (words ++ rest) cpu = outcome rest (outcome words cpu) := by
  have registers : cells (outcome words cpu) = (Affine.summary wordMap words).act (cells cpu) := rfl
  have moves : accepted (words ++ rest) = accepted words + accepted rest := List.countP_append
  rw [outcome, outcome, registers, moves]
  simp only [Affine.act_summary, List.foldl_append, outcome, Nat.mul_add, BitVec.ofNat_add,
    BitVec.add_assoc]

theorem outcome_flatten (blocks : List (List Fetched)) {cpu : Cpu} (zero : cpu.gpr 0 = 0) :
    outcome blocks.flatten cpu = blocks.foldl (fun cpu block => outcome block cpu) cpu := by
  induction blocks generalizing cpu with
  | nil =>
    obtain ⟨gpr, pc, hi, lo⟩ := cpu
    simp only [List.flatten_nil, outcome, Affine.summary_nil, Affine.act_identity,
      ← gpr_cells zero]
    simp [accepted]
  | cons block rest ih =>
    rw [List.flatten_cons, outcome_append, ih rfl, List.foldl_cons]

/-- However a stream is cut into blocks, the maps worked out once for each block end where the words
do one by one, and every word answers. -/
theorem blocks_run (blocks : List (List Fetched)) {cpu : Cpu} (zero : cpu.gpr 0 = 0) :
    Transducer.run Fetched.call (.ref cpu) blocks.flatten =
      some (blocks.flatten.map answered,
        .ref (blocks.foldl (fun cpu block => outcome block cpu) cpu)) := by
  rw [stream_correct zero, outcome_flatten blocks zero]

-- DADDIU r1, r1, 1 twice, then ADD, which is refused, and DADDU r2, r1, r1.
theorem blocks_run_three :
    let blocks : List (List Fetched) :=
      [[⟨0x64210001, default⟩, ⟨0x64210001, default⟩],
        [⟨0x00211020, default⟩, ⟨0x0021102D, default⟩]]
    Transducer.run Fetched.call (.ref (Cpu.cleared 0)) blocks.flatten =
      some (blocks.flatten.map answered,
        .ref (blocks.foldl (fun cpu block => outcome block cpu) (Cpu.cleared 0))) :=
  blocks_run _ rfl

end Blocks

section Equivalence

def Equivalent (words others : List Fetched) : Prop :=
  ∀ cpu : Cpu, cpu.gpr 0 = 0 →
    (Transducer.run Fetched.call (.ref cpu) words).map Prod.snd =
      (Transducer.run Fetched.call (.ref cpu) others).map Prod.snd

theorem equivalent_iff_outcome (words others : List Fetched) :
    Equivalent words others ↔
      ∀ cpu : Cpu, cpu.gpr 0 = 0 → outcome words cpu = outcome others cpu := by
  refine forall_congr' fun cpu => imp_congr_right fun zero => ?_
  rw [stream_correct zero, stream_correct zero]
  simp

theorem equivalent_iff (words others : List Fetched) :
    Equivalent words others ↔
      Affine.summary wordMap words = Affine.summary wordMap others ∧
        4 * accepted words % 2 ^ 64 = 4 * accepted others % 2 ^ 64 := by
  have counts : BitVec.ofNat 64 (4 * accepted words) = BitVec.ofNat 64 (4 * accepted others) ↔
      4 * accepted words % 2 ^ 64 = 4 * accepted others % 2 ^ 64 := by
    rw [BitVec.toNat_eq, BitVec.toNat_ofNat, BitVec.toNat_ofNat]
  rw [equivalent_iff_outcome]
  constructor
  · intro equivalent
    have ended (file : Fin 31 → BitVec 64) :=
      equivalent { gpr := Fin.cons 0 file, pc := 0#64, hi := 0, lo := 0 } rfl
    constructor
    · apply Affine.act_injective
      funext file cell
      have registers := congrArg Cpu.gpr (ended file)
      exact congrFun registers cell.succ
    · have moved := congrArg Cpu.pc (ended 0)
      simp only [outcome, BitVec.zero_add] at moved
      exact counts.mp moved
  · rintro ⟨maps, moves⟩ cpu -
    rw [outcome, outcome, maps, counts.mpr moves]

instance (words others : List Fetched) : Decidable (Equivalent words others) :=
  decidable_of_iff _ (equivalent_iff words others).symm

def Replaceable (words others : List Fetched) : Prop :=
  ∀ before rest : List Fetched, Equivalent (before ++ words ++ rest) (before ++ others ++ rest)

/-- One list of words may take another's place in every stream just when the two are the same affine
map and move the pc alike. -/
theorem replaceable_iff (words others : List Fetched) :
    Replaceable words others ↔
      Affine.summary wordMap words = Affine.summary wordMap others ∧
        4 * accepted words % 2 ^ 64 = 4 * accepted others % 2 ^ 64 := by
  rw [← equivalent_iff]
  constructor
  · intro replaceable
    simpa using replaceable [] []
  · intro equivalent before rest
    rw [equivalent_iff_outcome] at equivalent ⊢
    intro cpu zero
    have inner := equivalent (outcome before cpu) rfl
    rw [outcome_append, outcome_append, outcome_append, outcome_append, inner]

end Equivalence

end Stream

end Mips64
