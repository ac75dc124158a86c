import Mips64Emulator.Isa.RegisterHistory
import Mips64Emulator.Shared.Reorder

set_option autoImplicit false

namespace Mips64

def Handled (raw : BitVec 32) : Prop :=
  raw = 0 ∨ (field raw 26 6 = 0 ∧ field raw 0 6 = 0x2D) ∨ field raw 26 6 = 0x19

instance (raw : BitVec 32) : Decidable (Handled raw) := inferInstanceAs (Decidable (_ ∨ (_ ∧ _) ∨ _))

def destination (raw : BitVec 32) : Fin gprCount :=
  if raw = 0 then 0
  else if field raw 26 6 = 0 ∧ field raw 0 6 = 0x2D then register raw 11
  else register raw 16

def sources (raw : BitVec 32) : List (Fin gprCount) :=
  if raw = 0 then []
  else if field raw 26 6 = 0 ∧ field raw 0 6 = 0x2D then [register raw 21, register raw 16]
  else [register raw 21]

def result (raw : BitVec 32) (file : Fin gprCount → BitVec 64) : BitVec 64 :=
  if raw = 0 then 0
  else if field raw 26 6 = 0 ∧ field raw 0 6 = 0x2D then file (register raw 21) + file (register raw 16)
  else file (register raw 21) + BitVec.ofNat 64 (field raw 0 12)

def Undisturbed (writer other : BitVec 32) : Prop :=
  destination writer = 0 ∨
    destination writer ∉ sources other ∧ destination writer ≠ destination other

def Independent (first second : BitVec 32) : Prop :=
  Undisturbed first second ∧ Undisturbed second first

instance (first second : BitVec 32) : Decidable (Independent first second) :=
  inferInstanceAs (Decidable ((_ ∨ _ ∧ _) ∧ (_ ∨ _ ∧ _)))

theorem result_congr (raw : BitVec 32) (file other : Fin gprCount → BitVec 64)
    (same : ∀ index ∈ sources raw, file index = other index) : result raw file = result raw other := by
  unfold result
  unfold sources at same
  split
  · rfl
  next instruction =>
    rw [if_neg instruction] at same
    split
    next daddu =>
      rw [if_pos daddu] at same
      rw [same (register raw 21) (by simp), same (register raw 16) (by simp)]
    next immediate =>
      rw [if_neg immediate] at same
      rw [same (register raw 21) (by simp)]

theorem write_zero {cpu : Cpu} (zero : cpu.gpr 0 = 0) (value : BitVec 64) :
    cpu.write 0 value = cpu := by
  have kept : Function.update (Function.update cpu.gpr 0 value) 0 0 = cpu.gpr := by
    rw [Function.update_idem, ← zero, Function.update_eq_self]
  rw [Cpu.write, kept]

def retired (cpu : Cpu) (raw : BitVec 32) : Cpu :=
  (cpu.write (destination raw) (result raw cpu.gpr)).advance

theorem retired_zero (cpu : Cpu) (raw : BitVec 32) : (retired cpu raw).gpr 0 = 0 := by
  simp [retired]

theorem executed_retired {cpu : Cpu} (zero : cpu.gpr 0 = 0) (raw : BitVec 32)
    (handled : Handled raw) : executed raw cpu = (.ok, retired cpu raw) := by
  by_cases nop : raw = 0
  · have target : destination raw = 0 := if_pos nop
    rw [retired, target, write_zero zero]
    exact if_pos nop
  by_cases daddu : field raw 26 6 = 0 ∧ field raw 0 6 = 0x2D
  · have ran : executed raw cpu = (.ok, (cpu.write (register raw 11)
        (cpu.gpr (register raw 21) + cpu.gpr (register raw 16))).advance) := by
      rw [executed, if_neg nop, if_pos daddu]
    rw [ran, retired, destination, result, if_neg nop, if_neg nop, if_pos daddu, if_pos daddu]
  · have daddiu : field raw 26 6 = 0x19 := (handled.resolve_left nop).resolve_left daddu
    have ran : executed raw cpu = (.ok, (cpu.write (register raw 16)
        (cpu.gpr (register raw 21) + BitVec.ofNat 64 (field raw 0 12))).advance) := by
      rw [executed, if_neg nop, if_neg daddu, if_pos daddiu]
    rw [ran, retired, destination, result, if_neg nop, if_neg nop, if_neg daddu, if_neg daddu]

theorem write_comm (cpu : Cpu) (first second : Fin gprCount) (left right : BitVec 64)
    (apart : first = 0 ∨ second = 0 ∨ first ≠ second) :
    (cpu.write first left).write second right = (cpu.write second right).write first left := by
  have file : ((cpu.write first left).write second right).gpr =
      ((cpu.write second right).write first left).gpr := by
    funext index
    simp only [Cpu.write_gpr]
    by_cases zero : index = 0
    · simp [zero]
    by_cases isFirst : index = first
    · subst isFirst
      have other : second = 0 ∨ index ≠ second := apart.resolve_left zero
      rcases other with rfl | different
      · simp [zero]
      · simp [zero, different]
    · simp [zero, isFirst]
  simp only [Cpu.write] at file ⊢
  rw [file]

theorem result_undisturbed {cpu : Cpu} (zero : cpu.gpr 0 = 0) (writer other : BitVec 32)
    (undisturbed : Undisturbed writer other) :
    result other (retired cpu writer).gpr = result other cpu.gpr := by
  apply result_congr
  intro index named
  rw [retired, Cpu.advance_gpr]
  rcases undisturbed with discarded | ⟨unread, -⟩
  · rw [discarded, write_zero zero]
  · apply write_others zero
    rintro rfl
    exact unread named

theorem retired_swap {cpu : Cpu} (zero : cpu.gpr 0 = 0) (first second : BitVec 32)
    (independent : Independent first second) :
    retired (retired cpu first) second = retired (retired cpu second) first := by
  obtain ⟨left, right⟩ := independent
  have apart : destination first = 0 ∨ destination second = 0 ∨
      destination first ≠ destination second := by
    rcases left with discarded | ⟨-, different⟩
    · exact Or.inl discarded
    · exact Or.inr (Or.inr different)
  have commute := write_comm cpu (destination first) (destination second)
    (result first cpu.gpr) (result second cpu.gpr) apart
  have second_then := result_undisturbed zero first second left
  have first_then := result_undisturbed zero second first right
  calc retired (retired cpu first) second
    _ = ((retired cpu first).write (destination second) (result second cpu.gpr)).advance := by
      rw [retired, second_then]
    _ = ((cpu.write (destination first) (result first cpu.gpr)).write (destination second)
        (result second cpu.gpr)).advance.advance := rfl
    _ = ((cpu.write (destination second) (result second cpu.gpr)).write (destination first)
        (result first cpu.gpr)).advance.advance := by rw [commute]
    _ = ((retired cpu second).write (destination first) (result first cpu.gpr)).advance := rfl
    _ = retired (retired cpu second) first := by
      rw [← first_then]
      rfl

/-- An instruction word and what the decoder's output held before it. -/
structure Fetched where
  raw : BitVec 32
  scratch : Decoded

def Fetched.call (cpu : Ptr Cpu) (word : Fetched) : Option (Status × Ptr Cpu) :=
  decodeAndExecute word.raw word.scratch cpu

theorem fetchedRun_correct (cpu : Cpu) (zero : cpu.gpr 0 = 0) (words : List Fetched)
    (handled : ∀ word ∈ words, Handled word.raw) :
    Transducer.run Fetched.call (.ref cpu) words =
      some (List.replicate words.length .ok,
        .ref (words.foldl (fun cpu word => retired cpu word.raw) cpu)) := by
  induction words generalizing cpu with
  | nil => rfl
  | cons word rest ih =>
    have first := decodeAndExecute_correct word.raw word.scratch cpu
    rw [executed_retired zero word.raw (handled word (by simp))] at first
    have continued := ih (retired cpu word.raw) (retired_zero cpu word.raw)
      fun later member => handled later (List.mem_cons_of_mem _ member)
    exact (Transducer.run_cons _ _ _ _ _).mpr ⟨_, _, _, first, continued, rfl⟩

theorem retired_perm (cpu : Cpu) (zero : cpu.gpr 0 = 0) {words reordered : List Fetched}
    (perm : words.Perm reordered)
    (independent : words.Pairwise fun first second => Independent first.raw second.raw) :
    words.foldl (fun cpu word => retired cpu word.raw) cpu =
      reordered.foldl (fun cpu word => retired cpu word.raw) cpu :=
  Reorder.foldl_perm (fun cpu : Cpu => cpu.gpr 0 = 0)
    (fun first second : Fetched => Independent first.raw second.raw) And.symm
    (fun cpu word _ => retired_zero cpu word.raw)
    (fun _ first second zero independent => retired_swap zero first.raw second.raw independent)
    perm independent cpu zero

/-- Two independent instructions may change places, and so any list of pairwise independent ones may
be put in any order. -/
theorem decodeAndExecute_reorder (cpu : Cpu) (zero : cpu.gpr 0 = 0) :
    (∀ first second : Fetched, Handled first.raw → Handled second.raw →
      Independent first.raw second.raw → ∃ after,
        Transducer.run Fetched.call (.ref cpu) [first, second] = some ([.ok, .ok], .ref after) ∧
        Transducer.run Fetched.call (.ref cpu) [second, first] = some ([.ok, .ok], .ref after)) ∧
    ∀ words reordered : List Fetched, words.Perm reordered →
      (∀ word ∈ words, Handled word.raw) →
      (words.Pairwise fun first second => Independent first.raw second.raw) → ∃ after,
        Transducer.run Fetched.call (.ref cpu) words =
          some (List.replicate words.length .ok, .ref after) ∧
        Transducer.run Fetched.call (.ref cpu) reordered =
          some (List.replicate words.length .ok, .ref after) := by
  constructor
  · intro first second handledFirst handledSecond independent
    refine ⟨_, fetchedRun_correct cpu zero [first, second] (by simp [handledFirst, handledSecond]),
      ?_⟩
    rw [fetchedRun_correct cpu zero [second, first] (by simp [handledFirst, handledSecond])]
    exact congrArg (fun after => some (_, Ptr.ref after))
      (retired_swap zero first.raw second.raw independent).symm
  · intro words reordered perm handled independent
    refine ⟨_, fetchedRun_correct cpu zero words handled, ?_⟩
    rw [fetchedRun_correct cpu zero reordered fun word member =>
      handled word (perm.mem_iff.mpr member), perm.length_eq,
      retired_perm cpu zero perm independent]

-- DADDIU r1, r0, 5, a NOP, and DADDU r2, r3, r4, forwards and backwards.
theorem decodeAndExecute_reorder_three :
    let words : List Fetched := [⟨0x64010005, default⟩, ⟨0, default⟩, ⟨0x0064102D, default⟩]
    ∃ after,
      Transducer.run Fetched.call (.ref (Cpu.cleared 0)) words =
        some ([.ok, .ok, .ok], .ref after) ∧
      Transducer.run Fetched.call (.ref (Cpu.cleared 0)) words.reverse =
        some ([.ok, .ok, .ok], .ref after) := by
  intro words
  exact (decodeAndExecute_reorder (Cpu.cleared 0) rfl).2 words words.reverse
    (List.reverse_perm words).symm (by decide) (by decide)

end Mips64
