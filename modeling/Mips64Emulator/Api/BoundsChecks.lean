import Mips64Emulator.Api.CoreCalls
import Mips64Emulator.Guest.MemoryAccess

set_option autoImplicit false

namespace Mips64

inductive WordOperation where
  | add (left right : BitVec 64)
  | sub (left right : BitVec 64)

namespace WordOperation

def result : WordOperation → BitVec 64
  | add left right => left + right
  | sub left right => left - right

def Exact : WordOperation → Prop
  | add left right => left.toNat + right.toNat < 2 ^ 64
  | sub left right => right.toNat ≤ left.toNat

end WordOperation

def boundCheckingOperations (address dataSize : BitVec 64) : Bool × List WordOperation :=
  if dataSize = 0 then (false, [])
  else
    let room := WordOperation.sub uint64Max dataSize
    if address > room.result then (false, [room])
    else
      let last := WordOperation.add address dataSize
      if last.result > BitVec.ofNat 64 maxSize then (false, [room, last])
      else (true, [room, last])

def memoryRangeOperations (emulator : Ptr Emulator) (guestAddress size : BitVec 64) :
    Bool × List WordOperation :=
  match emulator with
  | .null => (false, [])
  | .ref emulator =>
    if guestAddress > emulator.memorySize then (false, [])
    else
      let room := WordOperation.sub emulator.memorySize guestAddress
      (size ≤ room.result, [room])

theorem boundCheckingOperations_fst (address dataSize : BitVec 64) :
    (boundCheckingOperations address dataSize).1 = boundChecking address dataSize := by
  unfold boundCheckingOperations boundChecking
  by_cases empty : dataSize = 0
  · simp only [if_pos empty]
  · simp only [if_neg empty]
    by_cases wraps : address > (WordOperation.sub uint64Max dataSize).result
    · have guard : address > uint64Max - dataSize := wraps
      simp only [if_pos wraps, if_pos guard]
    · have guard : ¬ address > uint64Max - dataSize := wraps
      simp only [if_neg wraps, if_neg guard]
      split <;> simp_all [WordOperation.result]

theorem memoryRangeOperations_fst (emulator : Ptr Emulator) (guestAddress size : BitVec 64) :
    (memoryRangeOperations emulator guestAddress size).1 =
      memoryRangeIsValid emulator guestAddress size := by
  cases emulator with
  | null => rfl
  | ref emulator =>
    rw [memoryRangeOperations, memoryRangeIsValid]
    by_cases beyond : guestAddress > emulator.memorySize
    · rw [if_pos beyond, if_pos beyond]
    · rw [if_neg beyond, if_neg beyond]
      rfl

/-- An accepting run with nothing in it that wraps. -/
def AcceptsExactly (run : Bool × List WordOperation) : Prop :=
  run.1 = true ∧ ∀ operation ∈ run.2, operation.Exact

theorem boundCheckingOperations_performed (address dataSize : BitVec 64)
    (operation : WordOperation) (member : operation ∈ (boundCheckingOperations address dataSize).2) :
    operation = .sub uint64Max dataSize ∨ operation = .add address dataSize := by
  simp only [boundCheckingOperations, apply_ite Prod.snd] at member
  by_cases empty : dataSize = 0
  · rw [if_pos empty] at member
    exact absurd member List.not_mem_nil
  · rw [if_neg empty] at member
    by_cases wraps : address > (WordOperation.sub uint64Max dataSize).result
    · rw [if_pos wraps, List.mem_singleton] at member
      exact Or.inl member
    · rw [if_neg wraps, ite_self] at member
      simpa using member

theorem boundCheckingOperations_exact (address dataSize : BitVec 64)
    (accepted : boundChecking address dataSize = true) :
    AcceptsExactly (boundCheckingOperations address dataSize) := by
  have positive : dataSize ≠ 0 := by
    intro zero
    simp [boundChecking, zero] at accepted
  have sum : address.toNat + dataSize.toNat ≤ 67108864 := by
    rwa [boundChecking_correct address dataSize positive, decide_eq_true_eq, maxSize_eq] at accepted
  refine ⟨(boundCheckingOperations_fst address dataSize).trans accepted, ?_⟩
  intro operation member
  have bound := dataSize.isLt
  rcases boundCheckingOperations_performed address dataSize operation member with rfl | rfl
  · have limit : uint64Max.toNat = 18446744073709551615 := rfl
    rw [WordOperation.Exact, limit]
    omega
  · rw [WordOperation.Exact]
    omega

theorem memoryRangeOperations_exact (emulator : Emulator) (guestAddress size : BitVec 64)
    (accepted : memoryRangeIsValid (.ref emulator) guestAddress size = true) :
    AcceptsExactly (memoryRangeOperations (.ref emulator) guestAddress size) := by
  have ran := memoryRangeOperations_fst (.ref emulator) guestAddress size
  refine ⟨ran.trans accepted, ?_⟩
  rw [memoryRangeIsValid_correct, decide_eq_true_eq] at accepted
  have inside : ¬ guestAddress > emulator.memorySize := by
    rw [gt_iff_lt, BitVec.lt_def]
    omega
  intro operation member
  simp only [memoryRangeOperations, if_neg inside, List.mem_singleton] at member
  simp only [member, WordOperation.Exact]
  omega

theorem boundsChecks_exact (emulator : Emulator) (address size : BitVec 64) :
    (boundCheckingOperations address size).1 = boundChecking address size ∧
    (memoryRangeOperations (.ref emulator) address size).1 =
      memoryRangeIsValid (.ref emulator) address size ∧
    (size ≠ 0 →
      (boundChecking address size = true ↔ address.toNat + size.toNat ≤ maxSize) ∧
      (emulator.memorySize = BitVec.ofNat 64 maxSize →
        (memoryRangeIsValid (.ref emulator) address size = true ↔
          address.toNat + size.toNat ≤ maxSize))) ∧
    (memoryRangeIsValid (.ref emulator) address size = true ↔
      address.toNat + size.toNat ≤ emulator.memorySize.toNat) ∧
    (boundChecking address size = true →
      AcceptsExactly (boundCheckingOperations address size)) ∧
    (memoryRangeIsValid (.ref emulator) address size = true →
      AcceptsExactly (memoryRangeOperations (.ref emulator) address size)) := by
  have range : memoryRangeIsValid (.ref emulator) address size = true ↔
      address.toNat + size.toNat ≤ emulator.memorySize.toNat := by
    rw [memoryRangeIsValid_correct, decide_eq_true_eq]
  refine ⟨boundCheckingOperations_fst address size, memoryRangeOperations_fst _ address size,
    fun positive => ⟨?_, fun limit => ?_⟩, range,
    boundCheckingOperations_exact address size, memoryRangeOperations_exact emulator address size⟩
  · rw [boundChecking_correct address size positive, decide_eq_true_eq]
  · rw [range, limit, BitVec.toNat_ofNat, maxSize_eq]

-- The last eight bytes of a full-sized memory.
theorem boundsChecks_exact_limit :
    let config : Config :=
      { memorySize := 67108864, resetPc := 0, endian := .big, clearMemoryOnReset := 0 }
    let emulator : Emulator :=
      { config := config, memory := .null, memorySize := 67108864, cpu := Cpu.cleared 0 }
    boundChecking 67108856 8 = true ∧ memoryRangeIsValid (.ref emulator) 67108856 8 = true ∧
      AcceptsExactly (boundCheckingOperations 67108856 8) := by
  intro config emulator
  obtain ⟨-, -, checks, -, exact, -⟩ := boundsChecks_exact emulator 67108856 8
  obtain ⟨bound, range⟩ := checks (by decide)
  have accepted := bound.mpr (by decide)
  exact ⟨accepted, (range (by decide)).mpr (by decide), exact accepted⟩

end Mips64
