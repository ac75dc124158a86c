import Mips64Emulator.Core.ElfLoader
import Mips64Emulator.Guest.MemoryAccess
import Mips64Emulator.Shared.Splice

set_option autoImplicit false

namespace Mips64

def headerField (endian : Endian) (bytes : List (BitVec 8)) (offset size : Nat) : Nat :=
  ByteOrder.number (orient endian (Splice.slice bytes offset size))

def ExecutableMips (endian : Endian) (bytes : List (BitVec 8)) : Prop :=
  headerField endian bytes 16 2 = 2 ∧ headerField endian bytes 18 2 = 8 ∧
    headerField endian bytes 20 4 = 1

instance (endian : Endian) (bytes : List (BitVec 8)) : Decidable (ExecutableMips endian bytes) :=
  inferInstanceAs (Decidable (_ ∧ _ ∧ _))

def ValidHeader (bytes : List (BitVec 8)) : Prop :=
  64 ≤ bytes.length ∧ Splice.slice bytes 0 4 = [0x7F, 0x45, 0x4C, 0x46] ∧
    bytes[4]? = some 2 ∧
    (bytes[5]? = some 1 ∧ ExecutableMips .little bytes ∨
      bytes[5]? = some 2 ∧ ExecutableMips .big bytes)

instance (bytes : List (BitVec 8)) : Decidable (ValidHeader bytes) :=
  inferInstanceAs (Decidable (_ ∧ _ ∧ _ ∧ _))

theorem anyDiffers_correct (bytes : List (BitVec 8)) (terms : List (Nat × BitVec 8))
    (inside : ∀ term ∈ terms, term.1 < bytes.length) :
    anyDiffers (fun index => bytes[index]?) terms =
      some (terms.any fun term => bytes[term.1]? ≠ some term.2) := by
  induction terms with
  | nil => rfl
  | cons term rest ih =>
    have loaded := List.getElem?_eq_getElem (inside term (by simp))
    have later := ih fun other member => inside other (List.mem_cons_of_mem _ member)
    rw [anyDiffers, loaded, later]
    by_cases same : bytes.get ⟨term.1, inside term (by simp)⟩ = term.2
    · have equal : bytes[term.1]? = some term.2 := loaded.trans (congrArg some same)
      simp_all
    · simp_all

theorem magic_contradicts (bytes : List (BitVec 8)) (long : 64 ≤ bytes.length) :
    anyDiffers (fun index => bytes[index]?)
      [(eiMag0, elfMag0), (eiMag1, elfMag1), (eiMag2, elfMag2), (eiMag1, elfMag0),
        (eiMag3, elfMag3)] = some true := by
  rw [anyDiffers_correct]
  · simp only [List.any_cons, Option.some.injEq, Bool.or_eq_true, decide_eq_true_eq]
    by_cases letter : bytes[eiMag1]? = some elfMag1
    · have notMagic : bytes[eiMag1]? ≠ some elfMag0 := by
        rw [letter]
        decide
      simp [notMagic]
    · simp [letter]
  · intro term member
    have bound : term.1 < 64 := by
      simp only [List.mem_cons, List.not_mem_nil, or_false] at member
      rcases member with rfl | rfl | rfl | rfl | rfl <;> decide
    omega

theorem loadElf_rejects (emulator : Emulator) (data : List (BitVec 8)) (size : BitVec 64)
    (length : data.length = size.toNat) :
    loadElf (.ref emulator) (.ref data) size = some .invalidArgument := by
  rw [loadElf]
  by_cases short : size < 64
  · rw [if_pos short]
  · rw [BitVec.lt_def] at short
    have long : 64 ≤ data.length := by
      have limit : (64 : BitVec 64).toNat = 64 := rfl
      omega
    rw [if_neg (by rwa [BitVec.lt_def])]
    simp only [magic_contradicts data long]
    rfl

theorem loadElf_accepts_iff (emulator : Emulator) (data : List (BitVec 8)) (size : BitVec 64)
    (length : data.length = size.toNat) :
    loadElf (.ref emulator) (.ref data) size =
        some (if ValidHeader data then .ok else .invalidArgument) ↔
      ¬ ValidHeader data := by
  rw [loadElf_rejects emulator data size length]
  by_cases valid : ValidHeader data <;> simp [valid]

-- A header that is valid but for its machine, x86-64, is refused as it should be.
theorem loadElf_accepts_otherMachine :
    let config : Config :=
      { memorySize := 4, resetPc := 0, endian := .big, clearMemoryOnReset := 0 }
    let emulator : Emulator :=
      { config := config, memory := .ref [0, 0, 0, 0], memorySize := 4, cpu := Cpu.cleared 0 }
    let header (machine : BitVec 8) : List (BitVec 8) :=
      [0x7F, 0x45, 0x4C, 0x46, 2, 1, 1, 0] ++ List.replicate 8 0 ++
        [2, 0, machine, 0, 1, 0, 0, 0] ++ List.replicate 40 0
    ValidHeader (header 8) ∧
      loadElf (.ref emulator) (.ref (header 62)) 64 = some .invalidArgument := by
  intro config emulator header
  have invalid : ¬ ValidHeader (header 62) := by decide
  have refused := (loadElf_accepts_iff emulator (header 62) 64 rfl).mpr invalid
  rw [if_neg invalid] at refused
  exact ⟨by decide, refused⟩

-- A little-endian executable for MIPS is refused.
theorem loadElf_refuses_executable :
    let config : Config :=
      { memorySize := 4, resetPc := 0, endian := .big, clearMemoryOnReset := 0 }
    let emulator : Emulator :=
      { config := config, memory := .ref [0, 0, 0, 0], memorySize := 4, cpu := Cpu.cleared 0 }
    let data : List (BitVec 8) :=
      [0x7F, 0x45, 0x4C, 0x46, 2, 1, 1, 0] ++ List.replicate 8 0 ++ [2, 0, 8, 0, 1, 0, 0, 0] ++
        List.replicate 40 0
    ValidHeader data ∧
      loadElf (.ref emulator) (.ref data) 64 ≠
        some (if ValidHeader data then .ok else .invalidArgument) := by
  intro config emulator data
  have valid : ValidHeader data := by decide
  refine ⟨valid, ?_⟩
  rw [if_pos valid, loadElf_rejects emulator data 64 rfl]
  decide

end Mips64
