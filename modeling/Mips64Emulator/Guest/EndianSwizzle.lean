import Mips64Emulator.Guest.MemoryRuns
import Mips64Emulator.Shared.Swizzle

set_option autoImplicit false

namespace Mips64

structure Memory.Swizzled (big little : Memory) : Prop where
  bigEndian : big.endian = .big
  littleEndian : little.endian = .little
  bytes : ∀ x < maxSize, little.byte (x ^^^ 7) = big.byte x

namespace AccessWidth

def level : AccessWidth → Nat
  | byte => 0
  | half => 1
  | word => 2
  | double => 3

theorem bytes_eq (width : AccessWidth) : width.bytes = 2 ^ width.level := by
  cases width <;> rfl

theorem level_le (width : AccessWidth) : width.level ≤ 3 := by
  cases width <;> decide

end AccessWidth

def swizzle (width : AccessWidth) (address : BitVec 64) : BitVec 64 :=
  address ^^^ BitVec.ofNat 64 (8 - width.bytes)

namespace Access

def swizzle : Access → Access
  | read width address out => read width (Mips64.swizzle width address) out
  | write width address value => write width (Mips64.swizzle width address) value

def Aligned (access : Access) : Prop := access.width.bytes ∣ access.address.toNat

instance (access : Access) : Decidable access.Aligned := inferInstanceAs (Decidable (_ ∣ _))

end Access

theorem maxSize_blocks : 2 ^ 3 ∣ maxSize := ⟨8388608, maxSize_eq⟩

theorem flip_maxSize (x : Nat) : Swizzle.flip 0 3 x < maxSize ↔ x < maxSize :=
  Swizzle.flip_fits 0 3 x (by decide) (one_dvd x) maxSize maxSize_blocks

section Aligned

variable (width : AccessWidth) (address : BitVec 64)

theorem swizzle_toNat :
    (swizzle width address).toNat = Swizzle.flip width.level 3 address.toNat := by
  have mask : (BitVec.ofNat 64 (8 - width.bytes)).toNat = 2 ^ 3 - 2 ^ width.level := by
    cases width <;> rfl
  rw [swizzle, BitVec.toNat_xor, mask, Swizzle.flip]

variable (aligned : width.bytes ∣ address.toNat)

include aligned

theorem swizzle_status :
    accessStatus (swizzle width address) width.bytes = accessStatus address width.bytes := by
  have units : 2 ^ width.level ∣ address.toNat := width.bytes_eq ▸ aligned
  have fits := Swizzle.flip_fits width.level 3 address.toNat width.level_le units maxSize
    maxSize_blocks
  have stillAligned := Swizzle.flip_aligned width.level 3 address.toNat width.level_le units
  rw [← width.bytes_eq] at fits stillAligned
  simp only [accessStatus, swizzle_toNat, ← Nat.not_le, fits, stillAligned, aligned, if_true]

theorem swizzle_window (big little : Memory) (related : big.Swizzled little)
    (inside : address.toNat + width.bytes ≤ maxSize) :
    little.window (swizzle width address).toNat width.bytes =
      (big.window address.toNat width.bytes).reverse := by
  have units : 2 ^ width.level ∣ address.toNat := width.bytes_eq ▸ aligned
  apply List.ext_getElem
  · simp [Memory.window]
  · intro i left right
    have within : i < width.bytes := by simpa [Memory.window] using left
    have mirrored := Swizzle.flip_offset width.level 3 address.toNat width.level_le units i
      (width.bytes_eq ▸ within)
    rw [← width.bytes_eq, ← swizzle_toNat] at mirrored
    have source := related.bytes (address.toNat + (width.bytes - 1 - i)) (by omega)
    have target : (address.toNat + (width.bytes - 1 - i)) ^^^ 7 =
        (swizzle width address).toNat + i := by
      rw [← mirrored]
      exact Swizzle.flip_flip 0 3 _
    rw [target] at source
    simp [Memory.window, source]

theorem swizzle_word (big little : Memory) (related : big.Swizzled little)
    (inside : address.toNat + width.bytes ≤ maxSize) :
    little.word width (swizzle width address) = big.word width address := by
  have mirrored := swizzle_window width address aligned big little related inside
  rw [Memory.word, Memory.word, orient, orient, if_pos related.littleEndian,
    if_neg (by rw [related.bigEndian]; decide), mirrored]

theorem swizzle_patch (big little : Memory) (related : big.Swizzled little)
    (value : BitVec width.bits) :
    (big.patch address.toNat (orient big.endian (ByteOrder.split width.bytes value))).Swizzled
      (little.patch (swizzle width address).toNat
        (orient little.endian (ByteOrder.split width.bytes value))) := by
  have units : 2 ^ width.level ∣ address.toNat := width.bytes_eq ▸ aligned
  refine ⟨related.bigEndian, related.littleEndian, ?_⟩
  intro x inside
  have mirroredInside : x ^^^ 7 < maxSize := (flip_maxSize x).mpr inside
  have covered := Swizzle.flip_range width.level 3 address.toNat width.level_le units
    (ByteOrder.split width.bytes value) (by rw [ByteOrder.split_length, width.bytes_eq]) x
  rw [← swizzle_toNat] at covered
  rw [patch_byte _ _ _ _ mirroredInside, patch_byte _ _ _ _ inside, orient, orient,
    if_pos related.littleEndian, if_neg (by rw [related.bigEndian]; decide)]
  rw [Overlay.apply, Overlay.apply, related.bytes x inside]
  exact congrArg (fun written => written.getD (big.byte x)) covered

end Aligned

theorem swizzle_simulates (big little : Memory) (access : Access)
    (related : big.Swizzled little) (aligned : access.Aligned) :
    access.swizzle.response little = access.response big ∧
      (access.effect big).Swizzled (access.swizzle.effect little) := by
  cases access with
  | read width address out =>
    have status := swizzle_status width address aligned
    refine ⟨?_, related⟩
    rw [Access.swizzle, Access.response, Access.response, status]
    split
    next accepted =>
      obtain ⟨inside, -⟩ := (accessStatus_ok_iff _ _).mp accepted
      rw [swizzle_word width address aligned big little related inside]
    next => rfl
  | write width address value =>
    have status := swizzle_status width address aligned
    constructor
    · rw [Access.swizzle, Access.response, Access.response, status]
    · rw [Access.swizzle, Access.effect, Access.effect, status]
      split
      next => exact swizzle_patch width address aligned big little related value
      next => exact related

theorem memoryInit_swizzled (first second : Memory) :
    ∃ big little, memoryInit (.ref first) .big = (.ok, .ref big) ∧
      memoryInit (.ref second) .little = (.ok, .ref little) ∧ big.Swizzled little := by
  refine ⟨_, _, rfl, rfl, rfl, rfl, ?_⟩
  intro x inside
  have zeroed (mem : Memory) (endian : Endian) (y : Nat) :
      Memory.byte { mem.memset sizeOfMemory with endian := endian } y = 0 := by
    rw [Memory.byte]
    split
    next bound => exact if_pos (Nat.lt_add_right 4 bound)
    next => rfl
  rw [zeroed, zeroed]

/-- Each prefix of a sequence is a sequence of its own, so statuses, values and relation agree after
every access. -/
theorem memory_swizzled (big little : Memory) (related : big.Swizzled little)
    (accesses : List Access) (aligned : ∀ access ∈ accesses, access.Aligned) :
    ∃ responses bigFinal littleFinal,
      Transducer.run perform (.ref big) accesses = some (responses, .ref bigFinal) ∧
      Transducer.run perform (.ref little) (accesses.map Access.swizzle) =
        some (responses, .ref littleFinal) ∧
      bigFinal.Swizzled littleFinal := by
  let Related (first second : Ptr Memory) : Prop :=
    ∃ big little, first = .ref big ∧ second = .ref little ∧ big.Swizzled little
  have simulates (first second : Ptr Memory) (access : Access) (pair : Related first second)
      (aligned : access.Aligned) :
      ∃ response next nextImage, perform first access = some (response, next) ∧
        perform second access.swizzle = some (response, nextImage) ∧ Related next nextImage := by
    obtain ⟨big, little, rfl, rfl, related⟩ := pair
    obtain ⟨response, kept⟩ := swizzle_simulates big little access related aligned
    refine ⟨_, _, _, perform_correct big access, ?_, _, _, rfl, rfl, kept⟩
    rw [perform_correct little access.swizzle, response]
  obtain ⟨responses, _, _, ran, mirrored, bigFinal, littleFinal, rfl, rfl, last⟩ :=
    Transducer.run_simulation Related Access.swizzle Access.Aligned simulates
      ⟨big, little, rfl, rfl, related⟩ aligned
  exact ⟨responses, bigFinal, littleFinal, ran, mirrored, last⟩

-- Two memories initialised over garbage, a word written and its halves read back.
theorem memory_swizzled_halves :
    let garbage : Memory := { memory := fun _ => 0xA5, endian := .little }
    let accesses : List Access :=
      [.write .word 4 0x11223344#32, .read .half 4 0#16, .read .half 6 0#16]
    ∃ big little responses bigFinal littleFinal,
      memoryInit (.ref garbage) .big = (.ok, .ref big) ∧
      memoryInit (.ref garbage) .little = (.ok, .ref little) ∧
      Transducer.run perform (.ref big) accesses = some (responses, .ref bigFinal) ∧
      Transducer.run perform (.ref little) (accesses.map Access.swizzle) =
        some (responses, .ref littleFinal) ∧
      bigFinal.Swizzled littleFinal := by
  intro garbage accesses
  obtain ⟨big, little, bigStart, littleStart, related⟩ := memoryInit_swizzled garbage garbage
  have aligned : ∀ access ∈ accesses, access.Aligned := by
    intro access member
    simp only [accesses, List.mem_cons, List.not_mem_nil, or_false] at member
    rcases member with rfl | rfl | rfl <;> decide
  obtain ⟨responses, bigFinal, littleFinal, ran, mirrored, last⟩ :=
    memory_swizzled big little related accesses aligned
  exact ⟨big, little, responses, bigFinal, littleFinal, bigStart, littleStart, ran, mirrored, last⟩

end Mips64
