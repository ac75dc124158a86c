import Mips64Emulator.Core.Memory
import Mips64Emulator.Shared.BitFields
import Mips64Emulator.Shared.ByteOrder
import Mips64Emulator.Shared.Overlay

set_option autoImplicit false

namespace Mips64

inductive AccessWidth where
  | byte
  | half
  | word
  | double
  deriving DecidableEq, Repr

namespace AccessWidth

def bytes : AccessWidth → Nat
  | byte => 1
  | half => 2
  | word => 4
  | double => 8

abbrev bits (width : AccessWidth) : Nat := 8 * width.bytes

end AccessWidth

def accessStatus (address : BitVec 64) (size : Nat) : MemoryStatus :=
  if maxSize < address.toNat + size then .outOfBounds
  else if size ∣ address.toNat then .ok
  else .misaligned

/-- Bytes in address order as digits, least significant first, or back. -/
def orient (endian : Endian) (bytes : List (BitVec 8)) : List (BitVec 8) :=
  if endian = .little then bytes else bytes.reverse

def Memory.byte (mem : Memory) (x : Nat) : BitVec 8 :=
  if bound : x < maxSize then mem.memory ⟨x, bound⟩ else 0

def Memory.window (mem : Memory) (start size : Nat) : List (BitVec 8) :=
  (List.range size).map fun i => mem.byte (start + i)

def Memory.patch (mem : Memory) (start : Nat) (bytes : List (BitVec 8)) : Memory :=
  { mem with memory := fun x => (Overlay.range start bytes x).getD (mem.memory x) }

def readResult {n : Nat} (mem : Memory) (address : BitVec 64) (size : Nat) (out : BitVec n) :
    MemoryStatus × Ptr (BitVec n) :=
  match accessStatus address size with
  | .ok => (.ok, .ref (ByteOrder.join n (orient mem.endian (mem.window address.toNat size))))
  | status => (status, .ref out)

def writeResult {n : Nat} (mem : Memory) (address : BitVec 64) (size : Nat) (value : BitVec n) :
    MemoryStatus × Ptr Memory :=
  match accessStatus address size with
  | .ok => (.ok, .ref (mem.patch address.toNat (orient mem.endian (ByteOrder.split size value))))
  | status => (status, .ref mem)

theorem orient_length (endian : Endian) (bytes : List (BitVec 8)) :
    (orient endian bytes).length = bytes.length := by
  rw [orient]
  split <;> simp

theorem maxSize_eq : maxSize = 67108864 := rfl

theorem boundChecking_correct (address size : BitVec 64) (positive : size ≠ 0) :
    boundChecking address size = decide (address.toNat + size.toNat ≤ maxSize) := by
  have sizeBound := size.isLt
  have guard : address > uint64Max - size ↔ 2 ^ 64 ≤ address.toNat + size.toNat := by
    rw [gt_iff_lt, BitVec.lt_def, uint64Max]
    have nonzero : size.toNat ≠ 0 := fun zero => positive (BitVec.eq_of_toNat_eq zero)
    bv_omega
  have limit : (BitVec.ofNat 64 maxSize).toNat = maxSize := by
    rw [BitVec.toNat_ofNat, maxSize_eq]
  rw [boundChecking, if_neg positive]
  by_cases wraps : 2 ^ 64 ≤ address.toNat + size.toNat
  · rw [if_pos (guard.mpr wraps), eq_comm, decide_eq_false_iff_not, maxSize_eq]
    omega
  · have exact : (address + size).toNat = address.toNat + size.toNat := by
      rw [BitVec.toNat_add, Nat.mod_eq_of_lt (by omega)]
    rw [if_neg (mt guard.mp wraps)]
    simp only [gt_iff_lt, BitVec.lt_def, exact, limit]
    by_cases outside : maxSize < address.toNat + size.toNat
    · simp [outside]
    · simp [outside, Nat.le_of_not_lt outside]

theorem alignmentChecking_correct (address : BitVec 64) (width : AccessWidth) :
    alignmentChecking address (BitVec.ofNat 64 width.bytes) =
      decide (width.bytes ∣ address.toNat) := by
  have mask (bits : Nat) (fits : bits ≤ 64) :=
    BitFields.and_mask_eq_zero_iff address bits fits
  cases width with
  | byte => simp [alignmentChecking, AccessWidth.bytes]
  | half => exact decide_eq_decide.mpr (mask 1 (by decide))
  | word => exact decide_eq_decide.mpr (mask 2 (by decide))
  | double => exact decide_eq_decide.mpr (mask 3 (by decide))

theorem accessStatus_ok_iff (address : BitVec 64) (size : Nat) :
    accessStatus address size = .ok ↔ address.toNat + size ≤ maxSize ∧ size ∣ address.toNat := by
  unfold accessStatus
  split
  · simp only [reduceCtorEq, false_iff]
    omega
  · split <;> simp <;> omega

theorem checks_correct {α : Type} (address : BitVec 64) (width : AccessWidth)
    (body : Option (MemoryStatus × α)) (kept value : α)
    (ran : accessStatus address width.bytes = .ok → body = some (.ok, value)) :
    (if !boundChecking address (BitVec.ofNat 64 width.bytes) then some (.outOfBounds, kept)
      else if !alignmentChecking address (BitVec.ofNat 64 width.bytes) then
        some (.misaligned, kept)
      else body) =
      some (match accessStatus address width.bytes with
        | .ok => (.ok, value)
        | status => (status, kept)) := by
  have size : (BitVec.ofNat 64 width.bytes).toNat = width.bytes := by cases width <;> rfl
  have positive : BitVec.ofNat 64 width.bytes ≠ 0 := by cases width <;> decide
  rw [boundChecking_correct _ _ positive, alignmentChecking_correct, size]
  by_cases inside : address.toNat + width.bytes ≤ maxSize
  · by_cases aligned : width.bytes ∣ address.toNat
    · have status := (accessStatus_ok_iff _ _).mpr ⟨inside, aligned⟩
      simp [inside, aligned, status, ran status]
    · simp [inside, aligned, accessStatus, Nat.not_lt.mpr inside]
  · simp [inside, accessStatus, Nat.lt_of_not_le inside]

section Loads

variable (mem : Memory) (address : BitVec 64) {size : Nat}
  (inside : address.toNat + size ≤ maxSize)

include inside

theorem offset_toNat (i : Nat) (within : i < size) :
    (address + BitVec.ofNat 64 i).toNat = address.toNat + i := by
  rw [maxSize_eq] at inside
  rw [BitVec.toNat_add, BitVec.toNat_ofNat]
  omega

theorem load_correct (i : Nat) (within : i < size) :
    mem.load (address + BitVec.ofNat 64 i) = some (mem.byte (address.toNat + i)) := by
  have bound : address.toNat + i < maxSize := by omega
  simp [Memory.load, Memory.byte, offset_toNat address inside i within, bound]

end Loads

section Reads

variable (mem : Memory) (address : BitVec 64)

theorem window_little (order : mem.endian = .little) (n start size : Nat) :
    ByteOrder.join n (orient mem.endian (mem.window start size)) =
      (List.range size).foldl
        (fun value i => value ||| (mem.byte (start + i)).setWidth n <<< (i * 8)) 0#n := by
  rw [ByteOrder.foldl_or_little n size (fun i => mem.byte (start + i)), BitVec.zero_or, orient,
    if_pos order]
  rfl

theorem window_big (order : mem.endian ≠ .little) (n start size : Nat) :
    ByteOrder.join n (orient mem.endian (mem.window start size)) =
      (List.range size).foldl
        (fun value i => value ||| (mem.byte (start + i)).setWidth n <<< ((size - 1 - i) * 8))
        0#n := by
  rw [ByteOrder.foldl_or_big n size (fun i => mem.byte (start + i)), BitVec.zero_or, orient,
    if_neg order]
  rfl

theorem memoryRead8_correct (out : BitVec 8) :
    memoryRead8 (.ref mem) address (.ref out) = some (readResult mem address 1 out) := by
  -- A byte has no alignment check; the one in the general lemma is the constant `true`.
  apply checks_correct address .byte
  intro status
  obtain ⟨inside, -⟩ := (accessStatus_ok_iff _ _).mp status
  have load0 := load_correct mem address inside 0 (by decide)
  rw [BitVec.add_zero, Nat.add_zero] at load0
  simp [load0, orient, Memory.window, ByteOrder.join]

theorem memoryRead16_correct (out : BitVec 16) :
    memoryRead16 (.ref mem) address (.ref out) = some (readResult mem address 2 out) := by
  apply checks_correct address .half
  intro status
  obtain ⟨inside, -⟩ := (accessStatus_ok_iff _ _).mp status
  have load := load_correct mem address inside
  have load0 := load 0 (by decide)
  have load1 := load 1 (by decide)
  rw [BitVec.add_zero] at load0
  by_cases order : mem.endian = .little
  · rw [if_pos order, load0, window_little mem order]
    simp [load1, List.range_succ]
  · rw [if_neg order, load0, window_big mem order]
    simp [load1, List.range_succ]

theorem memoryRead32_correct (out : BitVec 32) :
    memoryRead32 (.ref mem) address (.ref out) = some (readResult mem address 4 out) := by
  apply checks_correct address .word
  intro status
  obtain ⟨inside, -⟩ := (accessStatus_ok_iff _ _).mp status
  have load := load_correct mem address inside
  have load0 := load 0 (by decide)
  have load1 := load 1 (by decide)
  have load2 := load 2 (by decide)
  have load3 := load 3 (by decide)
  rw [BitVec.add_zero] at load0
  by_cases order : mem.endian = .little
  · rw [if_pos order, load0, window_little mem order]
    simp [load1, load2, load3, List.range_succ]
  · rw [if_neg order, load0, window_big mem order]
    simp [load1, load2, load3, List.range_succ]

theorem readLoop_correct (inside : address.toNat + 8 ≤ maxSize) (shift : Nat → Nat) :
    mem.readLoop address shift =
      some ((List.range 8).foldl (fun value i =>
        value ||| (mem.byte (address.toNat + i)).setWidth 64 <<< shift i) 0#64) := by
  have loop (indices : List Nat) (within : ∀ i ∈ indices, i < 8) (value : BitVec 64) :
      indices.foldlM (fun value i => do
        let byte ← mem.load (address + BitVec.ofNat 64 i)
        some (value ||| byte.setWidth 64 <<< shift i)) value =
      some (indices.foldl (fun value i =>
        value ||| (mem.byte (address.toNat + i)).setWidth 64 <<< shift i) value) := by
    induction indices generalizing value with
    | nil => rfl
    | cons i rest ih =>
      have load := load_correct mem address inside i (within i (by simp))
      rw [List.foldlM_cons, List.foldl_cons, load]
      exact ih (fun later member => within later (List.mem_cons_of_mem _ member)) _
  exact loop _ (fun i member => List.mem_range.mp member) 0#64

theorem memoryRead64_correct (out : BitVec 64) :
    memoryRead64 (.ref mem) address (.ref out) = some (readResult mem address 8 out) := by
  apply checks_correct address .double
  intro status
  obtain ⟨inside, -⟩ := (accessStatus_ok_iff _ _).mp status
  by_cases order : mem.endian = .little
  · rw [if_pos order, readLoop_correct mem address inside,
      window_little mem order]
    rfl
  · rw [if_neg order, readLoop_correct mem address inside,
      window_big mem order]
    rfl

end Reads

theorem patch_store (mem : Memory) (address : BitVec 64) (bytes : List (BitVec 8))
    (value : BitVec 8) (inside : address.toNat + (bytes.length + 1) ≤ maxSize) :
    (mem.patch address.toNat bytes).store (address + BitVec.ofNat 64 bytes.length) value =
      some (mem.patch address.toNat (bytes ++ [value])) := by
  have offset := offset_toNat address inside bytes.length (Nat.lt_succ_self _)
  have bound : address.toNat + bytes.length < maxSize := by omega
  rw [Memory.store, dif_pos (by rw [offset]; exact bound)]
  simp only [Memory.patch, Option.some.injEq, Memory.mk.injEq, and_true]
  funext x
  have extended := congrFun (Overlay.range_append address.toNat bytes [value]
    fun x => if bound : x < maxSize then mem.memory ⟨x, bound⟩ else 0) x
  simp only [Overlay.apply, x.isLt, dif_pos, Fin.eta] at extended
  rw [← extended, Function.update_apply]
  by_cases same : x = ⟨address.toNat + bytes.length, bound⟩
  · simp [same, offset, Overlay.range]
  · have other : (x : Nat) ≠ address.toNat + bytes.length := fun equal => same (Fin.ext equal)
    have missed : Overlay.range (address.toNat + bytes.length) [value] x = none :=
      Overlay.range_misses _ _ _ (by simp only [List.length_singleton]; omega)
    simp [missed, offset, Fin.ext_iff, other]

theorem stores_correct (mem : Memory) (address : BitVec 64) (byte : Nat → BitVec 8)
    (count : Nat) (inside : address.toNat + count ≤ maxSize) :
    (List.range count).foldlM
        (fun mem i => mem.store (address + BitVec.ofNat 64 i) (byte i)) mem =
      some (mem.patch address.toNat ((List.range count).map byte)) := by
  induction count with
  | zero => simp [Memory.patch, Overlay.range]
  | succ count ih =>
    have stored := patch_store mem address ((List.range count).map byte) (byte count)
      (by simpa using inside)
    rw [List.length_map, List.length_range] at stored
    rw [List.range_succ, List.foldlM_append, ih (by omega), List.map_append, List.map_singleton]
    simpa using stored

section Writes

variable (mem : Memory) (address : BitVec 64)

theorem maskedByte_correct (value : BitVec 32) : maskedByte value = value.setWidth 8 := by
  have masked := BitFields.setWidth_and_mask value 8 (by decide)
  rw [maskedByte, BitVec.setWidth_setWidth_of_le _ (by decide)]
  exact masked

theorem memoryWrite8_correct (value : BitVec 8) :
    memoryWrite8 (.ref mem) address value = some (writeResult mem address 1 value) := by
  apply checks_correct address .byte
  intro status
  obtain ⟨inside, -⟩ := (accessStatus_ok_iff _ _).mp status
  have stored := stores_correct mem address (fun _ => value) 1 inside
  simp [List.range_succ] at stored
  simp [stored, orient, ByteOrder.split]

theorem memoryWrite16_correct (value : BitVec 16) :
    memoryWrite16 (.ref mem) address value = some (writeResult mem address 2 value) := by
  apply checks_correct address .half
  intro status
  obtain ⟨inside, -⟩ := (accessStatus_ok_iff _ _).mp status
  have masked (word : BitVec 16) : (word &&& 0x00FF).setWidth 8 = word.setWidth 8 :=
    BitFields.setWidth_and_mask word 8 (by decide)
  by_cases order : mem.endian = .little
  · have stored := stores_correct mem address (fun i => (value >>> (i * 8)).setWidth 8) 2 inside
    rw [← ByteOrder.split_eq_map] at stored
    simp [List.range_succ, Option.bind_eq_some_iff] at stored
    obtain ⟨mem1, store0, store1⟩ := stored
    rw [if_pos order, orient, if_pos order]
    simp only [masked]
    simp [store0, store1]
  · have stored :=
      stores_correct mem address (fun i => (value >>> ((2 - 1 - i) * 8)).setWidth 8) 2 inside
    rw [← ByteOrder.split_reverse] at stored
    simp [List.range_succ, Option.bind_eq_some_iff] at stored
    obtain ⟨mem1, store0, store1⟩ := stored
    rw [if_neg order, orient, if_neg order]
    simp only [masked]
    simp [store0, store1]

theorem memoryWrite32_correct (value : BitVec 32) :
    memoryWrite32 (.ref mem) address value = some (writeResult mem address 4 value) := by
  apply checks_correct address .word
  intro status
  obtain ⟨inside, -⟩ := (accessStatus_ok_iff _ _).mp status
  simp only [maskedByte_correct]
  by_cases order : mem.endian = .little
  · have stored := stores_correct mem address (fun i => (value >>> (i * 8)).setWidth 8) 4 inside
    rw [← ByteOrder.split_eq_map] at stored
    simp [List.range_succ, Option.bind_eq_some_iff] at stored
    obtain ⟨mem1, store0, mem2, store1, mem3, store2, store3⟩ := stored
    rw [if_pos order, orient, if_pos order]
    simp [store0, store1, store2, store3]
  · have stored :=
      stores_correct mem address (fun i => (value >>> ((4 - 1 - i) * 8)).setWidth 8) 4 inside
    rw [← ByteOrder.split_reverse] at stored
    simp [List.range_succ, Option.bind_eq_some_iff] at stored
    obtain ⟨mem1, store0, mem2, store1, mem3, store2, store3⟩ := stored
    rw [if_neg order, orient, if_neg order]
    simp [store0, store1, store2, store3]

theorem memoryWrite64_correct (value : BitVec 64) :
    memoryWrite64 (.ref mem) address value = some (writeResult mem address 8 value) := by
  apply checks_correct address .double
  intro status
  obtain ⟨inside, -⟩ := (accessStatus_ok_iff _ _).mp status
  have masked (word : BitVec 64) : (word &&& 0xFF).setWidth 8 = word.setWidth 8 :=
    BitFields.setWidth_and_mask word 8 (by decide)
  have whole (byte : BitVec 8) : byte &&& 0xFF = byte := BitVec.and_allOnes
  by_cases order : mem.endian = .little
  · rw [if_pos order, Memory.writeLoop, stores_correct mem address _ 8 inside, orient,
      if_pos order, ByteOrder.split_eq_map]
    simp only [masked]
    rfl
  · rw [if_neg order, Memory.writeLoop, stores_correct mem address _ 8 inside, orient,
      if_neg order, ByteOrder.split_reverse]
    simp only [whole]
    rfl

end Writes

end Mips64
