import Mips64Emulator.Core.ElfLoader
import Mips64Emulator.Guest.MemoryAccess

set_option autoImplicit false

namespace Mips64

-- Whatever is not `ELFDATA2LSB` is read most significant byte first.
def ElfData.order (endian : ElfData) : Endian := if endian = .data2Lsb then .little else .big

-- The bytes the pointer leads to, as far as the list says.
def Leads (data : Nat → Option (BitVec 8)) (bytes : List (BitVec 8)) : Prop :=
  ∀ i < bytes.length, data i = bytes[i]?

theorem leads_getElem? (bytes : List (BitVec 8)) : Leads (fun i => bytes[i]?) bytes :=
  fun _ _ => rfl

theorem orient_order (endian : ElfData) (bytes : List (BitVec 8)) :
    orient endian.order bytes = if endian = .data2Lsb then bytes else bytes.reverse := by
  by_cases order : endian = .data2Lsb <;> simp [orient, ElfData.order, order]

section Readers

variable (data : Nat → Option (BitVec 8)) (endian : ElfData) (bytes : List (BitVec 8))
  (leads : Leads data bytes)

include leads

theorem elfReadU16_correct (length : bytes.length = 2) :
    elfReadU16 data endian = some (ByteOrder.join 16 (orient endian.order bytes)) := by
  match bytes, length with
  | [byte0, byte1], _ =>
    have load0 : data 0 = some byte0 := leads 0 (by simp)
    have load1 : data 1 = some byte1 := leads 1 (by simp)
    rw [orient_order, elfReadU16]
    split
    · simp [load0, load1, ByteOrder.join]
    · simp [load0, load1, ByteOrder.join, BitVec.or_comm]

theorem elfReadU32_correct (length : bytes.length = 4) :
    elfReadU32 data endian = some (ByteOrder.join 32 (orient endian.order bytes)) := by
  match bytes, length with
  | [byte0, byte1, byte2, byte3], _ =>
    have load0 : data 0 = some byte0 := leads 0 (by simp)
    have load1 : data 1 = some byte1 := leads 1 (by simp)
    have load2 : data 2 = some byte2 := leads 2 (by simp)
    have load3 : data 3 = some byte3 := leads 3 (by simp)
    rw [orient_order, elfReadU32]
    split
    · simp [load0, load1, load2, load3, ByteOrder.join, BitVec.shiftLeft_or_distrib,
        ← BitVec.shiftLeft_add, BitVec.or_assoc]
    · simp only [ByteOrder.join_reverse_cons]
      simp [load0, load1, load2, load3, ByteOrder.join, BitVec.or_assoc]

omit leads in
theorem shiftIn_correct (indices : List Nat) (byte : Nat → BitVec 8)
    (loaded : ∀ i ∈ indices, data i = some (byte i)) :
    shiftIn data indices = some (ByteOrder.join 64 (indices.map byte).reverse) := by
  have loop (value : BitVec 64) :
      indices.foldlM (fun value i => do
        let byte ← data i
        some (value <<< 8 ||| byte.setWidth 64)) value =
      some ((indices.map byte).foldl (fun (value : BitVec 64) byte => value <<< 8 ||| byte.setWidth 64) value) := by
    induction indices generalizing value with
    | nil => rfl
    | cons i rest ih =>
      have load := loaded i (by simp)
      rw [List.foldlM_cons, List.map_cons, List.foldl_cons, load]
      exact ih (fun later member => loaded later (List.mem_cons_of_mem _ member)) _
  rw [shiftIn, loop, ByteOrder.foldl_shift]

theorem elfReadU64_correct (length : bytes.length = 8) :
    elfReadU64 data endian = some (ByteOrder.join 64 (orient endian.order bytes)) := by
  have loaded (i : Nat) (within : i < 8) : data i = some (bytes.getD i 0) := by
    rw [leads i (by omega), List.getD_eq_getElem?_getD, List.getElem?_eq_getElem (by omega)]
    rfl
  have listed : (List.range 8).map (fun i => bytes.getD i 0) = bytes := by
    apply List.ext_getElem
    · simp [length]
    · intro i left right
      simp [List.getElem?_eq_getElem right]
  rw [orient_order, elfReadU64]
  split
  · rw [shiftIn_correct data _ (fun i => bytes.getD i 0), List.map_reverse, List.reverse_reverse, listed]
    intro i member
    exact loaded i (by simpa using member)
  · rw [shiftIn_correct data _ (fun i => bytes.getD i 0), listed]
    intro i member
    exact loaded i (by simpa using member)

end Readers

inductive SameOrder : ElfData → Endian → Prop where
  | lsb : SameOrder .data2Lsb .little
  | msb : SameOrder .data2Msb .big

theorem SameOrder.order_eq {encoding : ElfData} {endian : Endian}
    (same : SameOrder encoding endian) : encoding.order = endian := by
  cases same with
  | lsb => rfl
  | msb => rfl

/-- A reader of the loader and the guest read of the same width: one value for the same bytes,
wherever the loader finds them, and the two encodings mirror each other. -/
def ReadersAgree {n : Nat} (size : Nat)
    (elfRead : (Nat → Option (BitVec 8)) → ElfData → Option (BitVec n))
    (memoryRead : Ptr Memory → BitVec 64 → Ptr (BitVec n) → Option (MemoryStatus × Ptr (BitVec n))) :
    Prop :=
  (∀ (mem : Memory) (address : BitVec 64) (out : BitVec n) (encoding : ElfData)
    (data : Nat → Option (BitVec 8)),
    address.toNat + size ≤ maxSize → size ∣ address.toNat → SameOrder encoding mem.endian →
    Leads data (mem.window address.toNat size) →
      ∃ value, elfRead data encoding = some value ∧
        memoryRead (.ref mem) address (.ref out) = some (.ok, .ref value)) ∧
  ∀ bytes : List (BitVec 8), bytes.length = size →
    ∃ value, elfRead (fun i => bytes[i]?) .data2Lsb = some value ∧
      elfRead (fun i => bytes.reverse[i]?) .data2Msb = some value

theorem readersAgree_of_join {n : Nat} (size : Nat)
    (elfRead : (Nat → Option (BitVec 8)) → ElfData → Option (BitVec n))
    (memoryRead : Ptr Memory → BitVec 64 → Ptr (BitVec n) → Option (MemoryStatus × Ptr (BitVec n)))
    (elfReads : ∀ data endian bytes, Leads data bytes → bytes.length = size →
      elfRead data endian = some (ByteOrder.join n (orient endian.order bytes)))
    (memoryReads : ∀ mem address out,
      memoryRead (.ref mem) address (.ref out) = some (readResult mem address size out)) :
    ReadersAgree size elfRead memoryRead := by
  constructor
  · intro mem address out encoding data inside aligned order leads
    have status := (accessStatus_ok_iff address size).mpr ⟨inside, aligned⟩
    have read := elfReads data encoding _ leads (by simp [Memory.window])
    rw [order.order_eq] at read
    refine ⟨_, read, ?_⟩
    rw [memoryReads, readResult, status]
  · intro bytes length
    have forward := elfReads _ .data2Lsb bytes (leads_getElem? bytes) length
    have backward := elfReads _ .data2Msb bytes.reverse (leads_getElem? bytes.reverse)
      (by simpa using length)
    rw [orient_order, if_neg (by decide), List.reverse_reverse] at backward
    exact ⟨_, forward, backward⟩

theorem elfRead_agrees_memoryRead :
    ReadersAgree 2 elfReadU16 memoryRead16 ∧ ReadersAgree 4 elfReadU32 memoryRead32 ∧
      ReadersAgree 8 elfReadU64 memoryRead64 :=
  ⟨readersAgree_of_join 2 elfReadU16 memoryRead16 elfReadU16_correct memoryRead16_correct,
    readersAgree_of_join 4 elfReadU32 memoryRead32 elfReadU32_correct memoryRead32_correct,
    readersAgree_of_join 8 elfReadU64 memoryRead64 elfReadU64_correct memoryRead64_correct⟩

-- Eight ascending bytes of a big-endian memory.
theorem elfRead_agrees_ascending :
    let mem : Memory := { memory := fun x => BitVec.ofNat 8 x, endian := .big }
    let data : List (BitVec 8) := [8, 9, 10, 11, 12, 13, 14, 15]
    ∃ value, elfReadU64 (fun i => data[i]?) .data2Msb = some value ∧
      memoryRead64 (.ref mem) 8 (.ref 0) = some (.ok, .ref value) := by
  intro mem data
  have leads : Leads (fun i => data[i]?) (mem.window 8 8) := leads_getElem? data
  obtain ⟨-, -, agree, -⟩ := elfRead_agrees_memoryRead
  exact agree mem 8 0 .data2Msb _ (by decide) (by decide) .msb leads

end Mips64
