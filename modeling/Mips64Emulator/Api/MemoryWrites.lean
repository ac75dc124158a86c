import Mips64Emulator.Api.Calls

set_option autoImplicit false

namespace Mips64

structure ByteString where
  data : Ptr (List (BitVec 8))
  size : BitVec 64
  bytes : List (BitVec 8)
  valid : payload data size = some bytes

structure MemoryWrite where
  guestAddress : BitVec 64
  string : ByteString

namespace MemoryWrite

def call (emulator : Ptr Emulator) (write : MemoryWrite) : Option (Status × Ptr Emulator) :=
  writeMemory emulator write.guestAddress write.string.data write.string.size

def Fits (write : MemoryWrite) (memorySize : BitVec 64) : Prop :=
  write.guestAddress.toNat + write.string.size.toNat ≤ memorySize.toNat

instance (write : MemoryWrite) (memorySize : BitVec 64) : Decidable (write.Fits memorySize) :=
  inferInstanceAs (Decidable (_ ≤ _))

def status (memorySize : BitVec 64) (write : MemoryWrite) : Status :=
  if write.Fits memorySize then .ok else .addressOutOfRange

def overlay (memorySize : BitVec 64) (write : MemoryWrite) : Nat → Option (BitVec 8) :=
  if write.Fits memorySize then Overlay.range write.guestAddress.toNat write.string.bytes
  else fun _ => none

def effect (emulator : Emulator) (write : MemoryWrite) : Emulator :=
  if write.Fits emulator.memorySize then
    emulator.splice write.guestAddress.toNat write.string.bytes
  else emulator

def Disjoint (first second : MemoryWrite) : Prop :=
  first.guestAddress.toNat + first.string.size.toNat ≤ second.guestAddress.toNat ∨
    second.guestAddress.toNat + second.string.size.toNat ≤ first.guestAddress.toNat

theorem latest_snoc (memorySize : BitVec 64) (history : List MemoryWrite) (write : MemoryWrite)
    (x : Nat) :
    Overlay.latest (((history ++ [write]).map (overlay memorySize)).reverse) x =
      (write.overlay memorySize x).or
        (Overlay.latest ((history.map (overlay memorySize)).reverse) x) := by
  rw [List.map_append, List.reverse_append]
  exact Overlay.latest_cons _ _ x

variable {emulator : Emulator} (backed : emulator.Backed)

include backed

theorem call_correct (write : MemoryWrite) :
    write.call (.ref emulator) =
      some (write.status emulator.memorySize, .ref (write.effect emulator)) := by
  rw [call, writeMemory_valid backed _ _ _ _ write.string.valid]
  by_cases fits : write.Fits emulator.memorySize
  · simp only [status, effect, fits, if_true]
    exact congrArg some (if_pos fits)
  · simp only [status, effect, fits, if_false]
    exact congrArg some (if_neg fits)

omit backed in
theorem length (write : MemoryWrite) : write.string.bytes.length = write.string.size.toNat :=
  payload_length write.string.valid

theorem reaches {write : MemoryWrite} (fits : write.Fits emulator.memorySize) :
    write.guestAddress.toNat + write.string.bytes.length ≤ emulator.buffer.length := by
  rw [write.length, backed]
  exact fits

end MemoryWrite

structure Written (start : Emulator) (history : List MemoryWrite) (after : Emulator) : Prop where
  config : after.config = start.config
  memorySize : after.memorySize = start.memorySize
  cpu : after.cpu = start.cpu
  backed : after.Backed
  bytes : ∀ x < start.memorySize.toNat, after.buffer[x]? =
    (Overlay.latest ((history.map (MemoryWrite.overlay start.memorySize)).reverse) x).or
      start.buffer[x]?

namespace Written

variable {start after : Emulator} {history : List MemoryWrite}

theorem nil (backed : start.Backed) : Written start [] start :=
  ⟨rfl, rfl, rfl, backed, fun _ _ => rfl⟩

theorem step (written : Written start history after) (write : MemoryWrite) :
    Written start (history ++ [write]) (write.effect after) := by
  obtain ⟨config, size, cpu, backed, bytes⟩ := written
  by_cases fits : write.Fits after.memorySize
  · have reach := MemoryWrite.reaches backed fits
    have laid : write.effect after =
        after.splice write.guestAddress.toNat write.string.bytes := if_pos fits
    rw [laid]
    refine ⟨config, size, cpu, backed.splice _ _ (backed ▸ reach), ?_⟩
    intro x inside
    have within : x < after.buffer.length := by rw [backed, size]; exact inside
    rw [Emulator.splice_buffer _ _ _ reach, Splice.splice_getElem? _ _ _ reach x within,
      bytes x inside, MemoryWrite.latest_snoc, MemoryWrite.overlay, if_pos (size ▸ fits),
      Option.or_assoc]
  · have kept : write.effect after = after := if_neg fits
    rw [kept]
    refine ⟨config, size, cpu, backed, ?_⟩
    intro x inside
    rw [bytes x inside, MemoryWrite.latest_snoc, MemoryWrite.overlay, if_neg (size ▸ fits),
      Option.none_or]

end Written

theorem writeRun_correct {start emulator : Emulator} {history : List MemoryWrite}
    (written : Written start history emulator) (writes : List MemoryWrite) :
    ∃ after, Transducer.run MemoryWrite.call (.ref emulator) writes =
        some (writes.map (MemoryWrite.status start.memorySize), .ref after) ∧
      Written start (history ++ writes) after := by
  induction writes generalizing emulator history with
  | nil => exact ⟨emulator, rfl, by simpa using written⟩
  | cons write rest ih =>
    obtain ⟨after, ran, still⟩ := ih (written.step write)
    refine ⟨after, ?_, by simpa using still⟩
    have called := MemoryWrite.call_correct written.backed write
    rw [written.memorySize] at called
    exact (Transducer.run_cons _ _ _ _ _).mpr ⟨_, _, _, called, ran, rfl⟩

section Pairs

variable {emulator : Emulator} (backed : emulator.Backed)

include backed

theorem twoWrites_correct {first second : MemoryWrite} (fits : first.Fits emulator.memorySize)
    (fitsOther : second.Fits emulator.memorySize) :
    Transducer.run MemoryWrite.call (.ref emulator) [first, second] =
      some ([.ok, .ok], .ref ((emulator.splice first.guestAddress.toNat first.string.bytes).splice
        second.guestAddress.toNat second.string.bytes)) := by
  have called := MemoryWrite.call_correct backed first
  simp only [MemoryWrite.status, MemoryWrite.effect, fits, if_true] at called
  have laid := backed.splice _ _ (backed ▸ MemoryWrite.reaches backed fits)
  have next := MemoryWrite.call_correct laid second
  simp only [MemoryWrite.status, MemoryWrite.effect, Emulator.splice_memorySize, fitsOther, if_true]
    at next
  exact (Transducer.run_cons _ _ _ _ _).mpr ⟨_, _, _, called,
    (Transducer.run_cons _ _ _ _ _).mpr ⟨_, _, _, next, rfl, rfl⟩, rfl⟩

theorem disjointWrites_commute {first second : MemoryWrite} (fits : first.Fits emulator.memorySize)
    (fitsOther : second.Fits emulator.memorySize) (disjoint : first.Disjoint second) :
    (emulator.splice first.guestAddress.toNat first.string.bytes).splice
        second.guestAddress.toNat second.string.bytes =
      (emulator.splice second.guestAddress.toNat second.string.bytes).splice
        first.guestAddress.toNat first.string.bytes := by
  have reach := MemoryWrite.reaches backed fits
  have reachOther := MemoryWrite.reaches backed fitsOther
  rw [MemoryWrite.Disjoint, ← first.length, ← second.length] at disjoint
  obtain ⟨config, memory, memorySize, cpu⟩ := emulator
  cases memory with
  | null => rfl
  | ref buffer =>
    simp only [Emulator.splice, Ptr.map,
      Splice.splice_comm buffer _ _ _ _ reach reachOther disjoint]

theorem splice_append_bytes (start : Nat) (first second : List (BitVec 8))
    (inside : start ≤ emulator.memorySize.toNat) :
    (emulator.splice start first).splice (start + first.length) second =
      emulator.splice start (first ++ second) := by
  rw [← backed] at inside
  obtain ⟨config, memory, memorySize, cpu⟩ := emulator
  cases memory with
  | null => rfl
  | ref buffer => simp only [Emulator.splice, Ptr.map, Splice.splice_append buffer _ _ _ inside]

end Pairs

/-- Every sequence of writes answers by the range check alone and leaves the bytes of the last
accepted write over each address; disjoint accepted writes commute, and a write of two strings in
one is the two writes one after the other. -/
theorem writeMemory_lastWriterWins (emulator : Emulator) (backed : emulator.Backed) :
    (∀ writes : List MemoryWrite, ∃ after,
      Transducer.run MemoryWrite.call (.ref emulator) writes =
        some (writes.map (MemoryWrite.status emulator.memorySize), .ref after) ∧
      Written emulator writes after ∧
      ∀ write : MemoryWrite, ¬ write.Fits emulator.memorySize →
        write.call (.ref after) = some (.addressOutOfRange, .ref after)) ∧
    (∀ first second : MemoryWrite, first.Fits emulator.memorySize →
      second.Fits emulator.memorySize → first.Disjoint second → ∃ after,
        Transducer.run MemoryWrite.call (.ref emulator) [first, second] =
          some ([.ok, .ok], .ref after) ∧
        Transducer.run MemoryWrite.call (.ref emulator) [second, first] =
          some ([.ok, .ok], .ref after)) ∧
    ∀ (guestAddress : BitVec 64) (whole first second : ByteString),
      whole.bytes = first.bytes ++ second.bytes →
      MemoryWrite.Fits ⟨guestAddress, whole⟩ emulator.memorySize → ∃ after,
        MemoryWrite.call (.ref emulator) ⟨guestAddress, whole⟩ = some (.ok, .ref after) ∧
        Transducer.run MemoryWrite.call (.ref emulator)
          [⟨guestAddress, first⟩, ⟨guestAddress + first.size, second⟩] =
            some ([.ok, .ok], .ref after) := by
  refine ⟨?_, ?_, ?_⟩
  · intro writes
    obtain ⟨after, ran, written⟩ := writeRun_correct (Written.nil backed) writes
    refine ⟨after, ran, written, ?_⟩
    intro write outside
    rw [← written.memorySize] at outside
    rw [MemoryWrite.call_correct written.backed, MemoryWrite.status, MemoryWrite.effect,
      if_neg outside, if_neg outside]
  · intro first second fits fitsOther disjoint
    refine ⟨_, twoWrites_correct backed fits fitsOther, ?_⟩
    rw [twoWrites_correct backed fitsOther fits,
      disjointWrites_commute backed fits fitsOther disjoint]
  · intro guestAddress whole first second joined fits
    have size := congrArg List.length joined
    rw [List.length_append, payload_length whole.valid, payload_length first.valid,
      payload_length second.valid] at size
    have bounded := emulator.memorySize.isLt
    simp only [MemoryWrite.Fits] at fits
    -- The second address is inside the memory, so it does not wrap.
    have moved : (guestAddress + first.size).toNat = guestAddress.toNat + first.bytes.length := by
      rw [payload_length first.valid, BitVec.toNat_add, Nat.mod_eq_of_lt (by omega)]
    have fitsFirst : MemoryWrite.Fits ⟨guestAddress, first⟩ emulator.memorySize := by
      simp only [MemoryWrite.Fits]
      omega
    have fitsSecond :
        MemoryWrite.Fits ⟨guestAddress + first.size, second⟩ emulator.memorySize := by
      simp only [MemoryWrite.Fits, moved, payload_length first.valid]
      omega
    refine ⟨emulator.splice guestAddress.toNat whole.bytes, ?_, ?_⟩
    · rw [MemoryWrite.call_correct backed]
      simp [MemoryWrite.status, MemoryWrite.effect, MemoryWrite.Fits, fits]
    · rw [twoWrites_correct backed fitsFirst fitsSecond]
      simp only [moved, joined,
        splice_append_bytes backed guestAddress.toNat _ _ (by omega : guestAddress.toNat ≤ _)]

-- Two overlapping writes, an empty one at the end of the memory, and one that does not fit.
theorem writeMemory_lastWriterWins_overlap :
    let config : Config :=
      { memorySize := 4, resetPc := 0, endian := .big, clearMemoryOnReset := 0 }
    let writes : List MemoryWrite :=
      [⟨0, ⟨.ref [0x11, 0x11], 2, [0x11, 0x11], rfl⟩⟩, ⟨1, ⟨.ref [0x22, 0x22], 1, [0x22], rfl⟩⟩,
        ⟨4, ⟨.null, 0, [], rfl⟩⟩, ⟨4, ⟨.ref [0x33], 1, [0x33], rfl⟩⟩]
    ∃ after, Transducer.run MemoryWrite.call (.ref (fresh config)) writes =
        some ([.ok, .ok, .ok, .addressOutOfRange], .ref after) ∧
      after.buffer[0]? = some 0x11 ∧ after.buffer[1]? = some 0x22 ∧ after.buffer[2]? = some 0 := by
  intro config writes
  obtain ⟨after, ran, written, -⟩ :=
    (writeMemory_lastWriterWins (fresh config) (fresh_backed config)).1 writes
  exact ⟨after, ran, written.bytes 0 (by decide), written.bytes 1 (by decide),
    written.bytes 2 (by decide)⟩

end Mips64
