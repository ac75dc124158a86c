import Mips64Emulator.Api.EmulatorInvariant
import Mips64Emulator.Guest.MemoryRuns

set_option autoImplicit false

namespace Mips64

-- The four bytes of an instruction word, least significant first.
def wordDigits (endian : Endian) (bytes : List (BitVec 8)) (offset : Nat) : List (BitVec 8) :=
  orient endian (Splice.slice bytes offset 4)

def imageWord (endian : Endian) (bytes : List (BitVec 8)) (offset : Nat) : BitVec 32 :=
  ByteOrder.join 32 (wordDigits endian bytes offset)

def OneBit (digits : List (BitVec 8)) : Prop :=
  ∃ low, digits = [low, 0, 0, 0] ∧ low.toNat ≤ 1

theorem truth_orient (endian : Endian) (bytes : List (BitVec 8)) :
    truth (orient endian bytes) = truth bytes := by
  unfold orient
  split
  · rfl
  · simp [truth]

theorem truth_eq_join_iff (digits : List (BitVec 8)) (length : digits.length = 4) :
    truth digits = ByteOrder.join 32 digits ↔ OneBit digits := by
  obtain ⟨byte0, byte1, byte2, byte3, rfl⟩ := List.length_eq_four.mp length
  have zero (byte : BitVec 8) : byte = 0 ↔ byte.toNat = 0 := BitVec.toNat_inj.symm
  have value := ByteOrder.join_toNat 32 [byte0, byte1, byte2, byte3] (by simp)
  simp only [ByteOrder.number_cons, ByteOrder.number_nil] at value
  have condition : OneBit [byte0, byte1, byte2, byte3] ↔
      byte1.toNat = 0 ∧ byte2.toNat = 0 ∧ byte3.toNat = 0 ∧ byte0.toNat ≤ 1 := by
    simp only [OneBit, List.cons.injEq, and_true, zero]
    constructor
    · rintro ⟨low, ⟨rfl, second, third, fourth⟩, small⟩
      exact ⟨second, third, fourth, small⟩
    · rintro ⟨second, third, fourth, small⟩
      exact ⟨byte0, ⟨rfl, second, third, fourth⟩, small⟩
  rw [condition, BitVec.toNat_eq, value]
  by_cases none : ∀ byte ∈ [byte0, byte1, byte2, byte3], byte = 0
  · have truthValue : (truth [byte0, byte1, byte2, byte3]).toNat = 0 := by
      rw [truth, if_pos none]
      rfl
    simp only [List.forall_mem_cons, zero] at none
    omega
  · have truthValue : (truth [byte0, byte1, byte2, byte3]).toNat = 1 := by
      rw [truth, if_neg none]
      rfl
    simp only [List.forall_mem_cons, zero, List.not_mem_nil, false_imp_iff, implies_true,
      and_true] at none
    omega

theorem placed_correct (start placed : Emulator) (backed : start.Backed) (image : ProgramImage)
    (bytes : List (BitVec 8)) (data : image.data = .ref bytes) (next : Ptr Emulator)
    (accepted : loadProgram (.ref start) (.ref image) = some (.ok, next)) (pc : BitVec 64)
    (moved : setPc next pc = (.ok, .ref placed))
    (above : image.loadAddress.toNat ≤ pc.toNat)
    (below : pc.toNat + 4 ≤ image.loadAddress.toNat + image.size.toNat) :
    placed.Backed ∧ placed.config = start.config ∧ placed.cpu.pc = pc ∧
      fetchStatus placed pc = .ok ∧
      instructionBytes placed pc =
        Splice.slice bytes (pc.toNat - image.loadAddress.toNat) 4 ∧
      pc.toNat - image.loadAddress.toNat + 4 ≤ bytes.length := by
  obtain ⟨copied, valid, inside, -, rfl⟩ := (loadProgram_ok_iff backed image next).mp accepted
  have length := payload_length valid
  have fits := payload_fits backed valid inside
  rw [data] at valid
  simp only [payload, Option.ite_none_right_eq_some, Option.some.injEq] at valid
  obtain ⟨long, rfl⟩ := valid
  have written := Emulator.splice_buffer start image.loadAddress.toNat _ fits
  have writtenBacked := backed.splice image.loadAddress.toNat (bytes.take image.size.toNat)
    (by rw [length]; exact inside)
  -- With or without the jump to the entry point, only the pc is replaced afterwards.
  have shape : 4 ∣ pc.toNat ∧ placed =
      (start.splice image.loadAddress.toNat (bytes.take image.size.toNat)).movePc pc := by
    rw [setPc_correct] at moved
    split at moved
    next aligned =>
      cases moved
      rw [loaded]
      split <;> exact ⟨aligned, rfl⟩
    next => cases moved
  obtain ⟨aligned, rfl⟩ := shape
  refine ⟨writtenBacked, rfl, rfl, ?_, ?_, by omega⟩
  · apply (fetchStatus_ok_iff _ _).mpr
    refine ⟨aligned, ?_⟩
    simp only [Emulator.movePc_memorySize, Emulator.splice_memorySize]
    omega
  · have copiedSlice := Splice.slice_splice_inside start.buffer image.loadAddress.toNat
      (bytes.take image.size.toNat) fits pc.toNat 4 above (by omega)
    calc instructionBytes _ pc
        = Splice.slice (Splice.splice start.buffer image.loadAddress.toNat
            (bytes.take image.size.toNat)) pc.toNat 4 := congrArg (Splice.slice · _ _) written
      _ = Splice.slice (bytes.take image.size.toNat)
            (pc.toNat - image.loadAddress.toNat) 4 := copiedSlice
      _ = Splice.slice bytes (pc.toNat - image.loadAddress.toNat) 4 := by
        rw [Splice.slice, Splice.slice, List.drop_take, List.take_take, Nat.min_eq_left (by omega)]

theorem memoryRead32_bytes (mem : Memory) (pc : BitVec 64) (out : BitVec 32)
    (bytes : List (BitVec 8)) (aligned : 4 ∣ pc.toNat) (inside : pc.toNat + 4 ≤ maxSize)
    (same : mem.window pc.toNat 4 = bytes) :
    memoryRead32 (.ref mem) pc (.ref out) =
      some (.ok, .ref (ByteOrder.join 32 (orient mem.endian bytes))) := by
  have status := (accessStatus_ok_iff pc 4).mpr ⟨inside, aligned⟩
  rw [memoryRead32_correct, readResult, status, same]

/-- The reported instruction is the image's word, and what `mips64_memory_read32` returns on the
same bytes, exactly when that word is 0 or 1. -/
theorem step_instruction_iff (config : Config) (start placed : Emulator)
    (created : Created config start) (image : ProgramImage) (bytes : List (BitVec 8))
    (data : image.data = .ref bytes) (next : Ptr Emulator)
    (accepted : loadProgram (.ref start) (.ref image) = some (.ok, next)) (pc : BitVec 64)
    (moved : setPc next pc = (.ok, .ref placed))
    (above : image.loadAddress.toNat ≤ pc.toNat)
    (below : pc.toNat + 4 ≤ image.loadAddress.toNat + image.size.toNat) (info : StepInfo) :
    let offset := pc.toNat - image.loadAddress.toNat
    let digits := wordDigits config.endian bytes offset
    ∃ status report, step (.ref placed) (.ref info) = some (status, .ref report, .ref placed) ∧
      (report.instruction = imageWord config.endian bytes offset ↔ OneBit digits) ∧
      ∀ (mem : Memory) (out : BitVec 32), mem.endian = config.endian →
        pc.toNat + 4 ≤ maxSize → mem.window pc.toNat 4 = Splice.slice bytes offset 4 →
        ∃ value, memoryRead32 (.ref mem) pc (.ref out) = some (.ok, .ref value) ∧
          (report.instruction = value ↔ OneBit digits) := by
  intro offset digits
  obtain ⟨-, rfl⟩ := (created_iff config start).mp created
  obtain ⟨backed, sameConfig, atPc, status, found, long⟩ :=
    placed_correct (fresh config) placed (fresh_backed config) image bytes data next accepted pc
      moved above below
  have length : digits.length = 4 := by
    change (wordDigits config.endian bytes offset).length = 4
    rw [wordDigits, orient_length, Splice.slice, List.length_take, List.length_drop]
    omega
  have reported : (stepReport placed).instruction = truth digits := by
    change _ = truth (wordDigits config.endian bytes offset)
    rw [stepReport, atPc, fetched, if_pos status, found, wordDigits, truth_orient]
  have exact := truth_eq_join_iff digits length
  refine ⟨_, stepReport placed, step_correct backed (.ref info), ?_, ?_⟩
  · rw [reported, imageWord]
    exact exact
  · intro mem out order inside same
    refine ⟨_, memoryRead32_bytes mem pc out _ ((fetchStatus_ok_iff _ _).mp status).1 inside same, ?_⟩
    rw [reported, order]
    exact exact

-- The word 1 is reported as it is, and read as it is from a memory with the same bytes.
theorem step_instruction_one :
    let config : Config :=
      { memorySize := 8, resetPc := 0, endian := .big, clearMemoryOnReset := 0 }
    let bytes : List (BitVec 8) := [0, 0, 0, 1]
    let image : ProgramImage :=
      { data := .ref bytes, size := 4, loadAddress := 4, entryPoint := 0, setPcToEntry := 0 }
    let info : StepInfo := { pcBefore := 0, pcAfter := 0, instruction := 0, stopReason := .none }
    let placed := (loaded (fresh config) image bytes).movePc 4
    let mem : Memory := { memory := fun x => if x.val = 7 then 1 else 0, endian := .big }
    ∃ status report, step (.ref placed) (.ref info) = some (status, .ref report, .ref placed) ∧
      report.instruction = imageWord config.endian bytes 0 ∧
      memoryRead32 (.ref mem) 4 (.ref 0) = some (.ok, .ref report.instruction) := by
  intro config bytes image info placed mem
  have created : Created config (fresh config) := (created_iff _ _).mpr ⟨by decide, rfl⟩
  have accepted : loadProgram (.ref (fresh config)) (.ref image) =
      some (.ok, .ref (loaded (fresh config) image bytes)) :=
    (loadProgram_ok_iff (fresh_backed config) image _).mpr ⟨bytes, rfl, by decide, Or.inl rfl, rfl⟩
  have moved : setPc (.ref (loaded (fresh config) image bytes)) 4 = (.ok, .ref placed) := rfl
  have oneBit : OneBit (wordDigits config.endian bytes 0) := ⟨1, rfl, by decide⟩
  obtain ⟨status, report, stepped, exact, reads⟩ :=
    step_instruction_iff config (fresh config) placed created image bytes rfl _ accepted 4 moved
      (by decide) (by decide) info
  obtain ⟨value, read, agrees⟩ := reads mem 0 rfl (by decide) (by decide)
  refine ⟨status, report, stepped, exact.mpr oneBit, ?_⟩
  rw [read, agrees.mpr oneBit]

-- `0x64010001` is reported as 1.
theorem step_instruction_lost :
    let config : Config :=
      { memorySize := 4, resetPc := 0, endian := .big, clearMemoryOnReset := 0 }
    let bytes : List (BitVec 8) := [0x64, 0x01, 0x00, 0x01]
    let image : ProgramImage :=
      { data := .ref bytes, size := 4, loadAddress := 0, entryPoint := 0, setPcToEntry := 0 }
    let info : StepInfo := { pcBefore := 0, pcAfter := 0, instruction := 0, stopReason := .none }
    ∃ next placed status report, Created config (fresh config) ∧
      loadProgram (.ref (fresh config)) (.ref image) = some (.ok, next) ∧
      setPc next 0 = (.ok, .ref placed) ∧
      step (.ref placed) (.ref info) = some (status, .ref report, .ref placed) ∧
      report.instruction ≠ imageWord config.endian bytes 0 := by
  intro config bytes image info
  let placed := (loaded (fresh config) image bytes).movePc 0
  have created : Created config (fresh config) := (created_iff _ _).mpr ⟨by decide, rfl⟩
  have accepted : loadProgram (.ref (fresh config)) (.ref image) =
      some (.ok, .ref (loaded (fresh config) image bytes)) :=
    (loadProgram_ok_iff (fresh_backed config) image _).mpr ⟨bytes, rfl, by decide, Or.inl rfl, rfl⟩
  have backed : placed.Backed := rfl
  refine ⟨_, placed, _, _, created, accepted, rfl, step_correct backed _, ?_⟩
  decide

end Mips64
