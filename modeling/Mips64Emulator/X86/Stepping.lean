import Mips64Emulator.Shared.Reachability
import Mips64Emulator.X86.Block
import Mips64Emulator.X86.DecodeSound

set_option autoImplicit false

namespace X86

def Covers (start : BitVec 64) (count : Nat) (address : BitVec 64) : Prop :=
  (address - start).toNat < count

instance (start : BitVec 64) (count : Nat) (address : BitVec 64) :
    Decidable (Covers start count address) :=
  inferInstanceAs (Decidable (_ < _))

theorem covers_offset {count i : Nat} (start : BitVec 64) (inside : i < count)
    (bounded : count ≤ 2 ^ 64) : Covers start count (start + BitVec.ofNat 64 i) := by
  have offset : (start + BitVec.ofNat 64 i - start).toNat = i := by
    rw [BitVec.add_comm, BitVec.add_sub_cancel, BitVec.toNat_ofNat, Nat.mod_eq_of_lt (by omega)]
  rw [Covers, offset]
  exact inside

theorem forall_covers {start : BitVec 64} {count : Nat} {P : BitVec 64 → Prop}
    (each : ∀ i < count, P (start + BitVec.ofNat 64 i)) (address : BitVec 64)
    (covered : Covers start count address) : P address := by
  have offset : start + BitVec.ofNat 64 (address - start).toNat = address := by
    rw [BitVec.ofNat_toNat, BitVec.setWidth_eq, BitVec.add_comm, BitVec.sub_add_cancel]
  exact offset ▸ each _ covered

def Loaded (memory : BitVec 64 → Byte) (start : BitVec 64) (bytes : List Byte) : Prop :=
  ∀ i byte, bytes[i]? = some byte → memory (start + BitVec.ofNat 64 i) = byte

namespace Loaded

variable {memory other : BitVec 64 → Byte} {start : BitVec 64} {bytes : List Byte}

theorem nil : Loaded memory start [] := by
  intro i byte found
  cases found

theorem cons_iff (byte : Byte) (rest : List Byte) :
    Loaded memory start (byte :: rest) ↔ memory start = byte ∧ Loaded memory (start + 1) rest := by
  have next (i : Nat) : start + BitVec.ofNat 64 (i + 1) = start + 1 + BitVec.ofNat 64 i := by
    rw [Nat.add_comm, BitVec.ofNat_add, ← BitVec.add_assoc]
    rfl
  constructor
  · intro loaded
    refine ⟨by simpa using loaded 0 byte rfl, fun i later found => ?_⟩
    rw [← next]
    exact loaded (i + 1) later found
  · rintro ⟨first, loaded⟩ i later found
    cases i with
    | zero => simpa using first.trans (Option.some.inj found)
    | succ i => exact next i ▸ loaded i later found

theorem append_iff (front rest : List Byte) :
    Loaded memory start (front ++ rest) ↔
      Loaded memory start front ∧ Loaded memory (start + BitVec.ofNat 64 front.length) rest := by
  induction front generalizing start with
  | nil => simp [nil]
  | cons byte front ih =>
    have length : start + 1 + BitVec.ofNat 64 front.length =
        start + BitVec.ofNat 64 (byte :: front).length := by
      rw [List.length_cons, Nat.add_comm, BitVec.ofNat_add, ← BitVec.add_assoc]
      rfl
    rw [List.cons_append, cons_iff, cons_iff, ih, length, and_assoc]

theorem congr (loaded : Loaded memory start bytes) (bounded : bytes.length ≤ 2 ^ 64)
    (same : ∀ address, Covers start bytes.length address → other address = memory address) :
    Loaded other start bytes := by
  intro i byte found
  have inside : i < bytes.length := (List.getElem?_eq_some_iff.mp found).1
  rw [same _ (covers_offset start inside bounded)]
  exact loaded i byte found

theorem fetched (loaded : Loaded memory start bytes) :
    (List.range bytes.length).map (fun i => memory (start + BitVec.ofNat 64 i)) = bytes := by
  apply List.ext_getElem?
  intro i
  by_cases inside : i < bytes.length
  · rw [List.getElem?_map, List.getElem?_range inside, Option.map_some,
      List.getElem?_eq_getElem inside, loaded i _ (List.getElem?_eq_getElem inside)]
  · rw [List.getElem?_eq_none (by simpa using inside), List.getElem?_eq_none (by omega)]

end Loaded

namespace State

theorem store_outside (state : State) (start : BitVec 64) (bytes : List Byte)
    {address : BitVec 64} (outside : ¬ Covers start bytes.length address) :
    (state.store start bytes).memory address = state.memory address := by
  have beyond : bytes[(address - start).toNat]? = none :=
    List.getElem?_eq_none (Nat.le_of_not_lt outside)
  simp only [store, beyond, Option.getD_none]

theorem store_loaded (state : State) (start : BitVec 64) (bytes : List Byte)
    (bounded : bytes.length ≤ 2 ^ 64) : Loaded (state.store start bytes).memory start bytes := by
  intro i byte found
  have inside : i < bytes.length := (List.getElem?_eq_some_iff.mp found).1
  exact Option.some.inj ((state.store_memory start bytes i inside bounded).trans found)

theorem load_loaded {n : Nat} {state : State} {start : BitVec 64} (count : Nat) (value : BitVec n)
    (loaded : Loaded state.memory start (ByteOrder.split count value)) :
    state.load count start = value.setWidth (8 * count) := by
  have bytes := loaded.fetched
  rw [ByteOrder.split_length] at bytes
  rw [load, bytes, ByteOrder.join_split_setWidth]

-- No instruction is longer than 15 bytes.
def window (state : State) : List Byte :=
  (List.range 15).map fun i => state.memory (state.rip + BitVec.ofNat 64 i)

end State

def step (state : State) : Option State := do
  let (encoded, _) ← decode state.window
  encoded.execute state

abbrev Steps : State → State → Prop := Reachability.Reaches step

namespace Encoded

theorem execute_correct {encoded : Encoded} {instruction : Instruction}
    (means : encoded.instruction = some instruction) (state : State) :
    encoded.execute state = instruction.execute { state with rip := state.rip + encoded.size } := by
  rw [execute, means, Option.bind_some]

theorem bytes_length_le {encoded : Encoded} (wellFormed : encoded.WellFormed) :
    encoded.bytes.length ≤ 15 := by
  obtain ⟨form, -, -, immediate⟩ := wellFormed.opcode
  have displacement : encoded.displacement.length ≤ 4 := by
    rw [wellFormed.displacement, displacementLength.eq_def]
    split
    · omega
    · split_ifs <;> omega
  have constant : encoded.immediate.length ≤ 4 := by
    rw [immediate, Immediate.length.eq_def]
    split
    all_goals first | omega | (split <;> omega)
  have optional {A : Type} (item : Option A) : item.toList.length ≤ 1 := by
    cases item <;> simp
  have legacy := optional encoded.legacy
  have rex := optional (encoded.rex.map Rex.byte)
  have escape := optional encoded.escapeByte
  have modrm := optional (encoded.modrm.map ModRm.byte)
  have sib := optional (encoded.sib.map Sib.byte)
  simp only [bytes, body, List.length_append, List.length_cons]
  omega

end Encoded

theorem window_loaded {state : State} {bytes : List Byte}
    (loaded : Loaded state.memory state.rip bytes) (short : bytes.length ≤ 15) :
    ∃ rest, state.window = bytes ++ rest := by
  obtain ⟨more, total⟩ : ∃ more, 15 = bytes.length + more := ⟨15 - bytes.length, by omega⟩
  rw [State.window, total, List.range_add, List.map_append, loaded.fetched]
  exact ⟨_, rfl⟩

theorem step_loaded {state : State} {encoded : Encoded} (wellFormed : encoded.WellFormed)
    (loaded : Loaded state.memory state.rip encoded.bytes) : step state = encoded.execute state := by
  obtain ⟨rest, window⟩ := window_loaded loaded (Encoded.bytes_length_le wellFormed)
  simp only [step, window, Encoded.decode_bytes wellFormed rest, bind, Option.bind_some]

theorem steps_single {before after : State} {encoded : Encoded} (wellFormed : encoded.WellFormed)
    (loaded : Loaded before.memory before.rip encoded.bytes)
    (executed : encoded.execute before = some after) : Steps before after :=
  .single ((step_loaded wellFormed loaded).trans executed)

namespace Instruction

-- No operand in memory is written and nothing is pushed.
def WritesRegisters : Instruction → Prop
  | alu op _ (.memory _) _ => op.keeps = false
  | mov _ (.memory _) _ | shift _ _ (.memory _) _ | push _ | callNear _ | call _ => False
  | _ => True

theorem execute_memory {instruction : Instruction} (registers : instruction.WritesRegisters)
    {before after : State} (executed : instruction.execute before = some after) :
    after.memory = before.memory := by
  cases instruction with
  | alu op width destination source =>
    cases destination with
    | register index =>
      cases executed
      cases op.keeps <;> rfl
    | memory address =>
      have kept : op.keeps = false := registers
      simp only [execute, kept, Bool.false_eq_true, if_false, Option.some.injEq] at executed
      rw [← executed]
  | mov width destination source =>
    cases destination with
    | register index => cases executed; rfl
    | memory address => exact registers.elim
  | shift op width destination count =>
    cases destination with
    | register index => cases executed; rfl
    | memory address => exact registers.elim
  | idiv width divisor =>
    simp only [execute] at executed
    split at executed
    · cases executed
    · cases executed; rfl
  | set code destination =>
    obtain ⟨holds, -, same⟩ := Option.bind_eq_some_iff.mp executed
    cases same; rfl
  | jcc code offset =>
    obtain ⟨holds, -, same⟩ := Option.bind_eq_some_iff.mp executed
    cases same
    cases holds <;> rfl
  | push source => exact registers.elim
  | callNear target => exact registers.elim
  | call offset => exact registers.elim
  | imul _ _ _ | convert _ | movzx _ _ _ | pop _ | ret | jmp _ => cases executed; rfl

end Instruction

def Encoded.KeepsMemory (encoded : Encoded) : Prop :=
  ∀ instruction ∈ encoded.instruction, instruction.WritesRegisters

theorem Encoded.KeepsMemory.execute {encoded : Encoded} (keeps : encoded.KeepsMemory)
    {before after : State} (executed : encoded.execute before = some after) :
    after.memory = before.memory := by
  obtain ⟨instruction, means, executes⟩ := Option.bind_eq_some_iff.mp executed
  have same := Instruction.execute_memory (keeps instruction means) executes
  exact same

theorem Straight.executeAll_correct {instructions : List Encoded} {before after : State}
    (straight : Straight instructions before after) : executeAll instructions before = some after := by
  have all := straight.executeAll_append []
  rw [List.append_nil] at all
  exact all

-- Jumps included: the first one ends the row.
theorem executeAll_steps {instructions : List Encoded} {before after : State}
    (executed : executeAll instructions before = some after)
    (wellFormed : ∀ encoded ∈ instructions, encoded.WellFormed)
    (keeps : ∀ encoded ∈ instructions, encoded.KeepsMemory)
    (loaded : Loaded before.memory before.rip (instructions.flatMap Encoded.bytes)) :
    Steps before after ∧ after.memory = before.memory := by
  induction instructions generalizing before with
  | nil =>
    cases executed
    exact ⟨.refl _, rfl⟩
  | cons encoded rest ih =>
    obtain ⟨middle, first, later⟩ := Option.bind_eq_some_iff.mp executed
    obtain ⟨here, behind⟩ := (Loaded.append_iff _ _).mp loaded
    have reaches := steps_single (wellFormed encoded (by simp)) here first
    have memory := (keeps encoded (by simp)).execute first
    split at later
    next falls =>
      have placed : Loaded middle.memory middle.rip (rest.flatMap Encoded.bytes) := by
        rw [memory, falls]
        exact behind
      obtain ⟨continues, kept⟩ := ih later (fun other member => wellFormed other (.tail _ member))
        (fun other member => keeps other (.tail _ member)) placed
      exact ⟨reaches.trans continues, kept.trans memory⟩
    next =>
      cases later
      exact ⟨reaches, memory⟩

/-- Code that writes no memory runs where it is loaded as it runs on its own. -/
theorem run_steps {instructions : List Encoded} {before after : State}
    (ran : run (instructions.flatMap Encoded.bytes) before = some after)
    (wellFormed : ∀ encoded ∈ instructions, encoded.WellFormed)
    (keeps : ∀ encoded ∈ instructions, encoded.KeepsMemory)
    (loaded : Loaded before.memory before.rip (instructions.flatMap Encoded.bytes)) :
    Steps before after ∧ after.memory = before.memory := by
  rw [run_bytes instructions wellFormed] at ran
  exact executeAll_steps ran wellFormed keeps loaded

theorem Encoded.keepsMemory_of_direct {encoded : Encoded} {modrm : ModRm}
    (found : encoded.modrm = some modrm) (direct : modrm.mod = 3) (notGroup : encoded.opcode ≠ 0xFF) :
    encoded.KeepsMemory := by
  have operand : encoded.rmOperand modrm = .register (encoded.rmRegister modrm) := if_pos direct
  have two : ∀ instruction ∈ encoded.twoOperand modrm, instruction.WritesRegisters := by
    intro instruction means
    simp only [twoOperand, operand, Option.mem_def] at means
    split_ifs at means <;> cases means <;> trivial
  have one : ∀ instruction ∈ encoded.oneOperand modrm, instruction.WritesRegisters := by
    intro instruction means
    simp only [oneOperand, operand, notGroup, false_and, if_false, Option.mem_def] at means
    split_ifs at means
    all_goals first
      | cases means <;> trivial
      | obtain ⟨op, -, rfl⟩ := Option.map_eq_some_iff.mp means
        trivial
  have escaped : ∀ instruction ∈ encoded.escapedOperand modrm, instruction.WritesRegisters := by
    intro instruction means
    simp only [escapedOperand, Option.mem_def] at means
    split_ifs at means
    all_goals first
      | cases means <;> trivial
      | obtain ⟨register, -, rfl⟩ := Option.map_eq_some_iff.mp means
        trivial
  intro instruction means
  rw [Encoded.instruction.eq_def, found] at means
  cases legacy : encoded.legacy with
  | some byte => simp [legacy] at means
  | none =>
    cases escape : encoded.escape with
    | true => exact escaped instruction (by simpa [legacy, escape] using means)
    | false =>
      have means : instruction ∈ (encoded.twoOperand modrm).or (encoded.oneOperand modrm) := by
        simpa [legacy, escape] using means
      rcases Option.or_eq_some_iff.mp means with first | ⟨-, second⟩
      · exact two instruction first
      · exact one instruction second

end X86
