import Mips64Emulator.Jit.Branches
import Mips64Emulator.Jit.Division
import Mips64Emulator.Jit.MemoryOperations
import Mips64Emulator.Jit.ShiftByRegister
import Mips64Emulator.X86.Stepping

set_option autoImplicit false

namespace Jit

open X86 EncoderUse

namespace EncoderUse

def IsDirect : EncoderUse → Prop
  | op0 opcode _ _ | rr opcode _ _ _ => opcode ≠ 0xFF
  | rr0 opcode _ _ mod _ | ri8 opcode _ _ _ mod _ | ri32 opcode _ _ _ mod _ =>
    mod = 3 ∧ opcode ≠ 0xFF
  | _ => False

theorem encoded_keepsMemory {use : EncoderUse} (direct : use.IsDirect) :
    ∀ encoded ∈ use.encoded, encoded.KeepsMemory := by
  intro encoded member
  cases use with
  | op0 opcode dest src =>
    obtain rfl := List.mem_singleton.mp member
    exact Encoded.keepsMemory_of_direct rfl rfl direct
  | rr opcode dest src op64 =>
    obtain rfl := List.mem_singleton.mp member
    exact Encoded.keepsMemory_of_direct rfl rfl direct
  | rr0 opcode dest src mod op64 | ri8 opcode dest src im mod op64
  | ri32 opcode dest src im mod op64 =>
    obtain ⟨rfl, notGroup⟩ := direct
    obtain rfl := List.mem_singleton.mp member
    exact Encoded.keepsMemory_of_direct rfl rfl notGroup
  | _ => exact direct.elim

end EncoderUse

theorem instructions_single (use : EncoderUse) : instructions [use] = use.encoded :=
  List.flatMap_singleton ..

def AllDirect (uses : List EncoderUse) : Prop := ∀ use ∈ uses, use.IsDirect

theorem AllDirect.keepsMemory {uses : List EncoderUse} (direct : AllDirect uses) :
    ∀ encoded ∈ instructions uses, encoded.KeepsMemory := by
  intro encoded member
  obtain ⟨use, used, inUse⟩ := List.mem_flatMap.mp member
  exact encoded_keepsMemory (direct use used) encoded inUse

@[simp] theorem allDirect_nil : AllDirect [] := by
  simp [AllDirect]

@[simp] theorem allDirect_cons (use : EncoderUse) (rest : List EncoderUse) :
    AllDirect (use :: rest) ↔ use.IsDirect ∧ AllDirect rest := by
  simp [AllDirect]

@[simp] theorem allDirect_append (uses others : List EncoderUse) :
    AllDirect (uses ++ others) ↔ AllDirect uses ∧ AllDirect others := by
  simp [AllDirect, or_imp, forall_and]

@[simp] theorem onlyIf_direct {use : EncoderUse} (condition : Prop) [Decidable condition]
    (direct : use.IsDirect) : AllDirect (onlyIf condition use) := by
  by_cases taken : condition <;> simp [onlyIf, taken, direct]

@[simp] theorem rr_direct (opcode : Byte) (dest src : BitVec 32) (op64 : Bool) :
    (rr opcode dest src op64).IsDirect ↔ opcode ≠ 0xFF := Iff.rfl

@[simp] theorem mov_direct (dest src : BitVec 32) : (mov dest src).IsDirect := by
  simp [mov]

@[simp] theorem movi32_direct (dest im : BitVec 32) : (movi32 dest im).IsDirect := by
  simp [movi32, IsDirect]

theorem comparison_direct (s t : BitVec 32) : (comparison s t).IsDirect := by
  unfold comparison
  split_ifs <;> simp [cmpi8, cmp64, IsDirect]

theorem outcome_direct {compare : EncoderUse} {opcode : Byte} (direct : compare.IsDirect)
    (notGroup : opcode ≠ 0xFF) : AllDirect [compare, op0 opcode 0 al, movzx raxInt al] := by
  have set : (op0 opcode 0 al).IsDirect := notGroup
  have widen : (movzx raxInt al).IsDirect := by simp [movzx, IsDirect]
  simp only [allDirect_cons]
  exact ⟨direct, set, widen, allDirect_nil⟩

theorem operation_direct (op : Operation) (d s t : BitVec 32) : AllDirect (op.call d s t).uses := by
  have notGroup : (0x9C : Byte) ≠ 0xFF := by decide
  have compared := outcome_direct (comparison_direct s t) notGroup
  cases op with
  | less =>
    have moved : AllDirect [mov d raxInt] := by simp
    have whole := (allDirect_append _ _).mpr ⟨compared, moved⟩
    simp only [Operation.call, JitCall.uses, JitCall.actions, jitLess, recorded_uses]
    split_ifs
    · simp
    · exact whole
    · exact allDirect_nil
  | add | sub =>
    simp only [Operation.call, JitCall.uses, JitCall.actions, jitAdd, jitSub, recorded_uses, addLike]
    split_ifs <;> simp [EncoderUse.add, EncoderUse.sub]
  | mul =>
    have multiplies : (imul d t).IsDirect := ⟨rfl, by decide⟩
    simp only [Operation.call, JitCall.uses, JitCall.actions, jitMul, recorded_uses]
    split_ifs <;> simp [multiplies]
  | and | or | xor =>
    simp only [Operation.call, JitCall.uses, JitCall.actions, jitAnd, jitOr, jitXor, recorded_uses,
      logicalLike]
    split_ifs <;> simp [EncoderUse.and, EncoderUse.or, EncoderUse.xor]

section Pushed

variable (index : Register)

theorem push_executes (before : State) :
    (inOpcode 80 (intOfRegister index)).execute before = some (pushed index before) := by
  rw [Encoded.execute, push_instruction]
  rfl

-- The stack slot the next `PUSH` writes.
def freeSlot (state : State) : BitVec 64 := state.registers rsp - 8

theorem pushed_memory (before : State) :
    (pushed index before).memory =
      (before.store (freeSlot before) (ByteOrder.split 8 (before.registers index))).memory := rfl

structure Placed (code : List Byte) (before : State) : Prop where
  loaded : Loaded before.memory before.rip code
  bounded : code.length ≤ 2 ^ 64
  apart : ∀ address, Covers before.rip code.length address → ¬ Covers (freeSlot before) 8 address

structure FallsThrough (code : List Byte) (before after : State) : Prop where
  rip : after.rip = before.rip + BitVec.ofNat 64 code.length
  memory : ∀ address, ¬ Covers (freeSlot before) 8 address →
    after.memory address = before.memory address

structure RunsThrough (code : List Byte) (before after : State) : Prop
    extends FallsThrough code before after where
  steps : Steps before after

theorem Writes.runsThrough {uses : List EncoderUse} {d : Register}
    {value : (Register → BitVec 64) → BitVec 64} (writes : Writes uses d value)
    (direct : AllDirect uses) {before : State}
    (loaded : Loaded before.memory before.rip (usesBytes uses)) :
    ∃ after, RunsThrough (usesBytes uses) before after ∧
      after.registers d = value before.registers ∧
      ∀ other, other ≠ d → other ≠ rax → after.registers other = before.registers other := by
  obtain ⟨after, ran, rip, destination, others⟩ := writes.run_correct before
  obtain ⟨transformed, transforms, -⟩ := writes
  rw [usesBytes_correct] at ran loaded
  obtain ⟨steps, memory⟩ := run_steps ran transforms.wellFormed direct.keepsMemory loaded
  exact ⟨after, ⟨⟨rip, fun address _ => congrFun memory address⟩, steps⟩, destination, others⟩

/-- Code around one `PUSH` runs through where the slot written lies apart from it. -/
theorem saved_runsThrough {front body code : List Encoded} {before moved after : State}
    (shape : code = front ++ (inOpcode 80 (intOfRegister index) :: body))
    (moves : Straight front before moved)
    (stack : moved.registers rsp = before.registers rsp) (straight : Straight code before after)
    (wellFormed : ∀ encoded ∈ code, encoded.WellFormed)
    (frontKeeps : ∀ encoded ∈ front, encoded.KeepsMemory)
    (bodyKeeps : ∀ encoded ∈ body, encoded.KeepsMemory)
    (placed : Placed (code.flatMap Encoded.bytes) before) :
    RunsThrough (code.flatMap Encoded.bytes) before after := by
  let save := inOpcode 80 (intOfRegister index)
  have inFront (encoded : Encoded) (member : encoded ∈ front) : encoded ∈ code :=
    shape ▸ List.mem_append_left _ member
  have inBody (encoded : Encoded) (member : encoded ∈ body) : encoded ∈ code :=
    shape ▸ List.mem_append_right _ (.tail _ member)
  have bytes : code.flatMap Encoded.bytes = front.flatMap Encoded.bytes ++
      (save.bytes ++ body.flatMap Encoded.bytes) := by
    rw [shape, List.flatMap_append, List.flatMap_cons]
  have loadedFront := (Loaded.append_iff _ _).mp (bytes ▸ placed.loaded)
  obtain ⟨reachesMoved, movedMemory⟩ := executeAll_steps moves.executeAll_correct
    (fun encoded member => wellFormed encoded (inFront encoded member)) frontKeeps loadedFront.1
  have loadedSave := ((Loaded.append_iff _ _).mp loadedFront.2).1
  rw [← moves.rip, ← movedMemory] at loadedSave
  have reachesPushed : Steps moved (pushed index moved) :=
    steps_single (push_wellFormed index) loadedSave (push_executes index moved)
  have outsideSlot (address : BitVec 64) (outside : ¬ Covers (freeSlot before) 8 address) :
      (pushed index moved).memory address = before.memory address := by
    have slot : freeSlot moved = freeSlot before := by rw [freeSlot, stack, freeSlot]
    rw [pushed_memory, slot, State.store_outside _ _ _ (by simpa using outside), movedMemory]
  -- The push leaves the code behind it where it is.
  have still := placed.loaded.congr placed.bounded fun address covered =>
    outsideSlot address (placed.apart address covered)
  have loadedBody := ((Loaded.append_iff _ _).mp ((Loaded.append_iff _ _).mp (bytes ▸ still)).2).2
  have pushedRip : (pushed index moved).rip = moved.rip + BitVec.ofNat 64 save.bytes.length := rfl
  rw [← moves.rip, ← pushedRip] at loadedBody
  have bodyRan : executeAll body (pushed index moved) = some after := by
    have ran := straight.executeAll_correct
    rw [shape, moves.executeAll_append, executeAll, push_executes] at ran
    exact (if_pos pushedRip).symm.trans ran
  obtain ⟨reachesAfter, memory⟩ := executeAll_steps bodyRan
    (fun encoded member => wellFormed encoded (inBody encoded member)) bodyKeeps loadedBody
  refine ⟨⟨straight.rip, ?_⟩, reachesMoved.trans (reachesPushed.trans reachesAfter)⟩
  intro address outside
  rw [memory, outsideSlot address outside]

end Pushed

theorem pop_keepsMemory (index : Register) :
    (inOpcode 88 (intOfRegister index)).KeepsMemory := by
  intro instruction means
  rw [pop_instruction] at means
  cases means
  trivial

section Saving

variable (d s t : Register) (destinationReal : d ≠ rsp) {before : State}

include destinationReal

theorem shift_runsThrough (op : ShiftOperation) (countReal : t ≠ rsp)
    (placed : Placed (op.call (intOfRegister d) (intOfRegister s) (intOfRegister t)).code before) :
    ∃ after, RunsThrough (op.call (intOfRegister d) (intOfRegister s) (intOfRegister t)).code
        before after ∧
      after.registers = Function.update before.registers d
        (op.emitted d t (before.registers s) (before.registers t)) := by
  obtain ⟨moved, moves, movedRegisters, -⟩ := (move_transforms d s).straight before
  obtain ⟨after, straight, registers⟩ := shift_straight op d s t destinationReal countReal before
  have stack : moved.registers rsp = before.registers rsp := by
    rw [movedRegisters, Function.update_of_ne destinationReal.symm]
  have moveDirect : AllDirect (onlyIf (intOfRegister s ≠ intOfRegister d)
      (mov (intOfRegister d) (intOfRegister s))) := onlyIf_direct _ (mov_direct _ _)
  have shiftDirect : AllDirect
      [mov (intOfRegister rcx) (intOfRegister t), op.use (intOfRegister d)] := by
    cases op <;> simp [ShiftOperation.use, sal, sar]
  have shape := congrArg instructions (shift_uses op d s t)
  rw [instructions_append, instructions_append, instructions_append] at shape
  have bodyKeeps : ∀ encoded ∈ instructions [mov (intOfRegister rcx) (intOfRegister t),
      op.use (intOfRegister d)] ++ instructions [pop (intOfRegister rcx)], encoded.KeepsMemory := by
    intro encoded member
    rcases List.mem_append.mp member with shifts | restores
    · exact shiftDirect.keepsMemory encoded shifts
    · exact List.mem_singleton.mp restores ▸ pop_keepsMemory rcx
  rw [JitCall.code, usesBytes_correct] at placed ⊢
  exact ⟨after, saved_runsThrough rcx shape moves stack straight (shift_wellFormed op d s t)
    moveDirect.keepsMemory bodyKeeps placed, registers⟩

theorem div_runsThrough (sourceReal : s ≠ rsp) (divisorReal : t ≠ rsp ∧ t ≠ rax)
    (divides : DividesWithoutFault (before.registers s)
      (divisorRead t before.registers (before.registers s)))
    (placed : Placed
      (JitCall.div (intOfRegister d) (intOfRegister s) (intOfRegister t)).code before) :
    ∃ after, RunsThrough
        (JitCall.div (intOfRegister d) (intOfRegister s) (intOfRegister t)).code before after ∧
      after.registers d = (if d = rdx then before.registers rdx else
        BitVec.ofInt 64 ((dividend (before.registers s)).tdiv
          (divisorRead t before.registers (before.registers s)).toInt)) ∧
      ∀ other, other ≠ d → other ≠ rax → after.registers other = before.registers other := by
  obtain ⟨after, straight, registers⟩ :=
    div_straight d s t sourceReal divisorReal before destinationReal divides
  let front : List EncoderUse := [mov (intOfRegister rax) (intOfRegister s)]
  let back : List EncoderUse := [idiv64 (intOfRegister t), mov (intOfRegister d) (intOfRegister rax)]
  have frontDirect : AllDirect front := by simp [front]
  have backDirect : AllDirect back := by simp [back, idiv64]
  have shape : instructions (JitCall.div (intOfRegister d) (intOfRegister s) (intOfRegister t)).uses =
      [] ++ (inOpcode 80 (intOfRegister rdx) :: (instructions front ++ (bare 0x99 ::
        (instructions back ++ [inOpcode 88 (intOfRegister rdx)])))) := by
    rw [div_uses]
    rfl
  have widenKeeps : (bare 0x99).KeepsMemory := by
    intro instruction means
    have known : (bare 0x99).instruction = some (.convert .dword) := by decide
    rw [known] at means
    cases means
    trivial
  have bodyKeeps : ∀ encoded ∈ instructions front ++ (bare 0x99 ::
      (instructions back ++ [inOpcode 88 (intOfRegister rdx)])), encoded.KeepsMemory := by
    intro encoded member
    rcases List.mem_append.mp member with moves | later
    · exact frontDirect.keepsMemory encoded moves
    rcases List.mem_cons.mp later with rfl | later
    · exact widenKeeps
    rcases List.mem_append.mp later with divides | restores
    · exact backDirect.keepsMemory encoded divides
    · exact List.mem_singleton.mp restores ▸ pop_keepsMemory rdx
  rw [JitCall.code, usesBytes_correct] at placed ⊢
  exact ⟨after, saved_runsThrough rdx shape rfl rfl straight (div_wellFormed d s t)
    (by simp) bodyKeeps placed, registers⟩

end Saving

/-- In front of an access the emitters copy the stack pointer into RAX and take any other base as it
is. -/
structure BaseReached (b : Register) (front : List EncoderUse) (base : Register)
    (before moved : State) : Prop where
  shape : ∀ access : BitVec 32 → EncoderUse,
    throughStackPointer access (intOfRegister b) = front ++ [access (intOfRegister base)]
  moves : Straight (instructions front) before moved
  wellFormed : ∀ encoded ∈ instructions front, encoded.WellFormed
  keeps : ∀ encoded ∈ instructions front, encoded.KeepsMemory
  plain : ¬ (base = rsp ∨ base = r12)
  source : moved.registers base = before.registers b
  others : ∀ other, other ≠ rax → moved.registers other = before.registers other
  memory : moved.memory = before.memory

theorem base_reached (b : Register) (plainBase : b ≠ r12) (before : State) :
    ∃ front base moved, BaseReached b front base before moved := by
  by_cases stack : b = rsp
  · subst stack
    have transforms := mov_transforms rax rsp
    have direct : AllDirect [mov (intOfRegister rax) (intOfRegister rsp)] := by simp
    obtain ⟨moved, moves, registers, memory⟩ := transforms.straight before
    refine ⟨[mov (intOfRegister rax) (intOfRegister rsp)], rax, moved, fun _ => if_pos rfl, moves,
      transforms.wellFormed, direct.keepsMemory, by decide, ?_, ?_, memory⟩
    · rw [registers, Function.update_self]
    · intro other notRax
      rw [registers, Function.update_of_ne notRax]
  · have apart : intOfRegister b ≠ jitSp := (intOfRegister_inj b rsp).not.mpr stack
    refine ⟨[], b, before, fun _ => if_neg apart, rfl, ?_, ?_, ?_, rfl, fun _ _ => rfl, rfl⟩
    · intro encoded member
      cases member
    · intro encoded member
      cases member
    · simp [stack, plainBase]

section Accesses

variable (width : Width) (d b : Register) (o : BitVec 32) {before : State}

def fetched (width : Width) (state : State) (start : BitVec 64) : BitVec 64 :=
  ((state.load (width.bits / 8) start).setWidth width.bits).setWidth 64

theorem loadForm_keepsMemory : (loadForm width b d o).KeepsMemory := by
  intro instruction means
  have moves : (loadForm width b d o).instruction = some (.mov (loadForm width b d o).width
      (.register _) (.operand ((loadForm width b d o).rmOperand _))) := rfl
  rw [moves] at means
  cases means
  trivial

theorem loadForm_wellFormed (plainBase : ¬ (b = rsp ∨ b = r12)) :
    (loadForm width b d o).WellFormed :=
  memoryForm_wellFormed _ (intOfRegister d) o _ (by simp) rfl (mt (low_bits_four b).mp plainBase)

theorem loadCall_uses : ∃ access : BitVec 32 → EncoderUse,
    (loadCall (intOfRegister d) (intOfRegister b) o width).uses =
      throughStackPointer access (intOfRegister b) ∧
    ∀ base, (access (intOfRegister base)).encoded = [loadForm width base d o] := by
  have real : intOfRegister d ≠ jitR0 ∧ intOfRegister b ≠ jitR0 :=
    ⟨intOfRegister_ne_jitR0 d, intOfRegister_ne_jitR0 b⟩
  cases width with
  | dword =>
    exact ⟨fun base => load32 (intOfRegister d) base o,
      (recorded_uses _).trans (if_pos real), fun _ => rfl⟩
  | qword =>
    exact ⟨fun base => load64 (intOfRegister d) base o,
      (recorded_uses _).trans (if_pos real), fun _ => rfl⟩

theorem load_runsThrough (plainBase : b ≠ r12)
    (loaded : Loaded before.memory before.rip
      (loadCall (intOfRegister d) (intOfRegister b) o width).code) :
    ∃ after, RunsThrough (loadCall (intOfRegister d) (intOfRegister b) o width).code before after ∧
      after.registers d = fetched width before (before.registers b + o.signExtend 64) ∧
      ∀ other, other ≠ d → other ≠ rax → after.registers other = before.registers other := by
  obtain ⟨front, base, moved, reached⟩ := base_reached b plainBase before
  obtain ⟨access, uses, accesses⟩ := loadCall_uses width d b o
  have shape : instructions (loadCall (intOfRegister d) (intOfRegister b) o width).uses =
      instructions front ++ [loadForm width base d o] := by
    rw [uses, reached.shape, instructions_append, instructions_single, accesses]
  have fetches : Straight [loadForm width base d o] moved _ :=
    Straight.single (load_executes width base o moved d) rfl
  have straight := reached.moves.append fetches
  rw [← shape] at straight
  have wellFormed : ∀ encoded ∈ instructions
      (loadCall (intOfRegister d) (intOfRegister b) o width).uses, encoded.WellFormed := by
    intro encoded member
    rcases List.mem_append.mp (shape ▸ member) with inFront | last
    · exact reached.wellFormed encoded inFront
    · exact List.mem_singleton.mp last ▸ loadForm_wellFormed width d base o reached.plain
  have keeps : ∀ encoded ∈ instructions
      (loadCall (intOfRegister d) (intOfRegister b) o width).uses, encoded.KeepsMemory := by
    intro encoded member
    rcases List.mem_append.mp (shape ▸ member) with inFront | last
    · exact reached.keeps encoded inFront
    · exact List.mem_singleton.mp last ▸ loadForm_keepsMemory width d base o
  rw [JitCall.code, usesBytes_correct] at loaded ⊢
  obtain ⟨steps, kept⟩ := executeAll_steps straight.executeAll_correct wellFormed keeps loaded
  refine ⟨_, ⟨⟨straight.rip, fun address _ => congrFun kept address⟩, steps⟩, ?_, ?_⟩
  · simp only [State.setRegister, Function.update_self, reached.source, fetched, State.load,
      reached.memory]
  · intro other notDestination notRax
    simp only [State.setRegister, Function.update_of_ne notDestination]
    exact reached.others other notRax

-- The two places the store confuses hold the same number.
theorem store_steps (v : Register) (plainBase : ¬ (b = rsp ∨ b = r12)) (notStack : v ≠ rsp)
    (loaded : Loaded before.memory before.rip
      (storeCall (intOfRegister b) (intOfRegister v) (intOfRegister v) width).code) :
    ∃ after, Steps before after ∧
      after.rip = before.rip + BitVec.ofNat 64
        (storeCall (intOfRegister b) (intOfRegister v) (intOfRegister v) width).code.length ∧
      after.registers = before.registers ∧
      after.memory = placed width before
        (before.registers b + (intOfRegister v).signExtend 64) (before.registers v) := by
  have wellFormed : (storeForm width b (intOfRegister v) (intOfRegister v)).WellFormed :=
    memoryForm_wellFormed _ _ (intOfRegister v) _ (by simp) rfl (mt (low_bits_four b).mp plainBase)
  have code : (storeCall (intOfRegister b) (intOfRegister v) (intOfRegister v) width).code =
      (storeForm width b (intOfRegister v) (intOfRegister v)).bytes := by
    rw [JitCall.code, usesBytes_correct, store_instructions width v b _ notStack,
      List.flatMap_singleton]
  rw [code] at loaded ⊢
  have executed := store_executes width b (intOfRegister v) before (intOfRegister v)
  simp only [registerNumber_intOfRegister] at executed
  exact ⟨_, steps_single wellFormed loaded executed, rfl, rfl, rfl⟩

end Accesses

end Jit
