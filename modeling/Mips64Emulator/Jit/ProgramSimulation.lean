import Mips64Emulator.Jit.Programs

set_option autoImplicit false

namespace Jit

open X86 EncoderUse

theorem covers_within {start : BitVec 64} {front count total : Nat} {address : BitVec 64}
    (inside : front + count ≤ total) (bounded : total ≤ 2 ^ 64)
    (covered : Covers (start + BitVec.ofNat 64 front) count address) : Covers start total address := by
  simp only [Covers, BitVec.toNat_sub, BitVec.toNat_add, BitVec.toNat_ofNat] at covered ⊢
  omega

namespace Layout

variable {layout : Layout}

section Stack

variable {m n : Nat} {address : BitVec 64}

theorem slot_onStack (within : n ≤ layout.depth) (covered : Covers (layout.slot n) 8 address) :
    layout.OnStack address := by
  have fits := layout.stackFits
  rw [Covers, slot] at covered
  rw [OnStack, Covers]
  simp only [BitVec.toNat_sub, BitVec.toNat_ofNat] at covered ⊢
  omega

theorem slots_apart (before : m < n) (within : n ≤ layout.depth)
    (covered : Covers (layout.slot m) 8 address) : ¬ Covers (layout.slot n) 8 address := by
  have fits := layout.stackFits
  rw [Covers, slot] at covered ⊢
  simp only [BitVec.toNat_sub, BitVec.toNat_ofNat] at covered ⊢
  omega

end Stack

theorem slot_below (n : Nat) :
    layout.stackTop - BitVec.ofNat 64 (8 * n) - 8 = layout.slot n := by
  have eight : (8 : BitVec 64).toNat = 8 := rfl
  rw [slot]
  apply BitVec.eq_of_toNat_eq
  simp only [BitVec.toNat_sub, BitVec.toNat_ofNat, eight]
  omega

theorem slot_above (n : Nat) :
    layout.stackTop - BitVec.ofNat 64 (8 * (n + 1)) + 8 =
      layout.stackTop - BitVec.ofNat 64 (8 * n) := by
  have eight : (8 : BitVec 64).toNat = 8 := rfl
  apply BitVec.eq_of_toNat_eq
  simp only [BitVec.toNat_sub, BitVec.toNat_add, BitVec.toNat_ofNat, eight]
  omega

theorem target_address {address : BitVec 64} {k : Nat} (found : layout.target address = some k) :
    layout.address k = address := by
  simpa using List.find?_some found

section Calls

variable {k : Nat} {statement : Statement} (found : layout.program[k]? = some statement)

include found

theorem calls_found : layout.calls[k]? = some (statement.toCall layout.abi) := by
  rw [calls, programCalls, List.getElem?_map, found]
  rfl

theorem address_next : layout.address (k + 1) =
    layout.address k + BitVec.ofNat 64 (statement.toCall layout.abi).code.length := by
  have next := congrArg List.length (codeOf_split (calls_found found)).2
  rw [List.length_append] at next
  have offset : programOffset layout.abi layout.program (k + 1) =
      programOffset layout.abi layout.program k + (statement.toCall layout.abi).code.length := next
  rw [address, address, offset, BitVec.ofNat_add, BitVec.add_assoc]

theorem code_split : layout.code = codeOf (layout.calls.take k) ++
    ((statement.toCall layout.abi).code ++ codeOf (layout.calls.drop (k + 1))) := by
  rw [← List.append_assoc]
  exact (codeOf_split (calls_found found)).1

theorem inCode_of_call {address : BitVec 64}
    (covered : Covers (layout.address k) (statement.toCall layout.abi).code.length address) :
    layout.InCode address := by
  refine covers_within ?_ layout.codeFits covered
  have length := congrArg List.length (code_split found)
  rw [List.length_append, List.length_append] at length
  have same : layout.code.length = (programCode layout.abi layout.program).length := rfl
  have offset : programOffset layout.abi layout.program k = (codeOf (layout.calls.take k)).length :=
    rfl
  omega

end Calls

end Layout

theorem Source.writable_covers {layout : Layout} {start : BitVec 64} {count : Nat}
    (writable : Writable layout start count) {address : BitVec 64}
    (covered : Covers start count address) :
    ¬ layout.OnStack address ∧ ¬ layout.OnTop address ∧ ¬ layout.InCode address :=
  forall_covers (P := fun address =>
    ¬ layout.OnStack address ∧ ¬ layout.OnTop address ∧ ¬ layout.InCode address)
    writable address covered

def Layout.Spares (layout : Layout) (register : Register) : Prop :=
  register ≠ rsp ∧ ∀ target : JitTarget, register ≠ target.number layout.abi

/-- A machine state for a state of the program: `rip` at the call, the registers under their numbers
and the others as the caller has left them, the return addresses on the stack, and the code where it
was. -/
structure RepresentsCore (layout : Layout) (caller : Register → BitVec 64) (source : Source)
    (state : State) : Prop where
  rip : state.rip = layout.address source.pc
  registers : ∀ index : JitRegister,
    state.registers (index.number layout.abi) = source.registers index
  result : ∀ value ∈ source.result, state.registers rax = value
  stack : state.registers rsp = source.stackPointer layout
  room : source.returns.length ≤ layout.depth
  returns : ∀ n pc, source.returns.reverse[n]? = some pc →
    Loaded state.memory (layout.slot n) (ByteOrder.split 8 (layout.address pc))
  memory : ∀ address, ¬ layout.OnStack address → state.memory address = source.memory address
  code : Loaded state.memory layout.base layout.code
  spared : ∀ other, layout.Spares other → state.registers other = caller other

namespace RepresentsCore

variable {layout : Layout} {caller : Register → BitVec 64} {source : Source} {state : State}
  (represents : RepresentsCore layout caller source state)

include represents

theorem freeSlot_eq : freeSlot state = layout.slot source.returns.length := by
  rw [freeSlot, represents.stack, Source.stackPointer, Layout.slot_below]

theorem free_onStack {address : BitVec 64} (covered : Covers (freeSlot state) 8 address) :
    layout.OnStack address :=
  Layout.slot_onStack represents.room (represents.freeSlot_eq ▸ covered)

section Call

variable {statement : Statement} (found : layout.program[source.pc]? = some statement)

include found

theorem loaded : Loaded state.memory state.rip (statement.toCall layout.abi).code := by
  have code := represents.code
  rw [Layout.code_split found] at code
  have here := ((Loaded.append_iff _ _).mp ((Loaded.append_iff _ _).mp code).2).1
  rw [represents.rip]
  exact here

theorem codePlaced : Placed (statement.toCall layout.abi).code state where
  loaded := represents.loaded found
  bounded := by
    have length := congrArg List.length (Layout.code_split found)
    rw [List.length_append, List.length_append] at length
    have fits := layout.codeFits
    have same : layout.code.length = (programCode layout.abi layout.program).length := rfl
    omega
  apart address covered free := by
    rw [represents.rip] at covered
    exact layout.apart address (represents.free_onStack free) (Layout.inCode_of_call found covered)

end Call

-- The stack and the code survive what leaves everything but the free slot alone.
theorem survives {after : State}
    (memory : ∀ address, ¬ Covers (freeSlot state) 8 address →
      after.memory address = state.memory address) :
    (∀ n pc, source.returns.reverse[n]? = some pc →
      Loaded after.memory (layout.slot n) (ByteOrder.split 8 (layout.address pc))) ∧
    (∀ address, ¬ layout.OnStack address → after.memory address = source.memory address) ∧
    Loaded after.memory layout.base layout.code := by
  refine ⟨?_, ?_, ?_⟩
  · intro n pc pushed
    have below : n < source.returns.length := by
      have inside := (List.getElem?_eq_some_iff.mp pushed).1
      rwa [List.length_reverse] at inside
    refine (represents.returns n pc pushed).congr (by simp) fun address covered => ?_
    rw [ByteOrder.split_length] at covered
    apply memory
    rw [represents.freeSlot_eq]
    exact Layout.slots_apart below represents.room covered
  · intro address outside
    rw [memory address (fun free => outside (represents.free_onStack free))]
    exact represents.memory address outside
  · refine represents.code.congr layout.codeFits fun address covered => ?_
    exact memory address fun free => layout.apart address (represents.free_onStack free) covered

theorem write {after : State} {statement : Statement}
    (found : layout.program[source.pc]? = some statement) {d : JitTarget} {value : BitVec 64}
    (through : FallsThrough (statement.toCall layout.abi).code state after)
    (destination : after.registers (d.number layout.abi) = value)
    (others : ∀ other, other ≠ d.number layout.abi → other ≠ rax →
      after.registers other = state.registers other) :
    RepresentsCore layout caller (source.write value d) after := by
  obtain ⟨returns, memory, code⟩ := represents.survives through.memory
  have spared (other : Register) (spares : layout.Spares other) :
      after.registers other = caller other :=
    (others other (spares.2 d) (spares.2 .re)).trans (represents.spared other spares)
  have rip : after.rip = layout.address (source.pc + 1) := by
    rw [through.rip, represents.rip, Layout.address_next found]
  have stack : after.registers rsp = source.stackPointer layout := by
    rw [others rsp (d.number_ne_rsp layout.abi).symm (by decide), represents.stack]
  cases d with
  | re =>
    refine ⟨rip, ?_, ?_, stack, represents.room, returns, memory, code, spared⟩
    · intro index
      have notRax := index.number_ne_rax layout.abi
      exact (others _ notRax notRax).trans (represents.registers index)
    · intro known isValue
      exact destination.trans (Option.some.inj isValue)
  | register target =>
    refine ⟨rip, ?_, ?_, stack, represents.room, returns, memory, code, spared⟩
    · intro index
      by_cases same : index = target
      · subst same
        exact destination.trans (Function.update_self index value source.registers).symm
      · have apart : index.number layout.abi ≠ target.number layout.abi :=
          mt (JitRegister.number_inj layout.abi index target).mp same
        rw [others _ apart (index.number_ne_rax layout.abi), represents.registers index]
        exact (Function.update_of_ne same value source.registers).symm
    · intro known isValue
      cases isValue

theorem value {operand : JitInteger} {found : BitVec 64}
    (known : source.value layout operand = some found) :
    operand.value layout.abi state.registers = found := by
  cases operand with
  | r0 => exact Option.some.inj known
  | re => exact represents.result found known
  | sp => exact represents.stack.trans (Option.some.inj known)
  | register index => exact (represents.registers index).trans (Option.some.inj known)

theorem targetValue {target : JitTarget} {found : BitVec 64}
    (known : source.value layout target.operand = some found) :
    state.registers (target.number layout.abi) = found := by
  have read := represents.value known
  rwa [JitInteger.value, JitTarget.operand_number?] at read

theorem baseValue (base : JitBase) :
    state.registers (base.number layout.abi) = source.baseValue layout base := by
  cases base with
  | sp => exact represents.stack
  | register index => exact represents.registers index

theorem load_eq {count : Nat} {start : BitVec 64} (readable : Source.Readable layout start count) :
    state.load count start = source.load count start := by
  have same (i : Nat) (inside : i < count) : state.memory (start + BitVec.ofNat 64 i) =
      source.memory (start + BitVec.ofNat 64 i) := represents.memory _ (readable i inside)
  have bytes := List.map_congr_left fun i member => same i (List.mem_range.mp member)
  rw [State.load, bytes, Source.load]

theorem fetched_eq {width : Width} {start : BitVec 64}
    (readable : Source.Readable layout start (width.bits / 8)) :
    fetched width state start = source.fetch width start := by
  rw [fetched, represents.load_eq readable, Source.fetch]

theorem move {after : State} {pc : Nat} (rip : after.rip = layout.address pc)
    (memory : after.memory = state.memory)
    (registers : ∀ other, other ≠ rax → after.registers other = state.registers other) :
    RepresentsCore layout caller { source with pc := pc, result := none } after := by
  obtain ⟨returns, outside, code⟩ := represents.survives fun address _ => congrFun memory address
  refine ⟨rip, ?_, ?_, ?_, represents.room, returns, outside, code, ?_⟩
  · intro index
    rw [registers _ (index.number_ne_rax layout.abi)]
    exact represents.registers index
  · intro known isValue
    cases isValue
  · rw [registers rsp (by decide)]
    exact represents.stack
  · intro other spares
    exact (registers other (spares.2 .re)).trans (represents.spared other spares)

theorem enter {after : State} {statement : Statement}
    (found : layout.program[source.pc]? = some statement) {address : BitVec 64} {next : Source}
    (calls : Calls (statement.toCall layout.abi).code address state after)
    (entered : source.enter layout address = some next) : RepresentsCore layout caller next after := by
  obtain ⟨target, isTarget, room⟩ := Option.bind_eq_some_iff.mp entered
  split at room
  next below =>
    cases room
    have slot : freeSlot state = layout.slot source.returns.length := represents.freeSlot_eq
    have back : state.rip + BitVec.ofNat 64 (statement.toCall layout.abi).code.length =
        layout.address (source.pc + 1) := by
      rw [represents.rip, Layout.address_next found]
    have stored := calls.memory
    rw [back] at stored
    obtain ⟨returns, outside, code⟩ := represents.survives fun address elsewhere => by
      rw [stored, State.store_outside _ _ _ (by simpa using elsewhere)]
    refine ⟨calls.rip.trans (Layout.target_address isTarget).symm, ?_, ?_, ?_, below, ?_, outside,
      code, ?_⟩
    · intro index
      rw [calls.registers, Function.update_of_ne (index.number_ne_rsp layout.abi)]
      exact represents.registers index
    · intro known isValue
      rw [calls.registers, Function.update_of_ne (by decide)]
      exact represents.result known isValue
    · rw [calls.registers, Function.update_self, slot]
      rfl
    · intro n pc pushed
      rw [List.reverse_cons, List.getElem?_append] at pushed
      split at pushed
      next => exact returns n pc pushed
      next last =>
        have isLast : n = source.returns.length ∧ source.pc + 1 = pc := by
          rw [List.length_reverse] at last pushed
          have inside := (List.getElem?_eq_some_iff.mp pushed).1
          have zero : n - source.returns.length = 0 := by simpa using inside
          rw [zero] at pushed
          exact ⟨by omega, Option.some.inj pushed⟩
        obtain ⟨rfl, rfl⟩ := isLast
        rw [stored, slot]
        exact State.store_loaded _ _ _ (by simp)
    · intro other spares
      rw [calls.registers, Function.update_of_ne spares.1]
      exact represents.spared other spares
  next => cases room

theorem leave {pc : Nat} {rest : List Nat} (pushed : source.returns = pc :: rest) {after : State}
    (rip : after.rip = (state.load 8 (state.registers rsp)).setWidth 64)
    (registers : after.registers = Function.update state.registers rsp (state.registers rsp + 8))
    (memory : after.memory = state.memory) :
    RepresentsCore layout caller { source with pc := pc, returns := rest } after := by
  obtain ⟨returns, outside, code⟩ := represents.survives fun address _ => congrFun memory address
  have top : state.registers rsp = layout.slot rest.length := by
    rw [represents.stack, Source.stackPointer, pushed, List.length_cons, Layout.slot]
  have room := represents.room
  rw [pushed, List.length_cons] at room
  have back := represents.returns rest.length pc (by simp [pushed])
  have loaded := State.load_loaded 8 (layout.address pc) back
  refine ⟨?_, ?_, ?_, ?_, by exact Nat.le_of_succ_le room, ?_, outside, code, ?_⟩
  · rw [rip, top, loaded]
    exact BitVec.setWidth_eq _
  · intro index
    rw [registers, Function.update_of_ne (index.number_ne_rsp layout.abi)]
    exact represents.registers index
  · intro known isValue
    rw [registers, Function.update_of_ne (by decide)]
    exact represents.result known isValue
  · rw [registers, Function.update_self, top, Layout.slot, Layout.slot_above]
    rfl
  · intro n other earlier
    apply returns n other
    rw [pushed, List.reverse_cons, List.getElem?_append_left, earlier]
    exact (List.getElem?_eq_some_iff.mp earlier).1
  · intro other spares
    rw [registers, Function.update_of_ne spares.1]
    exact represents.spared other spares

theorem place {after : State} {start : BitVec 64} {bytes : List Byte}
    {result : Option (BitVec 64)} (writable : Source.Writable layout start bytes.length)
    (rip : after.rip = layout.address (source.pc + 1))
    (registers : ∀ other, other ≠ rax → after.registers other = state.registers other)
    (known : ∀ value ∈ result, after.registers rax = value)
    (memory : after.memory = (state.store start bytes).memory) :
    RepresentsCore layout caller { source.place start bytes with result := result } after := by
  have apart (address : BitVec 64) (covered : Covers start bytes.length address) :=
    Source.writable_covers writable covered
  have elsewhere (address : BitVec 64) (outside : ¬ Covers start bytes.length address) :
      after.memory address = state.memory address := by
    rw [memory, State.store_outside _ _ _ outside]
  refine ⟨rip, ?_, known, ?_, represents.room, ?_, ?_, ?_, ?_⟩
  · intro index
    rw [registers _ (index.number_ne_rax layout.abi)]
    exact represents.registers index
  · rw [registers rsp (by decide)]
    exact represents.stack
  · intro n pc pushed
    have below : n < source.returns.length := by
      have inside := (List.getElem?_eq_some_iff.mp pushed).1
      rwa [List.length_reverse] at inside
    refine (represents.returns n pc pushed).congr (by simp) fun address covered => ?_
    rw [ByteOrder.split_length] at covered
    have onStack := Layout.slot_onStack (Nat.le_of_lt (below.trans_le represents.room)) covered
    exact elsewhere address fun inside => (apart address inside).1 onStack
  · intro address outside
    have same := represents.memory address outside
    rw [memory]
    exact congrArg (fun byte => (_ : Option Byte).getD byte) same
  · refine represents.code.congr layout.codeFits fun address covered => ?_
    exact elsewhere address fun inside => (apart address inside).2.2 covered
  · intro other spares
    exact (registers other (spares.2 .re)).trans (represents.spared other spares)

end RepresentsCore

section Simulation

variable {layout : Layout} {unit : FloatUnit} {caller : Register → BitVec 64}
  {source next : Source} {state : State} (represents : RepresentsCore layout caller source state)

include represents

theorem operate_simulated {op : Operation} {d : JitTarget} {s t : JitInteger}
    (found : layout.program[source.pc]? = some (.operate op d s t))
    (faithful : op.Faithful (d.number layout.abi) (s.number? layout.abi) (t.number? layout.abi))
    (performed : source.perform layout unit (.operate op d s t) = some next) :
    ∃ after, Steps state after ∧ RepresentsCore layout caller next after := by
  obtain ⟨left, isLeft, performed⟩ := Option.bind_eq_some_iff.mp performed
  obtain ⟨right, isRight, performed⟩ := Option.bind_eq_some_iff.mp performed
  cases performed
  have writes := operation_writes op (d.number layout.abi) _ _ faithful
  obtain ⟨after, through, destination, others⟩ :=
    writes.runsThrough (operation_direct op _ _ _) (represents.loaded found)
  have operands : op.value (operandValue state.registers (s.number? layout.abi))
      (operandValue state.registers (t.number? layout.abi)) = op.value left right := by
    rw [← represents.value isLeft, ← represents.value isRight]
    rfl
  exact ⟨after, through.steps, represents.write found through.toFallsThrough (destination.trans operands) others⟩

theorem shift_simulated {op : ShiftOperation} {d s t : JitTarget}
    (found : layout.program[source.pc]? = some (.shift op d s t))
    (faithful : d.number layout.abi ≠ rcx ∧ (d = t → s = t))
    (performed : source.perform layout unit (.shift op d s t) = some next) :
    ∃ after, Steps state after ∧ RepresentsCore layout caller next after := by
  obtain ⟨operand, isOperand, performed⟩ := Option.bind_eq_some_iff.mp performed
  obtain ⟨count, isCount, performed⟩ := Option.bind_eq_some_iff.mp performed
  cases performed
  obtain ⟨after, through, registers⟩ := shift_runsThrough (d.number layout.abi) (s.number layout.abi)
    (t.number layout.abi) (d.number_ne_rsp layout.abi) op (t.number_ne_rsp layout.abi)
    (represents.codePlaced found)
  have emitted : op.emitted (d.number layout.abi) (t.number layout.abi)
      (state.registers (s.number layout.abi)) (state.registers (t.number layout.abi)) =
      op.value operand count.toNat := by
    rw [represents.targetValue isOperand, represents.targetValue isCount, ShiftOperation.emitted,
      if_neg faithful.1]
    by_cases aliased : d.number layout.abi = t.number layout.abi
    · have same := faithful.2 ((JitTarget.number_inj layout.abi d t).mp aliased)
      have equal : operand = count := by
        rw [same, isCount] at isOperand
        exact (Option.some.inj isOperand).symm
      rw [if_pos aliased, equal]
    · rw [if_neg aliased]
  refine ⟨after, through.steps, represents.write found through.toFallsThrough ?_ ?_⟩
  · rw [registers, Function.update_self, emitted]
  · intro other notDestination _
    rw [registers, Function.update_of_ne notDestination]

theorem divide_simulated {d s t : JitTarget}
    (found : layout.program[source.pc]? = some (.divide d s t))
    (faithful : d.number layout.abi ≠ rdx ∧ t.number layout.abi ≠ rdx ∧ t ≠ .re)
    (performed : source.perform layout unit (.divide d s t) = some next) :
    ∃ after, Steps state after ∧ RepresentsCore layout caller next after := by
  obtain ⟨left, isLeft, performed⟩ := Option.bind_eq_some_iff.mp performed
  obtain ⟨right, isRight, performed⟩ := Option.bind_eq_some_iff.mp performed
  obtain ⟨notSaved, notUpper, notResult⟩ := faithful
  split at performed
  next inRange =>
    cases performed
    obtain ⟨nonzero, positive, clear⟩ := inRange
    have dividendIs := represents.targetValue isLeft
    have divisorIs := represents.targetValue isRight
    have notSmallest : ¬ (left = BitVec.intMin 64 ∧ right = -1#64) := by
      rintro ⟨rfl, -⟩
      exact absurd positive (by decide)
    have divides := divides_of_small left right nonzero notSmallest positive clear
    have read : divisorRead (t.number layout.abi) state.registers left = right :=
      (if_neg notUpper).trans divisorIs
    have quotient := (quotient_eq_iff left right nonzero notSmallest divides).mpr ⟨positive, clear⟩
    have notRax : t.number layout.abi ≠ rax := fun same =>
      notResult ((JitTarget.number_inj layout.abi t .re).mp same)
    obtain ⟨after, through, destination, others⟩ := div_runsThrough (d.number layout.abi)
      (s.number layout.abi) (t.number layout.abi) (d.number_ne_rsp layout.abi)
      (s.number_ne_rsp layout.abi) ⟨t.number_ne_rsp layout.abi, notRax⟩
      (by rw [dividendIs, read]; exact divides) (represents.codePlaced found)
    rw [if_neg notSaved, dividendIs, read, quotient] at destination
    exact ⟨after, through.steps, represents.write found through.toFallsThrough destination others⟩
  next => cases performed

theorem constant_simulated {d : JitTarget} {i : BitVec 32}
    (found : layout.program[source.pc]? = some (.constant d i)) :
    ∃ after, Steps state after ∧ RepresentsCore layout caller (source.write (i.signExtend 64) d) after := by
  have uses : (JitCall.addi (d.int layout.abi) jitR0 i).uses = [movi32 (d.int layout.abi) i] :=
    (recorded_uses _).trans ((if_pos (intOfRegister_ne_jitR0 _)).trans (if_pos rfl))
  have writes : Writes (JitCall.addi (d.int layout.abi) jitR0 i).uses (d.number layout.abi)
      (fun _ => i.signExtend 64) := by
    rw [uses]
    exact Writes.of_update (movi32_transforms (d.number layout.abi) i)
  have direct : AllDirect (JitCall.addi (d.int layout.abi) jitR0 i).uses := by
    rw [uses]
    simp
  obtain ⟨after, through, destination, others⟩ :=
    writes.runsThrough direct (represents.loaded found)
  exact ⟨after, through.steps, represents.write found through.toFallsThrough destination others⟩

theorem load_simulated {width : Width} {d : JitTarget} {b : JitBase} {o : BitVec 32}
    (found : layout.program[source.pc]? = some (.load width d b o))
    (faithful : b.number layout.abi ≠ r12)
    (performed : source.perform layout unit (.load width d b o) = some next) :
    ∃ after, Steps state after ∧ RepresentsCore layout caller next after := by
  simp only [Source.perform] at performed
  split at performed
  next outside =>
    cases performed
    obtain ⟨after, through, destination, others⟩ := load_runsThrough width (d.number layout.abi)
      (b.number layout.abi) o faithful (represents.loaded found)
    rw [represents.baseValue b, represents.fetched_eq outside] at destination
    exact ⟨after, through.steps, represents.write found through.toFallsThrough destination others⟩
  next => cases performed

theorem store_simulated {width : Width} {b v : JitRegister}
    (found : layout.program[source.pc]? = some (.store width b v))
    (faithful : b.number layout.abi ≠ r12)
    (performed : source.perform layout unit (.store width b v) = some next) :
    ∃ after, Steps state after ∧ RepresentsCore layout caller next after := by
  simp only [Source.perform] at performed
  split at performed
  next apart =>
    cases performed
    have plainBase : ¬ (b.number layout.abi = rsp ∨ b.number layout.abi = r12) := by
      rintro (onStack | twelfth)
      · exact b.number_ne_rsp layout.abi onStack
      · exact faithful twelfth
    obtain ⟨after, steps, rip, registers, memory⟩ := store_steps width (b.number layout.abi)
      (v.number layout.abi) plainBase (v.number_ne_rsp layout.abi) (represents.loaded found)
    rw [represents.registers b, represents.registers v] at memory
    rw [represents.rip] at rip
    have behind := rip.trans (Layout.address_next found).symm
    have length : (ByteOrder.split (width.bits / 8)
        ((source.registers v).setWidth width.bits)).length = width.bits / 8 := by simp
    exact ⟨after, steps, represents.place (length.symm ▸ apart) behind
      (fun other _ => congrFun registers other)
      (fun value known => (congrFun registers rax).trans (represents.result value known)) memory⟩
  next => cases performed

section Jumps

variable {o : BitVec 32} {taken : Prop} [Decidable taken] {statement : Statement}
  (found : layout.program[source.pc]? = some statement)

include found

theorem decideJump_simulated
    (runs : ∃ after, RunsAway (statement.toCall layout.abi).code o taken state after)
    (performed : source.decideJump layout (decide taken) o = some next) :
    ∃ after, Steps state after ∧ RepresentsCore layout caller next after := by
  obtain ⟨after, runs⟩ := runs
  have rip := runs.rip
  rw [represents.rip, ← Layout.address_next found] at rip
  by_cases jumps : taken
  · simp only [Source.decideJump, jumps, decide_true, if_true] at performed
    obtain ⟨target, isTarget, performed⟩ := Option.bind_eq_some_iff.mp performed
    cases performed
    rw [if_pos jumps] at rip
    exact ⟨after, runs.steps, represents.move (rip.trans (Layout.target_address isTarget).symm)
      runs.memory runs.registers⟩
  · simp only [Source.decideJump, jumps, decide_false, Bool.false_eq_true, if_false] at performed
    cases performed
    rw [if_neg jumps] at rip
    have falls := rip.trans (BitVec.add_zero _)
    exact ⟨after, runs.steps, represents.move falls runs.memory runs.registers⟩

end Jumps

theorem enter_simulated {statement : Statement}
    (found : layout.program[source.pc]? = some statement) {address : BitVec 64}
    (calls : ∃ after, Calls (statement.toCall layout.abi).code address state after)
    (entered : source.enter layout address = some next) :
    ∃ after, Steps state after ∧ RepresentsCore layout caller next after := by
  obtain ⟨after, calls⟩ := calls
  exact ⟨after, calls.steps, represents.enter found calls entered⟩

theorem return_simulated (found : layout.program[source.pc]? = some .return)
    (performed : source.perform layout unit .return = some next) :
    ∃ after, Steps state after ∧ RepresentsCore layout caller next after := by
  simp only [Source.perform] at performed
  split at performed
  next => cases performed
  next pc rest pushed =>
    cases performed
    obtain ⟨after, steps, rip, registers, memory⟩ := return_steps (represents.loaded found)
    exact ⟨after, steps, represents.leave pushed rip registers memory⟩

theorem core_simulated {statement : Statement}
    (found : layout.program[source.pc]? = some statement)
    (integer : ∀ float, statement ≠ .float float)
    (performed : source.perform layout unit statement = some next) :
    ∃ after, Steps state after ∧ RepresentsCore layout caller next after := by
  have faithful := layout.faithful statement (List.mem_of_getElem? found)
  cases statement with
  | operate op d s t => exact operate_simulated represents found faithful performed
  | shift op d s t => exact shift_simulated represents found faithful performed
  | divide d s t => exact divide_simulated represents found faithful performed
  | constant d i =>
    cases performed
    exact constant_simulated represents found
  | load width d b o => exact load_simulated represents found faithful performed
  | store width b v => exact store_simulated represents found faithful performed
  | jump o =>
    have jumps := jump_runsAway o faithful (represents.loaded found)
    exact decideJump_simulated represents found jumps performed
  | branch s t o =>
    obtain ⟨left, isLeft, performed⟩ := Option.bind_eq_some_iff.mp performed
    obtain ⟨right, isRight, performed⟩ := Option.bind_eq_some_iff.mp performed
    have branches := branch_runsAway layout.abi s t o faithful (represents.loaded found)
    rw [represents.value isLeft, represents.value isRight] at branches
    exact decideJump_simulated represents found branches performed
  | nbranch s t o =>
    obtain ⟨left, isLeft, performed⟩ := Option.bind_eq_some_iff.mp performed
    obtain ⟨right, isRight, performed⟩ := Option.bind_eq_some_iff.mp performed
    have branches := nbranch_runsAway layout.abi s t o faithful (represents.loaded found)
    rw [represents.value isLeft, represents.value isRight] at branches
    exact decideJump_simulated represents found branches performed
  | call o =>
    have calls := call_calls o faithful (represents.loaded found)
    have behind := Layout.address_next found
    rw [represents.rip] at calls
    simp only [Statement.toCall] at behind
    rw [← behind] at calls
    exact enter_simulated represents found calls performed
  | callex s =>
    obtain ⟨address, isAddress, performed⟩ := Option.bind_eq_some_iff.mp performed
    have calls := callex_calls (s.number layout.abi) (represents.loaded found)
    rw [represents.targetValue isAddress] at calls
    exact enter_simulated represents found calls performed
  | «return» => exact return_simulated represents found performed
  | float statement => exact (integer statement rfl).elim

end Simulation

end Jit
