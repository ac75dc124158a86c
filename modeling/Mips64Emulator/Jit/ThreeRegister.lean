import Mips64Emulator.Jit.Emitter
import Mips64Emulator.Jit.RegisterEffects

set_option autoImplicit false

namespace Jit

open X86 EncoderUse

def JitRegister.int (abi : Abi) (register : JitRegister) : BitVec 32 :=
  intOfRegister (register.number abi)

theorem intOfRegister_ne_jitR0 (index : Register) : intOfRegister index ≠ jitR0 := by
  revert index
  decide

section TwoAddress

variable (d s t : Register)

theorem move_transforms :
    Transforms
      (instructions (onlyIf (intOfRegister s ≠ intOfRegister d)
        (mov (intOfRegister d) (intOfRegister s))))
      (fun registers => Function.update registers d (registers s)) := by
  by_cases same : s = d
  · subst same
    have unchanged : (fun registers : Register → BitVec 64 =>
        Function.update registers s (registers s)) = id :=
      funext fun registers => Function.update_eq_self s registers
    rw [unchanged, onlyIf, if_neg (not_not.mpr rfl)]
    exact Transforms.nil
  · simpa [onlyIf, intOfRegister_inj, same] using mov_transforms d s

-- The second source is read behind the move.
theorem twoAddress_transforms {use : BitVec 32 → BitVec 32 → EncoderUse}
    {value : BitVec 64 → BitVec 64 → BitVec 64}
    (computes : Transforms (instructions [use (intOfRegister d) (intOfRegister t)])
      (fun registers => Function.update registers d (value (registers d) (registers t)))) :
    Transforms
      (instructions (onlyIf (intOfRegister s ≠ intOfRegister d)
        (mov (intOfRegister d) (intOfRegister s)) ++ [use (intOfRegister d) (intOfRegister t)]))
      (fun registers => Function.update registers d
        (value (registers s) (if d = t then registers s else registers t))) := by
  have row := (move_transforms d s).append computes
  rw [instructions_append]
  simpa [Function.update_apply, eq_comm] using row

end TwoAddress

inductive Operation where
  | add
  | sub
  | mul
  | and
  | or
  | xor
  | less
  deriving DecidableEq, Repr

namespace Operation

def call (d s t : BitVec 32) : Operation → JitCall
  | add => .add d s t
  | sub => .sub d s t
  | mul => .mul d s t
  | and => .and d s t
  | or => .or d s t
  | xor => .xor d s t
  | less => .less d s t

def value (left right : BitVec 64) : Operation → BitVec 64
  | add => left + right
  | sub => left - right
  | mul => left * right
  | and => left &&& right
  | or => left ||| right
  | xor => left ^^^ right
  | less => if left.slt right then 1 else 0

-- Where the second source may be read as the first one.
def SecondAsFirst (left right : BitVec 64) : Operation → Prop
  | add | sub | xor => left = right
  | mul => left * left = left * right
  | and => left &&& right = left
  | or => left ||| right = left
  | less => True

def emitted (d s t : Register) (left right : BitVec 64) (op : Operation) : BitVec 64 :=
  match op with
  | less => if s = t then 0 else less.value left right
  | and | or | xor =>
    if s = t then left else op.value left (if d = t then left else right)
  | add | sub | mul => op.value left (if d = t then left else right)

end Operation

def Writes (uses : List EncoderUse) (d : Register)
    (value : (Register → BitVec 64) → BitVec 64) : Prop :=
  ∃ transformed : (Register → BitVec 64) → Register → BitVec 64,
    Transforms (instructions uses) transformed ∧
      (∀ registers, transformed registers d = value registers) ∧
      ∀ registers other, other ≠ d → other ≠ rax →
        transformed registers other = registers other

theorem Writes.of_update {uses : List EncoderUse} {d : Register}
    {value : (Register → BitVec 64) → BitVec 64}
    (transforms : Transforms (instructions uses)
      (fun registers => Function.update registers d (value registers))) :
    Writes uses d value :=
  ⟨_, transforms, fun _ => Function.update_self _ _ _,
    fun _ _ notDestination _ => Function.update_of_ne notDestination _ _⟩

theorem Writes.of_updates {uses : List EncoderUse} {d : Register}
    {value : (Register → BitVec 64) → BitVec 64}
    (transforms : Transforms (instructions uses) (fun registers =>
      Function.update (Function.update registers rax (value registers)) d (value registers))) :
    Writes uses d value := by
  refine ⟨_, transforms, fun _ => Function.update_self _ _ _, ?_⟩
  intro registers other notDestination notRax
  rw [Function.update_of_ne notDestination, Function.update_of_ne notRax]

theorem Writes.of_recorded {call : JitCall} {uses : List EncoderUse} {d : Register}
    {value : (Register → BitVec 64) → BitVec 64} (actions : call.actions = recorded uses)
    (writes : Writes uses d value) : Writes call.uses d value := by
  rw [JitCall.uses, actions, recorded_uses]
  exact writes

theorem addLike_writes {use : BitVec 32 → BitVec 32 → EncoderUse}
    {value : BitVec 64 → BitVec 64 → BitVec 64} (d s t : Register)
    (computes : Transforms (instructions [use (intOfRegister d) (intOfRegister t)])
      (fun registers => Function.update registers d (value (registers d) (registers t)))) :
    Writes (addLike use (intOfRegister d) (intOfRegister s) (intOfRegister t)) d
      (fun registers => value (registers s) (if d = t then registers s else registers t)) := by
  have row := twoAddress_transforms d s t computes
  simpa [addLike, intOfRegister_ne_jitR0] using Writes.of_update row

theorem logicalLike_writes {use : BitVec 32 → BitVec 32 → EncoderUse}
    {value : BitVec 64 → BitVec 64 → BitVec 64} (d s t : Register)
    (computes : Transforms (instructions [use (intOfRegister d) (intOfRegister t)])
      (fun registers => Function.update registers d (value (registers d) (registers t)))) :
    Writes (logicalLike use (intOfRegister d) (intOfRegister s) (intOfRegister t)) d
      (fun registers => if s = t then registers s
        else value (registers s) (if d = t then registers s else registers t)) := by
  by_cases same : s = t
  · have row := move_transforms d s
    simpa [logicalLike, intOfRegister_ne_jitR0, same] using Writes.of_update (same ▸ row)
  · have row := twoAddress_transforms d s t computes
    simpa [logicalLike, intOfRegister_ne_jitR0, intOfRegister_inj, same] using Writes.of_update row

theorem mul_writes (d s t : Register) :
    Writes (JitCall.mul (intOfRegister d) (intOfRegister s) (intOfRegister t)).uses d
      (fun registers => registers s * (if d = t then registers s else registers t)) := by
  have row := twoAddress_transforms d s t (imul_transforms d t)
  have emits : (JitCall.mul (intOfRegister d) (intOfRegister s) (intOfRegister t)).uses =
      onlyIf (intOfRegister s ≠ intOfRegister d) (mov (intOfRegister d) (intOfRegister s)) ++
        [imul (intOfRegister d) (intOfRegister t)] := by
    simp [JitCall.uses, JitCall.actions, jitMul, intOfRegister_ne_jitR0]
  rw [emits]
  exact Writes.of_update row

theorem less_writes (d s t : Register) :
    Writes (JitCall.less (intOfRegister d) (intOfRegister s) (intOfRegister t)).uses d
      (fun registers => if s = t then 0
        else Operation.less.value (registers s) (registers t)) := by
  by_cases same : s = t
  · have zero := movi32_transforms d 0
    simpa [JitCall.uses, JitCall.actions, jitLess, intOfRegister_ne_jitR0, same] using
      Writes.of_update zero
  · have row := (cmp64_transforms 0x9C s rfl rfl Alu.cmp_less t).append (mov_transforms d rax)
    have emits : (JitCall.less (intOfRegister d) (intOfRegister s) (intOfRegister t)).uses =
        [cmp64 (intOfRegister s) (intOfRegister t), op0 0x9C 0 0, movzx 0 0] ++
          [mov (intOfRegister d) (intOfRegister rax)] := by
      simp [JitCall.uses, JitCall.actions, jitLess, comparison, intOfRegister_ne_jitR0,
        intOfRegister_inj, same]
      exact ⟨rfl, rfl⟩
    rw [← instructions_append, ← emits] at row
    simp only [Function.update_self] at row
    simp only [same, if_false]
    exact Writes.of_updates row

theorem call_writes (op : Operation) (d s t : Register) :
    Writes (op.call (intOfRegister d) (intOfRegister s) (intOfRegister t)).uses d
      (fun registers => op.emitted d s t (registers s) (registers t)) := by
  cases op with
  | add =>
    have row := addLike_writes d s t (add_transforms d t)
    exact Writes.of_recorded rfl row
  | sub =>
    have row := addLike_writes d s t (sub_transforms d t)
    exact Writes.of_recorded rfl row
  | mul => exact mul_writes d s t
  | and =>
    have row := logicalLike_writes d s t (and_transforms d t)
    exact Writes.of_recorded rfl row
  | or =>
    have row := logicalLike_writes d s t (or_transforms d t)
    exact Writes.of_recorded rfl row
  | xor =>
    have row := logicalLike_writes d s t (xor_transforms d t)
    exact Writes.of_recorded rfl row
  | less => exact less_writes d s t

theorem Writes.run_correct {uses : List EncoderUse} {d : Register}
    {value : (Register → BitVec 64) → BitVec 64} (writes : Writes uses d value) (before : State) :
    ∃ after, run (usesBytes uses) before = some after ∧
      after.rip = before.rip + BitVec.ofNat 64 (usesBytes uses).length ∧
      after.registers d = value before.registers ∧
      ∀ other, other ≠ d → other ≠ rax → after.registers other = before.registers other := by
  obtain ⟨transformed, transforms, destination, others⟩ := writes
  obtain ⟨after, ran, registers, -, rip⟩ := transforms.run_correct before
  rw [← usesBytes_correct] at ran rip
  refine ⟨after, ran, rip, ?_⟩
  rw [registers]
  exact ⟨destination before.registers, others before.registers⟩

theorem value_second_iff (op : Operation) (left right : BitVec 64) (notLess : op ≠ .less) :
    op.value left left = op.value left right ↔ op.SecondAsFirst left right := by
  cases op with
  | add => exact BitVec.add_right_inj left
  | sub =>
    change left - left = left - right ↔ left = right
    rw [BitVec.sub_self, eq_comm, BitVec.sub_eq_iff_eq_add, BitVec.zero_add]
  | mul => exact Iff.rfl
  | and => simp only [Operation.value, Operation.SecondAsFirst, BitVec.and_self, eq_comm]
  | or => simp only [Operation.value, Operation.SecondAsFirst, BitVec.or_self, eq_comm]
  | xor => exact BitVec.xor_right_inj left
  | less => exact absurd rfl notLess

theorem emitted_same (op : Operation) (d s : Register) (source : BitVec 64) :
    op.emitted d s s source source = op.value source source ↔ (op = .xor → source = 0) := by
  cases op with
  | less =>
    have irreflexive : source.slt source = false := by simp [BitVec.slt_eq_decide]
    simp [Operation.emitted, Operation.value, irreflexive]
  | _ => simp [Operation.emitted, Operation.value]

theorem emitted_distinct (op : Operation) (d s t : Register) (left right : BitVec 64)
    (distinct : s ≠ t) :
    op.emitted d s t left right = op.value left right ↔
      (d = t → op.SecondAsFirst left right) := by
  by_cases aliased : d = t
  · by_cases less : op = .less
    · subst less
      simp [Operation.emitted, distinct, Operation.SecondAsFirst]
    · have second := value_second_iff op left right less
      cases op <;> simp_all [Operation.emitted]
  · cases op <;> simp [Operation.emitted, distinct, aliased]

def Computes (abi : Abi) (op : Operation) (d s t : JitRegister) (before : State) : Prop :=
  let code := (op.call (d.int abi) (s.int abi) (t.int abi)).code
  ∃ after, run code before = some after ∧
    after.rip = before.rip + BitVec.ofNat 64 code.length ∧
    after.registers (d.number abi) =
      op.value (before.registers (s.number abi)) (before.registers (t.number abi)) ∧
    ∀ other, other ≠ d.number abi → other ≠ rax →
      after.registers other = before.registers other

theorem operation_computes_iff (abi : Abi) (op : Operation) (d s t : JitRegister)
    (before : State) :
    Computes abi op d s t before ↔
      (op = .xor → s = t → before.registers (s.number abi) = 0) ∧
        (d = t → s ≠ t → op.SecondAsFirst (before.registers (s.number abi))
          (before.registers (t.number abi))) := by
  have writes := call_writes op (d.number abi) (s.number abi) (t.number abi)
  obtain ⟨after, ran, rip, destination, others⟩ := writes.run_correct before
  have computes : Computes abi op d s t before ↔
      op.emitted (d.number abi) (s.number abi) (t.number abi) (before.registers (s.number abi))
        (before.registers (t.number abi)) =
      op.value (before.registers (s.number abi)) (before.registers (t.number abi)) := by
    rw [← destination]
    constructor
    · rintro ⟨other, ran', -, value, -⟩
      obtain rfl : other = after := Option.some.inj (ran'.symm.trans ran)
      exact value
    · intro value
      exact ⟨after, ran, rip, value, others⟩
  rw [computes]
  by_cases same : s = t
  · subst same
    simp [emitted_same]
  · have distinct : s.number abi ≠ t.number abi := mt (JitRegister.number_inj abi s t).mp same
    simp [emitted_distinct, distinct, same, JitRegister.number_inj]

theorem sub_overwrites_second :
    ¬ ∀ (abi : Abi) (op : Operation) (d s t : JitRegister) (before : State),
      Computes abi op d s t before := by
  intro computes
  let before : State :=
    { registers := fun index => if index = 8 then 1 else 0, flags := Flags.undefined
      memory := fun _ => 0, rip := 0 }
  obtain ⟨after, ran, -, value, -⟩ := computes .systemV .sub .r1 .r2 .r1 before
  obtain ⟨after', ran', -, destination, -⟩ := (call_writes .sub 8 9 8).run_correct before
  obtain rfl : after = after' := Option.some.inj (ran.symm.trans ran')
  have differ := destination.symm.trans value
  revert differ
  decide

end Jit
