import Mips64Emulator.Jit.MemoryForms
import Mips64Emulator.Jit.ThreeRegister
import Mips64Emulator.Shared.BitFields

set_option autoImplicit false

namespace Jit

open X86 EncoderUse

inductive JitBase where
  | sp
  | register (index : JitRegister)
  deriving DecidableEq, Repr

namespace JitBase

def number (abi : Abi) : JitBase → Register
  | sp => rsp
  | register index => index.number abi

def int (abi : Abi) (base : JitBase) : BitVec 32 := intOfRegister (base.number abi)

end JitBase

def storeCall (d o s : BitVec 32) : Width → JitCall
  | .dword => .store32 d o s
  | .qword => .store64 d o s

def loadCall (d s o : BitVec 32) : Width → JitCall
  | .dword => .load32 d s o
  | .qword => .load64 d s o

def placed (width : Width) (before : State) (start value : BitVec 64) : BitVec 64 → Byte :=
  (before.store start (ByteOrder.split (width.bits / 8) (value.setWidth width.bits))).memory

/-- The store writes the low bytes of `v` at `b + o` and nothing else, with every register but `rax`
as before. The load behind it fetches them into `d` and leaves memory alone. -/
def RoundTrips (abi : Abi) (width : Width) (d v : JitRegister) (b : JitBase) (o : BitVec 32)
    (before : State) : Prop :=
  let start := before.registers (b.number abi) + o.signExtend 64
  let value := before.registers (v.number abi)
  ∃ stored, run (storeCall (b.int abi) o (v.int abi) width).code before = some stored ∧
    stored.memory = placed width before start value ∧
    (∀ other, other ≠ rax → stored.registers other = before.registers other) ∧
    ∃ loaded, run (loadCall (d.int abi) (b.int abi) o width).code stored = some loaded ∧
      loaded.registers (d.number abi) = (value.setWidth width.bits).setWidth 64 ∧
      loaded.memory = stored.memory

def isWide : Width → Bool
  | .dword => false
  | .qword => true

def storeForm (width : Width) (base : Register) (register off : BitVec 32) : Encoded :=
  memoryForm none false 0x89 (intOfRegister base) register off (isWide width)

def loadForm (width : Width) (base register : Register) (off : BitVec 32) : Encoded :=
  memoryForm none false 0x8B (intOfRegister base) (intOfRegister register) off (isWide width)

theorem accessLike_direct (access : BitVec 32 → BitVec 32 → BitVec 32 → EncoderUse)
    (d s : Register) (o : BitVec 32) (notStack : s ≠ rsp) :
    accessLike access (intOfRegister d) (intOfRegister s) o =
      [access (intOfRegister d) (intOfRegister s) o] := by
  have direct : intOfRegister s ≠ jitSp := (intOfRegister_inj s rsp).not.mpr notStack
  rw [accessLike, if_pos ⟨intOfRegister_ne_jitR0 d, intOfRegister_ne_jitR0 s⟩, throughStackPointer,
    if_neg direct]

theorem accessLike_instructions (call : JitCall)
    (access : BitVec 32 → BitVec 32 → BitVec 32 → EncoderUse) (d s : Register) (o : BitVec 32)
    (actions : call.actions =
      recorded (accessLike access (intOfRegister d) (intOfRegister s) o)) (notStack : s ≠ rsp) :
    instructions call.uses = (access (intOfRegister d) (intOfRegister s) o).encoded := by
  rw [JitCall.uses, actions, recorded_uses, accessLike_direct access d s o notStack]
  exact List.flatMap_singleton ..

section Calls

variable (width : Width) (d v b : Register) (o : BitVec 32)

theorem store_instructions (notStack : v ≠ rsp) :
    instructions (storeCall (intOfRegister b) o (intOfRegister v) width).uses =
      [storeForm width b o (intOfRegister v)] := by
  cases width with
  | dword => exact accessLike_instructions (.store32 _ _ _) store32 b v o rfl notStack
  | qword => exact accessLike_instructions (.store64 _ _ _) store64 b v o rfl notStack

theorem load_instructions (notStack : b ≠ rsp) :
    instructions (loadCall (intOfRegister d) (intOfRegister b) o width).uses =
      [loadForm width b d o] := by
  cases width with
  | dword => exact accessLike_instructions (.load32 _ _ _) load32 d b o rfl notStack
  | qword => exact accessLike_instructions (.load64 _ _ _) load64 d b o rfl notStack

end Calls

section Forms

variable (width : Width) (base : Register) (off : BitVec 32) (before : State)

theorem address_displaced (state : State) :
    state.address { base := some base, index := none, displacement := off.signExtend 64
                    ripRelative := false } =
      state.registers base + off.signExtend 64 := by
  simp [State.address]

theorem store_executes (register : BitVec 32) :
    (storeForm width base register off).execute before =
      let stored := before.registers
        (registerNumber (BitVec.slt 7#32 register) (register.setWidth 3))
      some { before with
        rip := before.rip + (storeForm width base register off).size
        memory := placed width before (before.registers base + off.signExtend 64) stored } := by
  have size : (storeForm width base register off).width = width := by
    cases width <;> rfl
  have means : (storeForm width base register off).instruction =
      some (.mov width (.memory { base := some base, index := none
                                  displacement := off.signExtend 64, ripRelative := false })
        (.operand (.register
          (registerNumber (BitVec.slt 7#32 register) (register.setWidth 3))))) := by
    change some (Instruction.mov _ _ (.operand (.register _))) = _
    rw [size, storeForm, memoryForm_rmOperand, memoryForm_regOperand]
  simp only [Encoded.execute, means, Option.bind_some, Instruction.execute, State.write,
    State.source, State.read, address_displaced, placed, State.store]

theorem load_executes (register : Register) :
    (loadForm width base register off).execute before =
      let loaded := before.load (width.bits / 8) (before.registers base + off.signExtend 64)
      some ({ before with
        rip := before.rip + (loadForm width base register off).size }.setRegister register
          (loaded.setWidth width.bits)) := by
  have size : (loadForm width base register off).width = width := by
    cases width <;> rfl
  have means : (loadForm width base register off).instruction =
      some (.mov width (.register register)
        (.operand (.memory { base := some base, index := none
                             displacement := off.signExtend 64, ripRelative := false }))) := by
    change some (Instruction.mov _ (.register _) (.operand _)) = _
    rw [size, loadForm, memoryForm_rmOperand, memoryForm_regOperand, registerNumber_intOfRegister]
  simp only [Encoded.execute, means, Option.bind_some, Instruction.execute, State.write,
    State.source, State.read, address_displaced, State.load]

end Forms

-- The register whose number the store takes the displacement for.
def storedRegister (o : BitVec 32) : Register :=
  registerNumber (BitVec.slt 7#32 o) (o.setWidth 3)

section Runs

variable (width : Width) (d v b : Register) (o : BitVec 32) (before : State)

theorem store_unfinished (notStack : v ≠ rsp) (sibBase : b = rsp ∨ b = r12) :
    run (storeCall (intOfRegister b) o (intOfRegister v) width).code before = none := by
  have code : (storeCall (intOfRegister b) o (intOfRegister v) width).code =
      (storeForm width b o (intOfRegister v)).bytes := by
    rw [JitCall.code, usesBytes_correct, store_instructions width v b o notStack,
      List.flatMap_singleton]
  have unfinished : decode (storeForm width b o (intOfRegister v)).bytes = none :=
    memoryForm_unfinished _ o (intOfRegister v) _ (by simp) rfl ((low_bits_four b).mpr sibBase)
  simp only [run, code, sweep_unfinished unfinished Encoded.bytes_ne_nil, bind,
    Option.bind_none]

theorem store_run (notStack : v ≠ rsp) (plainBase : ¬ (b = rsp ∨ b = r12)) :
    ∃ stored, run (storeCall (intOfRegister b) o (intOfRegister v) width).code before = some stored ∧
      stored.registers = before.registers ∧
      stored.memory = placed width before (before.registers b + (intOfRegister v).signExtend 64)
        (before.registers (storedRegister o)) := by
  have wellFormed : (storeForm width b o (intOfRegister v)).WellFormed :=
    memoryForm_wellFormed _ o (intOfRegister v) _ (by simp) rfl (mt (low_bits_four b).mp plainBase)
  have ran : run (storeCall (intOfRegister b) o (intOfRegister v) width).code before =
      (storeForm width b o (intOfRegister v)).execute before :=
    single_run (store_instructions width v b o notStack) wellFormed before
  exact ⟨_, ran.trans (store_executes width b (intOfRegister v) before o), rfl, rfl⟩

theorem load_run (plainBase : ¬ (b = rsp ∨ b = r12)) :
    ∃ loaded, run (loadCall (intOfRegister d) (intOfRegister b) o width).code before = some loaded ∧
      loaded.registers d = ((before.load (width.bits / 8)
        (before.registers b + o.signExtend 64)).setWidth width.bits).setWidth 64 ∧
      loaded.memory = before.memory := by
  have wellFormed : (loadForm width b d o).WellFormed :=
    memoryForm_wellFormed _ (intOfRegister d) o _ (by simp) rfl (mt (low_bits_four b).mp plainBase)
  have ran : run (loadCall (intOfRegister d) (intOfRegister b) o width).code before =
      (loadForm width b d o).execute before :=
    single_run (load_instructions width d b o (mt .inl plainBase)) wellFormed before
  exact ⟨_, ran.trans (load_executes width b o before d), Function.update_self _ _ _, rfl⟩

end Runs

theorem load_placed (width : Width) (before state : State) (start value : BitVec 64)
    (laid : state.memory = placed width before start value) :
    (state.load (width.bits / 8) start).setWidth width.bits = value.setWidth width.bits := by
  have whole : width.bits ≤ 8 * (width.bits / 8) := by
    cases width <;> decide
  rw [State.load_stored before state start _ _ (by cases width <;> decide) laid,
    BitVec.setWidth_setWidth_of_le _ whole, BitVec.setWidth_eq]

def onesOverZeros : State :=
  { registers := fun _ => BitVec.allOnes 64, flags := Flags.undefined, memory := fun _ => 0, rip := 0 }

theorem placed_near (width : Width) (start other : BitVec 64)
    (same : placed width onesOverZeros start (BitVec.allOnes 64) =
      placed width onesOverZeros other (BitVec.allOnes 64)) : (start - other).toNat < 8 := by
  by_contra far
  have here : placed width onesOverZeros start (BitVec.allOnes 64) start = 0xFF := by
    simp only [placed, State.store, BitVec.sub_self]
    cases width <;> rfl
  have beyond : placed width onesOverZeros other (BitVec.allOnes 64) start = 0 := by
    have bytes : width.bits / 8 ≤ 8 := by
      cases width <;> decide
    have outside : (ByteOrder.split (width.bits / 8)
        ((BitVec.allOnes 64).setWidth width.bits))[(start - other).toNat]? = none := by
      apply List.getElem?_eq_none
      rw [ByteOrder.split_length]
      omega
    simp only [placed, State.store, outside, Option.getD_none]
    rfl
  rw [same, beyond] at here
  revert here
  decide

theorem placed_inj (width : Width) (start other : BitVec 64)
    (same : placed width onesOverZeros start (BitVec.allOnes 64) =
      placed width onesOverZeros other (BitVec.allOnes 64)) : start = other := by
  have near := placed_near width start other same
  have back := placed_near width other start same.symm
  bv_omega

section RoundTrip

variable (abi : Abi) (width : Width) (d v : JitRegister) (b : JitBase) (o : BitVec 32)

theorem roundTrips_iff (before : State) :
    RoundTrips abi width d v b o before ↔
      ¬ (b.number abi = rsp ∨ b.number abi = r12) ∧
        placed width before (before.registers (b.number abi) + (v.int abi).signExtend 64)
            (before.registers (storedRegister o)) =
          placed width before (before.registers (b.number abi) + o.signExtend 64)
            (before.registers (v.number abi)) := by
  by_cases sibBase : b.number abi = rsp ∨ b.number abi = r12
  · have unfinished := store_unfinished width (v.number abi) (b.number abi) o before
      (v.number_ne_rsp abi) sibBase
    refine iff_of_false ?_ (fun condition => condition.1 sibBase)
    intro ⟨stored, ran, _⟩
    exact Option.some_ne_none stored (ran.symm.trans unfinished)
  · obtain ⟨stored, ran, registers, memory⟩ :=
      store_run width (v.number abi) (b.number abi) o before (v.number_ne_rsp abi) sibBase
    have written : RoundTrips abi width d v b o before ↔
        stored.memory = placed width before (before.registers (b.number abi) + o.signExtend 64)
          (before.registers (v.number abi)) := by
      constructor
      · intro ⟨other, ran', placedThere, _⟩
        obtain rfl : other = stored := Option.some.inj (ran'.symm.trans ran)
        exact placedThere
      · intro placedThere
        obtain ⟨loaded, fetched, register, kept⟩ :=
          load_run width (d.number abi) (b.number abi) o stored sibBase
        have found := load_placed width before stored _ _ placedThere
        rw [registers, found] at register
        exact ⟨stored, ran, placedThere, fun other _ => congrFun registers other, loaded, fetched,
          register, kept⟩
    rw [written, memory]
    simp only [sibBase, not_false_eq_true, true_and]
    rfl

theorem roundTrips_always_iff :
    (∀ before, RoundTrips abi width d v b o before) ↔
      ¬ (b.number abi = rsp ∨ b.number abi = r12) ∧ o = v.int abi := by
  constructor
  · intro always
    obtain ⟨plainBase, same⟩ := (roundTrips_iff abi width d v b o _).mp (always onesOverZeros)
    have displaced := placed_inj width _ _ same
    have extended := (BitVec.add_right_inj _).mp displaced
    exact ⟨plainBase, ((BitFields.signExtend_inj _ _ (by decide)).mp extended).symm⟩
  · rintro ⟨plainBase, rfl⟩ before
    have swapped : storedRegister (v.int abi) = v.number abi := registerNumber_intOfRegister _
    exact (roundTrips_iff abi width d v b _ before).mpr ⟨plainBase, by rw [swapped]⟩

end RoundTrip

theorem memory_operations_iff (abi : Abi) (width : Width) (d v : JitRegister) (b : JitBase)
    (o : BitVec 32) :
    (∀ before, RoundTrips abi width d v b o before ↔
      ¬ (b.number abi = rsp ∨ b.number abi = r12) ∧
        placed width before (before.registers (b.number abi) + (v.int abi).signExtend 64)
            (before.registers (storedRegister o)) =
          placed width before (before.registers (b.number abi) + o.signExtend 64)
            (before.registers (v.number abi))) ∧
    ((∀ before, RoundTrips abi width d v b o before) ↔
      ¬ (b.number abi = rsp ∨ b.number abi = r12) ∧ o = v.int abi) :=
  ⟨roundTrips_iff abi width d v b o, roundTrips_always_iff abi width d v b o⟩

-- `JIT_STORE64(JIT_R3, 0, JIT_R1)` stores RAX eight bytes behind the base.
theorem store_swaps_its_arguments :
    let before : State :=
      { registers := fun index => if index = r8 then 5 else 0, flags := Flags.undefined
        memory := fun _ => 0, rip := 0 }
    ¬ RoundTrips .systemV .qword .r2 .r1 (.register .r3) 0 before := by
  intro before trips
  have same := congrFun ((roundTrips_iff _ _ _ _ _ _ _).mp trips).2 0
  revert same
  decide

end Jit
