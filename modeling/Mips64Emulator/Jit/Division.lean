import Mips64Emulator.Jit.SavedRegister
import Mips64Emulator.Jit.ThreeRegister

set_option autoImplicit false

namespace Jit

open X86 EncoderUse

def dividendHigh (low : BitVec 64) : BitVec 64 := if low.getLsbD 31 then 0xFFFFFFFF else 0

def dividend (low : BitVec 64) : Int := (dividendHigh low ++ low).toInt

-- No divide fault: the divisor is not zero and the quotient is a 64-bit one.
def DividesWithoutFault (left right : BitVec 64) : Prop :=
  right ≠ 0 ∧ -2 ^ 63 ≤ (dividend left).tdiv right.toInt ∧
    (dividend left).tdiv right.toInt < 2 ^ 63

instance (left right : BitVec 64) : Decidable (DividesWithoutFault left right) :=
  inferInstanceAs (Decidable (_ ∧ _ ∧ _))

theorem dividend_eq (low : BitVec 64) :
    dividend low = (dividendHigh low).toNat * 2 ^ 64 + low.toNat := by
  have positive : (dividendHigh low).msb = false := by
    rw [dividendHigh]
    split <;> rfl
  have bound := low.isLt
  rw [dividend, BitVec.toInt_eq_toNat_of_msb, BitVec.toNat_append,
    ← Nat.shiftLeft_add_eq_or_of_lt bound, Nat.shiftLeft_eq]
  · push_cast
    rfl
  · rw [BitVec.msb_append]
    simpa using positive

theorem dividendHigh_toNat (low : BitVec 64) :
    (dividendHigh low).toNat = if low.getLsbD 31 then 2 ^ 32 - 1 else 0 := by
  rw [dividendHigh]
  split <;> rfl

theorem tmod_bounds (left right : Int) (nonzero : right ≠ 0) :
    -right.natAbs < left.tmod right ∧ left.tmod right < right.natAbs := by
  have size := Int.natAbs_tmod left right
  have less := Nat.mod_lt left.natAbs (show 0 < right.natAbs by omega)
  omega

theorem dividend_tdiv_eq_iff (left right : BitVec 64) (nonzero : right ≠ 0) :
    (dividend left).tdiv right.toInt = left.toInt.tdiv right.toInt ↔
      0 ≤ left.toInt ∧ left.getLsbD 31 = false := by
  have divisor : right.toInt ≠ 0 := fun zero => nonzero (BitVec.eq_of_toInt_eq (zero.trans rfl))
  have smallest := BitVec.le_toInt right
  have largest := @BitVec.toInt_lt 64 right
  have high := dividendHigh_toNat left
  have number := dividend_eq left
  have signed := BitVec.toInt_eq_toNat_cond left
  have bound := left.isLt
  constructor
  · intro same
    have split := Int.mul_tdiv_add_tmod (dividend left) right.toInt
    have splitToo := Int.mul_tdiv_add_tmod left.toInt right.toInt
    rw [same] at split
    have rest := tmod_bounds (dividend left) right.toInt divisor
    have restToo := tmod_bounds left.toInt right.toInt divisor
    have above := Int.tmod_nonneg right.toInt (show 0 ≤ dividend left by omega)
    by_cases negative : left.toInt < 0
    · exfalso
      split_ifs at signed <;> omega
    · have aboveToo := Int.tmod_nonneg right.toInt (show 0 ≤ left.toInt by omega)
      refine ⟨by omega, ?_⟩
      by_contra set
      rw [if_pos (by simpa using set)] at high
      split_ifs at signed <;> omega
  · intro ⟨positive, clear⟩
    rw [clear, if_neg (by decide)] at high
    have same : dividend left = left.toInt := by
      split_ifs at signed <;> omega
    rw [same]

theorem ofInt_toInt_iff (quotient : Int) :
    (BitVec.ofInt 64 quotient).toInt = quotient ↔ -2 ^ 63 ≤ quotient ∧ quotient < 2 ^ 63 := by
  constructor
  · intro same
    have low := BitVec.le_toInt (BitVec.ofInt 64 quotient)
    have high := @BitVec.toInt_lt 64 (BitVec.ofInt 64 quotient)
    omega
  · intro ⟨low, high⟩
    rw [BitVec.toInt_ofInt]
    exact Int.bmod_eq_of_le (by omega) (by omega)

section Idiv

variable (t : Register) (before : State) (low : BitVec 64)
  (lower : before.registers rax = low) (upper : before.registers rdx = dividendHigh low)

theorem idiv_instruction :
    (rowForm 0xF7 t 7 []).instruction = some (.idiv .qword (.register t)) := by
  change some (Instruction.idiv .qword _) = _
  rw [rowForm_rmOperand]

include lower upper

theorem idiv_execute :
    (rowForm 0xF7 t 7 []).execute before =
      if (before.registers t).toInt = 0 ∨ (BitVec.ofInt 64 ((dividend low).tdiv
          (before.registers t).toInt)).toInt ≠ (dividend low).tdiv (before.registers t).toInt then
        none
      else
        let state : State :=
          { before with rip := before.rip + (rowForm 0xF7 t 7 []).size, flags := .undefined }
        some ((state.setRegister rax (BitVec.ofInt 64 ((dividend low).tdiv
            (before.registers t).toInt))).setRegister rdx
          (BitVec.ofInt 64 ((dividend low).tmod (before.registers t).toInt))) := by
  have read (index : Register) (rip : BitVec 64) :
      ({ before with rip := rip } : State).read .qword (.register index) =
        before.registers index := BitVec.setWidth_eq _
  rw [Encoded.execute, idiv_instruction, Option.bind_some, Instruction.execute]
  simp only [read, lower, upper]
  rfl

theorem idiv_faults (fault : ¬ DividesWithoutFault low (before.registers t)) :
    (rowForm 0xF7 t 7 []).execute before = none := by
  rw [idiv_execute t before low lower upper, if_pos]
  by_contra fits
  rw [not_or, not_not, ofInt_toInt_iff] at fits
  apply fault
  refine ⟨?_, fits.2⟩
  intro zero
  apply fits.1
  rw [zero]
  rfl

theorem idiv_straight (divides : DividesWithoutFault low (before.registers t)) :
    ∃ after, Straight (instructions [idiv64 (intOfRegister t)]) before after ∧
      after.registers = Function.update (Function.update before.registers rax
        (BitVec.ofInt 64 ((dividend low).tdiv (before.registers t).toInt))) rdx
        (BitVec.ofInt 64 ((dividend low).tmod (before.registers t).toInt)) ∧
      after.memory = before.memory := by
  obtain ⟨nonzero, fits⟩ := divides
  have executed := idiv_execute t before low lower upper
  have sound : ¬ ((before.registers t).toInt = 0 ∨ (BitVec.ofInt 64 ((dividend low).tdiv
      (before.registers t).toInt)).toInt ≠ (dividend low).tdiv (before.registers t).toInt) := by
    rw [not_or, not_not, ofInt_toInt_iff]
    refine ⟨?_, fits⟩
    intro zero
    exact nonzero (BitVec.eq_of_toInt_eq (zero.trans rfl))
  rw [if_neg sound] at executed
  refine ⟨_, Straight.single executed rfl, ?_, rfl⟩
  simp only [State.setRegister, BitVec.setWidth_eq]

end Idiv

theorem cdq_transforms :
    Transforms (instructions [cdq]) (fun registers =>
      Function.update registers rdx (dividendHigh (registers rax))) := by
  have wellFormed : Encoded.WellFormed (bare 0x99) :=
    plain_wellFormed 0x99 none false [] _ rfl rfl rfl
  have means : (bare 0x99).instruction = some (.convert .dword) := by decide
  apply Transforms.single wellFormed means
  intro state
  refine ⟨_, rfl, ?_, rfl, rfl⟩
  have sign : ((state.registers rax).setWidth 32).msb = (state.registers rax).getLsbD 31 := by
    simp [BitVec.msb_eq_getLsbD_last]
  simp only [State.setRegister, State.read, dividendHigh, sign]
  cases (state.registers rax).getLsbD 31 <;> rfl

-- The upper half is in `rdx` by the time the divisor is read.
def divisorRead (t : Register) (registers : Register → BitVec 64) (low : BitVec 64) : BitVec 64 :=
  if t = rdx then dividendHigh low else registers t

theorem div_uses (d s t : Register) :
    (JitCall.div (intOfRegister d) (intOfRegister s) (intOfRegister t)).uses =
      [push (intOfRegister rdx)] ++
        (([mov (intOfRegister rax) (intOfRegister s)] ++ [cdq]) ++
          ([idiv64 (intOfRegister t)] ++ ([mov (intOfRegister d) (intOfRegister rax)] ++
            [pop (intOfRegister rdx)]))) := by
  simp [JitCall.uses, JitCall.actions, jitDiv, intOfRegister_ne_jitR0]
  exact ⟨rfl, rfl, rfl, rfl⟩

theorem div_wellFormed (d s t : Register) :
    ∀ encoded ∈ instructions
      (JitCall.div (intOfRegister d) (intOfRegister s) (intOfRegister t)).uses,
      encoded.WellFormed := by
  have front := (mov_transforms rax s).append cdq_transforms
  have divides : (rowForm 0xF7 t 7 []).WellFormed :=
    direct_wellFormed 0xF7 _ false _ _ [] _ rfl rfl rfl
  intro encoded member
  simp only [div_uses, instructions_append] at member
  rcases List.mem_append.mp member with saves | later
  · exact List.mem_singleton.mp saves ▸ push_wellFormed rdx
  rcases List.mem_append.mp later with widens | later
  · exact front.wellFormed encoded widens
  rcases List.mem_append.mp later with division | later
  · exact List.mem_singleton.mp division ▸ divides
  rcases List.mem_append.mp later with moves | restores
  · exact (mov_transforms d rax).wellFormed encoded moves
  · exact List.mem_singleton.mp restores ▸ pop_wellFormed rdx

section Row

variable (d s t : Register) (sourceReal : s ≠ rsp) (divisorReal : t ≠ rsp ∧ t ≠ rax)
  (before : State)

include sourceReal divisorReal

theorem widened_straight :
    ∃ middle, Straight (instructions ([mov (intOfRegister rax) (intOfRegister s)] ++ [cdq]))
        (pushed rdx before) middle ∧
      middle.registers rax = before.registers s ∧
      middle.registers rdx = dividendHigh (before.registers s) ∧
      middle.registers rsp = before.registers rsp - 8 ∧
      middle.registers t = divisorRead t before.registers (before.registers s) ∧
      (∀ other, other ≠ rax → other ≠ rdx → other ≠ rsp →
        middle.registers other = before.registers other) ∧
      middle.memory = (pushed rdx before).memory := by
  have front := (mov_transforms rax s).append cdq_transforms
  rw [← instructions_append] at front
  obtain ⟨middle, straight, registers, memory⟩ := front.straight (pushed rdx before)
  have pushedRegisters : (pushed rdx before).registers =
      Function.update before.registers rsp (before.registers rsp - 8) := rfl
  have source : (pushed rdx before).registers s = before.registers s := by
    rw [pushedRegisters, Function.update_of_ne sourceReal]
  rw [source, Function.update_self] at registers
  have kept (other : Register) (notRax : other ≠ rax) (notRdx : other ≠ rdx)
      (notStack : other ≠ rsp) : middle.registers other = before.registers other := by
    rw [registers, Function.update_of_ne notRdx, Function.update_of_ne notRax, pushedRegisters,
      Function.update_of_ne notStack]
  have upper : middle.registers rdx = dividendHigh (before.registers s) := by
    rw [registers, Function.update_self]
  refine ⟨middle, straight, ?_, upper, ?_, ?_, kept, memory⟩
  · rw [registers, Function.update_of_ne (by decide), Function.update_self]
  · rw [registers, Function.update_of_ne (by decide), Function.update_of_ne (by decide),
      pushedRegisters, Function.update_self]
  · rw [divisorRead]
    by_cases halved : t = rdx
    · rw [if_pos halved, halved, upper]
    · rw [if_neg halved, kept t divisorReal.2 halved divisorReal.1]

theorem div_faults (fault : ¬ DividesWithoutFault (before.registers s)
      (divisorRead t before.registers (before.registers s))) :
    run (usesBytes (JitCall.div (intOfRegister d) (intOfRegister s) (intOfRegister t)).uses) before =
      none := by
  obtain ⟨middle, widens, lower, upper, -, divisor, -⟩ :=
    widened_straight s t sourceReal divisorReal before
  rw [← divisor] at fault
  have faults := idiv_faults t middle _ lower upper fault
  have front := (push_straight rdx before).append widens
  rw [usesBytes_correct, run_bytes _ (div_wellFormed d s t), div_uses]
  simp only [instructions_append]
  rw [← List.append_assoc]
  exact front.executeAll_fault faults _

theorem div_straight (destinationReal : d ≠ rsp)
    (divides : DividesWithoutFault (before.registers s)
      (divisorRead t before.registers (before.registers s))) :
    ∃ after, Straight (instructions
        (JitCall.div (intOfRegister d) (intOfRegister s) (intOfRegister t)).uses) before after ∧
      after.registers d = (if d = rdx then before.registers rdx else
        BitVec.ofInt 64 ((dividend (before.registers s)).tdiv
          (divisorRead t before.registers (before.registers s)).toInt)) ∧
      ∀ other, other ≠ d → other ≠ rax → after.registers other = before.registers other := by
  obtain ⟨middle, widens, lower, upper, stack, divisor, kept, memory⟩ :=
    widened_straight s t sourceReal divisorReal before
  rw [← divisor] at divides ⊢
  obtain ⟨divided, division, dividedRegisters, dividedMemory⟩ :=
    idiv_straight t middle _ lower upper divides
  obtain ⟨moved, moves, movedRegisters, movedMemory⟩ := (mov_transforms d rax).straight divided
  have body := widens.append (division.append moves)
  have bodyStack : moved.registers rsp = before.registers rsp - 8 := by
    rw [movedRegisters, Function.update_of_ne destinationReal.symm, dividedRegisters,
      Function.update_of_ne (by decide), Function.update_of_ne (by decide), stack]
  have bodyMemory : moved.memory = (pushed rdx before).memory :=
    movedMemory.trans (dividedMemory.trans memory)
  obtain ⟨after, saved, registers⟩ := saved_straight rdx body bodyMemory bodyStack
  refine ⟨after, ?_, ?_, ?_⟩
  · rw [div_uses]
    simp only [instructions_append, List.append_assoc] at saved ⊢
    exact saved
  · rw [registers]
    by_cases aliased : d = rdx
    · rw [if_pos aliased, aliased, Function.update_self]
    · rw [if_neg aliased, Function.update_of_ne aliased, Function.update_of_ne destinationReal,
        movedRegisters, Function.update_self, dividedRegisters, Function.update_of_ne (by decide),
        Function.update_self]
  · intro other notDestination notRax
    rw [registers]
    by_cases isSaved : other = rdx
    · rw [isSaved, Function.update_self]
    · rw [Function.update_of_ne isSaved]
      by_cases onStack : other = rsp
      · rw [onStack, Function.update_self]
      · rw [Function.update_of_ne onStack, movedRegisters, Function.update_of_ne notDestination,
          dividedRegisters, Function.update_of_ne isSaved, Function.update_of_ne notRax,
          kept other notRax isSaved onStack]

end Row

-- Either half-dividend is useless as a divisor: zero, or too small for the upper half.
theorem dividendHigh_never_divides (low : BitVec 64) :
    ¬ DividesWithoutFault low (dividendHigh low) := by
  intro ⟨nonzero, _, fits⟩
  have number := dividend_eq low
  by_cases set : low.getLsbD 31
  · have high : dividendHigh low = 0xFFFFFFFF := by rw [dividendHigh, if_pos set]
    have divisor : (0xFFFFFFFF : BitVec 64).toInt = 4294967295 := rfl
    have upper : (0xFFFFFFFF : BitVec 64).toNat = 4294967295 := rfl
    rw [high, upper] at number
    rw [high, divisor, Int.tdiv_eq_ediv_of_nonneg (by omega)] at fits
    omega
  · exact nonzero (by rw [dividendHigh, if_neg set])

theorem quotient_eq_iff (left right : BitVec 64) (nonzero : right ≠ 0)
    (fits : ¬ (left = BitVec.intMin 64 ∧ right = -1#64))
    (divides : DividesWithoutFault left right) :
    BitVec.ofInt 64 ((dividend left).tdiv right.toInt) = left.sdiv right ↔
      0 ≤ left.toInt ∧ left.getLsbD 31 = false := by
  have exact := BitVec.toInt_sdiv_of_ne_or_ne left right (Decidable.not_and_iff_not_or_not.mp fits)
  rw [← BitVec.toInt_inj, exact, (ofInt_toInt_iff _).mpr divides.2,
    dividend_tdiv_eq_iff left right nonzero]

theorem divides_of_small (left right : BitVec 64) (nonzero : right ≠ 0)
    (fits : ¬ (left = BitVec.intMin 64 ∧ right = -1#64)) (positive : 0 ≤ left.toInt)
    (clear : left.getLsbD 31 = false) : DividesWithoutFault left right := by
  have exact := BitVec.toInt_sdiv_of_ne_or_ne left right (Decidable.not_and_iff_not_or_not.mp fits)
  have same := (dividend_tdiv_eq_iff left right nonzero).mpr ⟨positive, clear⟩
  have low := BitVec.le_toInt (left.sdiv right)
  have high := @BitVec.toInt_lt 64 (left.sdiv right)
  rw [DividesWithoutFault, same, ← exact]
  exact ⟨nonzero, by omega, by omega⟩

/-- The emitted code runs without a fault, leaves the quotient rounded toward zero in `d` and keeps
every register but `d` and `rax`, the stack pointer with them. -/
def Divides (abi : Abi) (d s t : JitRegister) (before : State) : Prop :=
  let code := (JitCall.div (d.int abi) (s.int abi) (t.int abi)).code
  ∃ after, run code before = some after ∧
    after.rip = before.rip + BitVec.ofNat 64 code.length ∧
    after.registers (d.number abi) =
      (before.registers (s.number abi)).sdiv (before.registers (t.number abi)) ∧
    ∀ other, other ≠ d.number abi → other ≠ rax → after.registers other = before.registers other

section Divides

variable (abi : Abi) (d s t : JitRegister) (before : State)

theorem divides_of_run {after : State} (ran : run (JitCall.div (d.int abi) (s.int abi)
      (t.int abi)).code before = some after)
    (rip : after.rip = before.rip + BitVec.ofNat 64 (JitCall.div (d.int abi) (s.int abi)
      (t.int abi)).code.length)
    (others : ∀ other, other ≠ d.number abi → other ≠ rax →
      after.registers other = before.registers other) :
    Divides abi d s t before ↔ after.registers (d.number abi) =
      (before.registers (s.number abi)).sdiv (before.registers (t.number abi)) := by
  constructor
  · intro ⟨other, ran', _, value, _⟩
    obtain rfl : other = after := Option.some.inj (ran'.symm.trans ran)
    exact value
  · intro value
    exact ⟨after, ran, rip, value, others⟩

theorem division_iff (divisor : before.registers (t.number abi) ≠ 0)
    (fits : ¬ (before.registers (s.number abi) = BitVec.intMin 64 ∧
      before.registers (t.number abi) = -1#64)) :
    Divides abi d s t before ↔
      t.number abi ≠ rdx ∧
        if d.number abi = rdx then
          DividesWithoutFault (before.registers (s.number abi)) (before.registers (t.number abi)) ∧
            before.registers rdx =
              (before.registers (s.number abi)).sdiv (before.registers (t.number abi))
        else
          0 ≤ (before.registers (s.number abi)).toInt ∧
            (before.registers (s.number abi)).getLsbD 31 = false := by
  have divisorReal := And.intro (t.number_ne_rsp abi) (t.number_ne_rax abi)
  have never (fault : ¬ DividesWithoutFault (before.registers (s.number abi))
      (divisorRead (t.number abi) before.registers (before.registers (s.number abi)))) :
      ¬ Divides abi d s t before := by
    intro ⟨after, ran, _⟩
    have none := div_faults (d.number abi) _ _ (s.number_ne_rsp abi) divisorReal before fault
    exact Option.some_ne_none after (ran.symm.trans none)
  by_cases halved : t.number abi = rdx
  · have fault := dividendHigh_never_divides (before.registers (s.number abi))
    refine iff_of_false (never ?_) (fun ⟨direct, _⟩ => direct halved)
    rwa [divisorRead, if_pos halved]
  · have read (low : BitVec 64) : divisorRead (t.number abi) before.registers low =
        before.registers (t.number abi) := if_neg halved
    by_cases divides : DividesWithoutFault (before.registers (s.number abi))
        (before.registers (t.number abi))
    · obtain ⟨after, straight, destination, others⟩ := div_straight (d.number abi) _ _
        (s.number_ne_rsp abi) divisorReal before (d.number_ne_rsp abi) (by rwa [read])
      obtain ⟨ran, rip⟩ := uses_run straight (div_wellFormed _ _ _)
      rw [divides_of_run abi d s t before ran rip others, destination, read]
      by_cases aliased : d.number abi = rdx
      · simp [halved, aliased, divides]
      · rw [if_neg aliased, if_neg aliased, quotient_eq_iff _ _ divisor fits divides]
        simp [halved]
    · refine iff_of_false (never (by rwa [read])) ?_
      intro ⟨_, condition⟩
      by_cases aliased : d.number abi = rdx
      · rw [if_pos aliased] at condition
        exact divides condition.1
      · rw [if_neg aliased] at condition
        exact divides (divides_of_small _ _ divisor fits condition.1 condition.2)

end Divides

-- Seven by two in registers of their own.
theorem division_iff_small :
    let before : State :=
      { registers := fun index => if index = r8 then 7 else 2, flags := Flags.undefined
        memory := fun _ => 0, rip := 0 }
    Divides .systemV .r3 .r1 .r2 before := by
  intro before
  apply (division_iff .systemV .r3 .r1 .r2 before (by decide) (by decide)).mpr
  decide

-- A negative dividend is divided as a large positive one.
theorem division_of_negative :
    let before : State :=
      { registers := fun index => if index = r8 then -7 else 2, flags := Flags.undefined
        memory := fun _ => 0, rip := 0 }
    ¬ Divides .systemV .r3 .r1 .r2 before := by
  intro before ⟨after, ran, _⟩
  have fault := div_faults rbx r8 r9 (by decide) (by decide) before
  have divides : ¬ DividesWithoutFault (before.registers r8)
      (divisorRead r9 before.registers (before.registers r8)) := by
    intro ⟨_, _, small⟩
    revert small
    decide
  exact Option.some_ne_none after (ran.symm.trans (fault divides))

end Jit
