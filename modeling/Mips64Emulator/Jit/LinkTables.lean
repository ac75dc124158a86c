import Mips64Emulator.Jit.Emitter

set_option autoImplicit false

namespace Jit

open X86 (Byte)

def EncoderUse.isRelative : EncoderUse → Bool
  | opi32 .. | jz _ | jnz _ => true
  | _ => false

namespace JitCall

def offset : JitCall → Option (BitVec 32)
  | jump o | branch _ _ o | nbranch _ _ o | call o => some o
  | _ => none

-- The `o` of a call that emits a relative jump or call.
def link (call : JitCall) : Option (BitVec 32) :=
  if call.uses.any EncoderUse.isRelative then call.offset else none

def isLoadf : JitCall → Bool
  | loadf .. => true
  | _ => false

end JitCall

def JitCall.KeepsTables : JitCall → Prop
  | jump o => o = -1
  | branch s t o => if s = t then o = -1 else o = 0 ∨ o = -1
  | nbranch s t o => s = t ∨ o = 0 ∨ o = -1
  | call o => o = 0 ∨ o = -1
  | loadf .. => False
  | _ => True

def codeOf (calls : List JitCall) : List Byte := calls.flatMap JitCall.code

def linkPlaces (calls : List JitCall) : List Nat :=
  (calls.zipIdx.filter fun (call, _) => call.link.isSome).map Prod.snd

structure Describes (base : BitVec 64) (calls : List JitCall) (p : JitParsing) : Prop where
  buffer : p.buffer = codeOf calls
  info1 : p.info1 = (List.range calls.length).map fun k =>
    base + BitVec.ofNat 64 (codeOf (calls.take k)).length
  info2 : p.info2 = (linkPlaces calls).map fun k => BitVec.ofNat 16 (k + 1)
  offsets : ∀ k call o, calls[k]? = some call → call.link = some o →
    ∃ front rest, p.buffer = front ++ EncoderUse.le32 o ++ rest ∧
      (front ++ EncoderUse.le32 o).length = (codeOf (calls.take (k + 1))).length
  elsewhere : p.elsewhere = []

-- What the actions of a call are: one record, the code, and a second record behind a linked jump.
def Shaped (call : JitCall) : Prop :=
  call.actions = (if call.isLoadf then .infoOfTarget else .info) ::
    (call.uses.map .emit ++ if call.link.isSome then [.info2] else [])

theorem recorded_shaped {call : JitCall} {uses : List EncoderUse}
    (actions : call.actions = recorded uses) (unlinked : call.offset = none)
    (plain : call.isLoadf = false) : Shaped call := by
  have noLink : call.link = none := by simp [JitCall.link, unlinked]
  have emitted : call.uses = uses := by rw [JitCall.uses, actions, recorded_uses]
  simp [Shaped, actions, recorded, plain, noLink, emitted]

theorem linked_link {call : JitCall} {condition : Prop} [Decidable condition]
    {uses : List EncoderUse} {o : BitVec 32}
    (actions : call.actions = .info :: if condition then linked uses else [])
    (offset : call.offset = some o) (relative : uses.any EncoderUse.isRelative = true) :
    call.link = if condition then some o else none := by
  by_cases taken : condition <;>
    simp [JitCall.link, linked_uses_eq actions, offset, taken, relative]

theorem linked_shaped {call : JitCall} {condition : Prop} [Decidable condition]
    {uses : List EncoderUse} {o : BitVec 32}
    (actions : call.actions = .info :: if condition then linked uses else [])
    (offset : call.offset = some o) (relative : uses.any EncoderUse.isRelative = true)
    (plain : call.isLoadf = false) : Shaped call := by
  have emitted := linked_uses_eq actions
  have link := linked_link actions offset relative
  by_cases taken : condition
  · simp only [taken, if_true] at actions emitted link
    simp [Shaped, actions, linked, plain, link, emitted]
  · simp only [taken, if_false] at actions emitted link
    simp [Shaped, actions, plain, link, emitted]

theorem call_shaped (call : JitCall) : Shaped call := by
  cases call with
  | jump o => exact linked_shaped rfl rfl rfl rfl
  | branch s t o =>
    by_cases same : s = t
    · have delegates : (JitCall.branch s t o).actions = jitJump o := if_pos same
      exact linked_shaped delegates rfl rfl rfl
    · have compares : (JitCall.branch s t o).actions = _ := if_neg same
      exact linked_shaped compares rfl (List.any_eq_true.mpr ⟨.jnz o, by simp, rfl⟩) rfl
  | nbranch s t o =>
    exact linked_shaped rfl rfl (List.any_eq_true.mpr ⟨.jz o, by simp, rfl⟩) rfl
  | call o => exact linked_shaped rfl rfl rfl rfl
  | loadf d s o =>
    have unlinked : (JitCall.loadf d s o).link = none := by simp [JitCall.link, JitCall.offset]
    simp [Shaped, unlinked, JitCall.actions, JitCall.uses, JitCall.isLoadf, jitLoadf,
      List.filterMap_cons, JitAction.use?]
  | _ => exact recorded_shaped rfl rfl rfl

theorem linked_ends {call : JitCall} {condition : Prop} [Decidable condition]
    {o : BitVec 32} (uses : List EncoderUse) (use : EncoderUse) (opcode : List Byte)
    (actions : call.actions = .info :: if condition then linked (uses ++ [use]) else [])
    (relative : call.uses.any EncoderUse.isRelative = true)
    (ends : use.bytes = opcode ++ EncoderUse.le32 o) :
    ∃ front, call.code = front ++ EncoderUse.le32 o := by
  have emitted := linked_uses_eq actions
  by_cases taken : condition
  · simp only [taken, if_true] at emitted
    exact ⟨usesBytes uses ++ opcode, by simp [JitCall.code, emitted, usesBytes, ends]⟩
  · simp only [taken, if_false] at emitted
    simp [emitted] at relative

theorem link_ends {call : JitCall} {o : BitVec 32} (link : call.link = some o) :
    ∃ front, call.code = front ++ EncoderUse.le32 o := by
  have relative : call.uses.any EncoderUse.isRelative = true := by
    by_contra none
    simp [JitCall.link, none] at link
  have offset : call.offset = some o := by simpa [JitCall.link, relative] using link
  cases call with
  | jump o' =>
    obtain rfl : o' = o := by simpa [JitCall.offset] using offset
    exact linked_ends [] (.jmp o') [0xE9] rfl relative rfl
  | branch s t o' =>
    obtain rfl : o' = o := by simpa [JitCall.offset] using offset
    by_cases same : s = t
    · have delegates : (JitCall.branch s t o').actions = jitJump o' := if_pos same
      exact linked_ends [] (.jmp o') [0xE9] delegates relative rfl
    · have compares : (JitCall.branch s t o').actions = _ := if_neg same
      exact linked_ends [_, _, _] (.jnz o') [0x85, 0xC0, 0x0F, 0x85]
        compares relative rfl
  | nbranch s t o' =>
    obtain rfl : o' = o := by simpa [JitCall.offset] using offset
    exact linked_ends [_, _, _] (.jz o') [0x85, 0xC0, 0x0F, 0x84]
      rfl relative rfl
  | call o' =>
    obtain rfl : o' = o := by simpa [JitCall.offset] using offset
    exact linked_ends [] (.calli32 o') [0xE8] rfl relative rfl
  | _ => simp [JitCall.offset] at offset

theorem jumpsAway_iff (o : BitVec 32) : jumpsAway o ↔ ¬ (o = 0 ∨ o = -1) := by
  have zero : o = 0 ↔ o.toInt = 0 := BitVec.toInt_inj.symm
  have minusOne : o = -1 ↔ o.toInt = -1 := BitVec.toInt_inj.symm
  rw [zero, minusOne, jumpsAway, BitVec.slt_iff_toInt_lt, BitVec.slt_iff_toInt_lt]
  change 0 < o.toInt ∨ o.toInt < -1 ↔ _
  omega

theorem linked_keeps {call : JitCall} {condition keeps : Prop} [Decidable condition]
    {o : BitVec 32} (link : call.link = if condition then some o else none)
    (plain : call.isLoadf = false) (same : keeps ↔ ¬ condition) :
    keeps ↔ call.link = none ∧ call.isLoadf = false := by
  by_cases taken : condition <;> simp [same, link, taken, plain]

theorem jump_keeps (o : BitVec 32) : o = -1 ↔ ¬ (o ≠ jitR0 ∨ o.slt (-1)) := by
  constructor
  · rintro rfl
    decide
  · intro stays
    exact not_not.mp (not_or.mp stays).1

theorem keepsTables_iff (call : JitCall) :
    call.KeepsTables ↔ call.link = none ∧ call.isLoadf = false := by
  cases call with
  | jump o =>
    have link : (JitCall.jump o).link = _ := linked_link rfl rfl rfl
    exact linked_keeps link rfl (jump_keeps o)
  | branch s t o =>
    by_cases same : s = t
    · have delegates : (JitCall.branch s t o).actions = jitJump o := if_pos same
      have link := linked_link delegates rfl rfl
      rw [JitCall.KeepsTables, if_pos same]
      exact linked_keeps link rfl (jump_keeps o)
    · have compares : (JitCall.branch s t o).actions = _ := if_neg same
      have link := linked_link compares rfl (List.any_eq_true.mpr ⟨.jnz o, by simp, rfl⟩)
      rw [JitCall.KeepsTables, if_neg same]
      exact linked_keeps link rfl (by rw [jumpsAway_iff, not_not])
  | nbranch s t o =>
    have link : (JitCall.nbranch s t o).link = _ := linked_link rfl rfl
      (List.any_eq_true.mpr ⟨.jz o, by simp, rfl⟩)
    exact linked_keeps link rfl (by rw [jumpsAway_iff, JitCall.KeepsTables]; tauto)
  | call o =>
    have link : (JitCall.call o).link = _ := linked_link rfl rfl rfl
    exact linked_keeps link rfl (by rw [jumpsAway_iff, not_not]; rfl)
  | loadf d s o => simp [JitCall.KeepsTables, JitCall.isLoadf]
  | _ => simp [JitCall.KeepsTables, JitCall.isLoadf, JitCall.link, JitCall.offset]

section Run

variable (base : BitVec 64) (leftover : Leftover)

theorem perform_uses (p : JitParsing) (uses : List EncoderUse) :
    (uses.map .emit).foldl (JitParsing.perform base leftover) p =
      { p with buffer := p.buffer ++ usesBytes uses } := by
  induction uses generalizing p with
  | nil => simp [usesBytes]
  | cons use rest ih =>
    simp only [List.map_cons, List.foldl_cons, ih]
    simp [JitParsing.perform, usesBytes]

theorem performCall_correct (p : JitParsing) (call : JitCall) :
    p.performCall base leftover call =
      { buffer := p.buffer ++ call.code
        info1 := p.info1 ++ [if call.isLoadf then leftover.info1 p.info1.length
          else base + BitVec.ofNat 64 p.buffer.length]
        info2 := p.info2 ++ if call.link.isSome then [(p.i1 + 2).setWidth 16] else []
        i1 := p.i1 + 2
        elsewhere := p.elsewhere ++ if call.isLoadf then
          [(leftover.info1 p.info1.length, leftover.buffer p.buffer.length)] else [] } := by
  have shaped : Shaped call := call_shaped call
  rw [Shaped] at shaped
  rw [JitParsing.performCall, shaped, List.foldl_cons, List.foldl_append, perform_uses]
  cases call.isLoadf <;> cases call.link <;> simp [JitParsing.perform, JitCall.code]

-- What the tables do hold after the calls: `info2` counts twice, and each `JIT_LOADF` leaves the old
-- pointer in `info1` and stores through it.
structure Correct (calls : List JitCall) (p : JitParsing) : Prop where
  buffer : p.buffer = codeOf calls
  info1 : p.info1 = calls.zipIdx.map fun (call, k) =>
    if call.isLoadf then leftover.info1 k
    else base + BitVec.ofNat 64 (codeOf (calls.take k)).length
  info2 : p.info2 = (linkPlaces calls).map fun k => BitVec.ofNat 16 (2 * (k + 1))
  i1 : p.i1 = BitVec.ofNat 64 (2 * calls.length)
  elsewhere : p.elsewhere.length = calls.countP JitCall.isLoadf

theorem linkPlaces_snoc (calls : List JitCall) (call : JitCall) :
    linkPlaces (calls ++ [call]) =
      linkPlaces calls ++ if call.link.isSome then [calls.length] else [] := by
  cases linked : call.link <;> simp [linkPlaces, List.zipIdx_append, linked]

theorem performCall_keeps {calls : List JitCall} {p : JitParsing}
    (correct : Correct base leftover calls p) (call : JitCall) :
    Correct base leftover (calls ++ [call]) (p.performCall base leftover call) := by
  rw [performCall_correct]
  constructor
  · simp [correct.buffer, codeOf]
  · have entries : p.info1.length = calls.length := by simp [correct.info1]
    have earlier (entry : JitCall × Nat) (member : entry ∈ calls.zipIdx) :
        (calls ++ [call]).take entry.2 = calls.take entry.2 := by
      have found : calls[entry.2]? = some entry.1 := List.mem_zipIdx_iff_getElem?.mp member
      obtain ⟨inside, -⟩ := List.getElem?_eq_some_iff.mp found
      exact List.take_append_of_le_length (by omega)
    have kept : calls.zipIdx.map (fun entry => if entry.1.isLoadf then leftover.info1 entry.2
          else base + BitVec.ofNat 64 (codeOf ((calls ++ [call]).take entry.2)).length) =
        p.info1 := by
      rw [correct.info1]
      apply List.map_congr_left
      intro entry member
      rw [earlier entry member]
    simp [List.zipIdx_append, kept, entries, correct.buffer]
  · rw [linkPlaces_snoc, List.map_append, correct.info2, correct.i1]
    have counted : (BitVec.ofNat 64 (2 * calls.length) + 2#64).setWidth 16 =
        BitVec.ofNat 16 (2 * (calls.length + 1)) := by
      rw [← BitVec.ofNat_add, BitVec.setWidth_ofNat_of_le (by decide), Nat.mul_succ]
    cases call.link <;> simp [counted]
  · rw [correct.i1, List.length_append, List.length_singleton, Nat.mul_succ, BitVec.ofNat_add]
    rfl
  · cases loadf : call.isLoadf <;> simp [correct.elsewhere, loadf]

theorem performCalls_correct {calls : List JitCall} {p : JitParsing}
    (correct : Correct base leftover calls p) (more : List JitCall) :
    Correct base leftover (calls ++ more) (p.performCalls base leftover more) := by
  induction more generalizing calls p with
  | nil => simpa [JitParsing.performCalls] using correct
  | cons call rest ih =>
    have next := ih (performCall_keeps base leftover correct call)
    simpa [JitParsing.performCalls] using next

theorem start_correct (calls : List JitCall) :
    Correct base leftover calls (JitParsing.start.performCalls base leftover calls) := by
  have empty : Correct base leftover [] JitParsing.start := by
    constructor <;> simp [JitParsing.start, codeOf, linkPlaces]
  exact performCalls_correct base leftover empty calls

end Run

theorem codeOf_split {calls : List JitCall} {k : Nat} {call : JitCall}
    (found : calls[k]? = some call) :
    codeOf calls = codeOf (calls.take k) ++ call.code ++ codeOf (calls.drop (k + 1)) ∧
      codeOf (calls.take (k + 1)) = codeOf (calls.take k) ++ call.code := by
  have next : calls.take (k + 1) = calls.take k ++ [call] := by
    rw [List.take_add_one, found]
    rfl
  have upTo : codeOf (calls.take (k + 1)) = codeOf (calls.take k) ++ call.code := by
    simp [next, codeOf]
  have whole : codeOf calls = codeOf (calls.take (k + 1)) ++ codeOf (calls.drop (k + 1)) := by
    rw [codeOf, codeOf, codeOf, ← List.flatMap_append, List.take_append_drop]
  exact ⟨by rw [whole, upTo], upTo⟩

-- Below 65536 calls, twice a count is never the count.
theorem unlinked_of_info2 {calls : List JitCall} (few : calls.length < 65536)
    (same : ((linkPlaces calls).map fun k => BitVec.ofNat 16 (2 * (k + 1))) =
      (linkPlaces calls).map fun k => BitVec.ofNat 16 (k + 1)) :
    ∀ call ∈ calls, call.link = none := by
  intro call member
  by_contra linked
  obtain ⟨k, found⟩ := List.mem_iff_getElem?.mp member
  obtain ⟨inside, -⟩ := List.getElem?_eq_some_iff.mp found
  have listed : k ∈ linkPlaces calls := by
    have entry : (call, k) ∈ calls.zipIdx := List.mem_zipIdx_iff_getElem?.mpr found
    simp only [linkPlaces, List.mem_map, List.mem_filter]
    exact ⟨(call, k), ⟨entry, Option.isSome_iff_ne_none.mpr linked⟩, rfl⟩
  have entrySame := List.map_inj_left.mp same k listed
  have number := congrArg BitVec.toNat entrySame
  simp only [BitVec.toNat_ofNat] at number
  omega

/-- The tables describe the code exactly when no call is a `JIT_LOADF` or emits a relative jump. -/
theorem linkTables_describe_iff (calls : List JitCall) (few : calls.length < 65536) :
    (∀ base leftover,
      Describes base calls (JitParsing.start.performCalls base leftover calls)) ↔
    ∀ call ∈ calls, call.KeepsTables := by
  simp only [keepsTables_iff]
  constructor
  · intro describes call member
    let nothing : Leftover := { buffer := fun _ => 0, info1 := fun _ => 0 }
    have described := describes 0 nothing
    have correct := start_correct 0 nothing calls
    constructor
    · exact unlinked_of_info2 few (correct.info2.symm.trans described.info2) call member
    · have none : calls.countP JitCall.isLoadf = 0 := by
        rw [← correct.elsewhere, described.elsewhere, List.length_nil]
      exact eq_false_of_ne_true (List.countP_eq_zero.mp none call member)
  · intro keeps base leftover
    have correct := start_correct base leftover calls
    have unlinked : linkPlaces calls = [] := by
      rw [linkPlaces, List.map_eq_nil_iff, List.filter_eq_nil_iff]
      intro entry member
      simp [(keeps entry.1 (List.fst_mem_of_mem_zipIdx member)).1]
    constructor
    · exact correct.buffer
    · rw [correct.info1, List.range_eq_range', ← List.zipIdx_map_snd, List.map_map]
      apply List.map_congr_left
      intro entry member
      simp [(keeps entry.1 (List.fst_mem_of_mem_zipIdx member)).2]
    · rw [correct.info2, unlinked]
      rfl
    · intro k call o found link
      obtain ⟨front, code⟩ := link_ends link
      obtain ⟨whole, upTo⟩ := codeOf_split found
      refine ⟨codeOf (calls.take k) ++ front, codeOf (calls.drop (k + 1)), ?_, ?_⟩
      · simp only [correct.buffer, whole, code, List.append_assoc]
      · rw [upTo, code, List.append_assoc]
    · have none : calls.countP JitCall.isLoadf = 0 := by
        apply List.countP_eq_zero.mpr
        intro call member
        simp [(keeps call member).2]
      exact List.length_eq_zero_iff.mp (correct.elsewhere.trans none)

theorem linkTables_describe_unlinked :
    Describes 0x1000 [.add 3 12 13, .jump (-1), .branch 3 12 0, .loadf4 0 12 8]
      (JitParsing.start.performCalls 0x1000 { buffer := fun _ => 0, info1 := fun _ => 0 }
        [.add 3 12 13, .jump (-1), .branch 3 12 0, .loadf4 0 12 8]) := by
  have describes := (linkTables_describe_iff
    [.add 3 12 13, .jump (-1), .branch 3 12 0, .loadf4 0 12 8] (by decide)).mpr
      (by simp [JitCall.KeepsTables])
  exact describes 0x1000 { buffer := fun _ => 0, info1 := fun _ => 0 }

theorem linkTables_jump_miscounts : ¬ ∀ calls : List JitCall, calls.length < 65536 →
    ∀ base leftover,
      Describes base calls (JitParsing.start.performCalls base leftover calls) := by
  intro describe
  have described := describe [.jump 5] (by decide) 0 { buffer := fun _ => 0, info1 := fun _ => 0 }
  have counts := described.info2
  revert counts
  decide

end Jit
