import Mathlib.Tactic.SplitIfs
import Mips64Emulator.Jit.Emitter

set_option autoImplicit false

namespace Jit

open X86 EncoderUse

namespace EncoderUse

def opi32Opcodes : List Byte := [0xE8, 0xE9]

def op0Opcodes : List Byte := [0x94, 0x97, 0x9C, 0xB6]

def rrOpcodes : List Byte := [0x01, 0x09, 0x21, 0x29, 0x31, 0x39, 0x89]

def rrRows : List (Byte × BitVec 32) := [(0xD3, 0b100), (0xD3, 0b111), (0xF7, 0b111), (0xFF, 0b010)]

def rr0Opcodes : List (Byte × Bool) :=
  [(0x10, false), (0x2E, false), (0x58, false), (0x59, false), (0x5C, false), (0x5D, false),
    (0x5E, false), (0x5F, false), (0xAF, true)]

def rrfOpcodes : List (Byte × Byte × Bool) :=
  [(0x66, 0xEF, false), (0xF3, 0x10, false), (0xF3, 0x2A, true), (0xF3, 0x2D, true),
    (0xF3, 0x58, false), (0xF3, 0x59, false), (0xF3, 0x5C, false), (0xF3, 0x5D, false),
    (0xF3, 0x5E, false), (0xF3, 0x5F, false)]

def rmfOpcodes : List Byte := [0x10, 0x11]

def ri8Rows : List (Byte × BitVec 32) := [(0x83, 0b111), (0xC1, 0b100), (0xC1, 0b111)]

def accessOpcodes : List Byte := [0x89, 0x8B]

def Known : EncoderUse → Prop
  | opi32 opcode _ => opcode ∈ opi32Opcodes
  | op0 opcode dest src => opcode ∈ op0Opcodes ∧ dest = raxInt ∧ src = al
  | rr opcode _ src op64 => (opcode ∈ rrOpcodes ∨ (opcode, src) ∈ rrRows) ∧ op64 = true
  | rr0 opcode _ _ mod op64 => (opcode, op64) ∈ rr0Opcodes ∧ mod = 3
  | rrf legacy opcode _ _ op64 => (legacy, opcode, op64) ∈ rrfOpcodes
  | rmf opcode _ _ _ | rmf4 opcode _ _ _ => opcode ∈ rmfOpcodes
  | ri8 opcode _ src _ mod op64 => (opcode, src) ∈ ri8Rows ∧ mod = 3 ∧ op64 = true
  | ri32 opcode _ src _ mod op64 =>
    opcode = 0xC7 ∧ src = 0b000 ∧ mod = 3 ∧ op64 = true ∨ opcode ∈ accessOpcodes ∧ mod = 2
  | jz _ | jnz _ | push _ | pop _ | cdq | ret => True

end EncoderUse

def AllKnown (uses : List EncoderUse) : Prop := ∀ use ∈ uses, use.Known

@[simp] theorem allKnown_nil : AllKnown [] := by
  simp [AllKnown]

@[simp] theorem allKnown_cons (use : EncoderUse) (rest : List EncoderUse) :
    AllKnown (use :: rest) ↔ use.Known ∧ AllKnown rest := by
  simp [AllKnown]

@[simp] theorem allKnown_append (uses others : List EncoderUse) :
    AllKnown (uses ++ others) ↔ AllKnown uses ∧ AllKnown others := by
  simp [AllKnown, or_imp, forall_and]

section Emitters

variable {uses : List EncoderUse} {use : EncoderUse} (d s t : BitVec 32)

theorem recorded_known (known : AllKnown uses) :
    AllKnown ((recorded uses).filterMap JitAction.use?) := by
  rwa [recorded_uses]

theorem linked_known (condition : Prop) [Decidable condition] (known : AllKnown uses) :
    AllKnown ((JitAction.info :: if condition then linked uses else []).filterMap
      JitAction.use?) := by
  by_cases taken : condition <;>
    simp [taken, List.filterMap_cons, JitAction.use?, known]

theorem when_known (condition : Prop) [Decidable condition] (known : AllKnown uses) :
    AllKnown (if condition then uses else []) := by
  by_cases taken : condition <;> simp [taken, known]

theorem onlyIf_known (condition : Prop) [Decidable condition] (known : use.Known) :
    AllKnown (onlyIf condition use) := by
  by_cases taken : condition <;> simp [onlyIf, taken, known]

theorem rr_known {opcode : Byte} (known : opcode ∈ rrOpcodes) (dest src : BitVec 32) :
    (rr opcode dest src true).Known := ⟨.inl known, rfl⟩

theorem rr_row_known {opcode : Byte} {row : BitVec 32} (known : (opcode, row) ∈ rrRows)
    (dest : BitVec 32) : (rr opcode dest row true).Known := ⟨.inr known, rfl⟩

theorem rr0_known {opcode : Byte} {op64 : Bool} (known : (opcode, op64) ∈ rr0Opcodes)
    (dest src : BitVec 32) : (rr0 opcode src dest 3 op64).Known := ⟨known, rfl⟩

theorem rrf_known {legacy opcode : Byte} {op64 : Bool} (known : (legacy, opcode, op64) ∈ rrfOpcodes)
    (dest src : BitVec 32) : (rrf legacy opcode dest src op64).Known := known

theorem ri8_row_known {opcode : Byte} {row : BitVec 32} (known : (opcode, row) ∈ ri8Rows)
    (dest im : BitVec 32) : (ri8 opcode dest row im 3 true).Known := ⟨known, rfl, rfl⟩

theorem access_known {opcode : Byte} {op64 : Bool} (known : opcode ∈ accessOpcodes)
    (dest src off : BitVec 32) : (ri32 opcode dest src off 2 op64).Known := .inr ⟨known, rfl⟩

theorem rmf_known {opcode : Byte} (known : opcode ∈ rmfOpcodes) (dest src off : BitVec 32) :
    (rmf opcode dest src off).Known := known

theorem rmf4_known {opcode : Byte} (known : opcode ∈ rmfOpcodes) (dest src off : BitVec 32) :
    (rmf4 opcode dest src off).Known := known

theorem mov_known (dest src : BitVec 32) : (mov dest src).Known := rr_known (by decide) dest src

theorem movi32_known (dest im : BitVec 32) : (movi32 dest im).Known := .inl ⟨rfl, rfl, rfl, rfl⟩

theorem outcome_known {compare last : EncoderUse} {opcode : Byte} (compares : compare.Known)
    (known : opcode ∈ op0Opcodes) (uses : last.Known) :
    AllKnown [compare, op0 opcode 0 al, movzx raxInt al, last] := by
  have set : (op0 opcode 0 al).Known := ⟨known, rfl, rfl⟩
  have widen : (movzx raxInt al).Known := ⟨by decide, rfl, rfl⟩
  simp only [allKnown_cons]
  exact ⟨compares, set, widen, uses, allKnown_nil⟩

theorem throughStackPointer_known {access : BitVec 32 → EncoderUse}
    (known : ∀ base, (access base).Known) : AllKnown (throughStackPointer access s) := by
  unfold throughStackPointer
  split <;> simp [known, mov_known]

theorem accessLike_known {access : BitVec 32 → BitVec 32 → BitVec 32 → EncoderUse}
    (known : ∀ d base o, (access d base o).Known) : AllKnown (accessLike access d s t) :=
  when_known _ (throughStackPointer_known s fun base => known d base t)

theorem addLike_known {op : BitVec 32 → BitVec 32 → EncoderUse}
    (known : ∀ dest src, (op dest src).Known) : AllKnown (addLike op d s t) := by
  unfold addLike
  split_ifs <;> simp [onlyIf_known, mov_known, movi32_known, known]

theorem logicalLike_known {op : BitVec 32 → BitVec 32 → EncoderUse}
    (known : ∀ dest src, (op dest src).Known) : AllKnown (logicalLike op d s t) := by
  unfold logicalLike
  split_ifs <;> simp [onlyIf_known, mov_known, movi32_known, known]

theorem shiftLike_known {shift : BitVec 32 → EncoderUse} (known : ∀ dest, (shift dest).Known) :
    AllKnown (shiftLike shift d s t) := by
  have saves (register : BitVec 32) : (push register).Known ∧ (pop register).Known :=
    ⟨trivial, trivial⟩
  unfold shiftLike
  split_ifs <;> simp [onlyIf_known, mov_known, movi32_known, known, saves]

theorem shiftImmediateLike_known {shift : BitVec 32 → BitVec 32 → EncoderUse}
    (known : ∀ dest im, (shift dest im).Known) : AllKnown (shiftImmediateLike shift d s t) := by
  unfold shiftImmediateLike
  split_ifs <;> simp [onlyIf_known, movi32_known, known]

theorem floatLike_known {move op : BitVec 32 → BitVec 32 → EncoderUse}
    (moveKnown : ∀ dest src, (move dest src).Known) (known : ∀ dest src, (op dest src).Known) :
    AllKnown ((floatLike move op d s t).filterMap JitAction.use?) := by
  simp [floatLike, onlyIf_known, moveKnown, known]

theorem comparison_known : (comparison s t).Known := by
  unfold comparison
  split_ifs
  · exact ri8_row_known (by decide) t 0
  · exact ri8_row_known (by decide) s 0
  · exact rr_known (by decide) s t

end Emitters

/-- Whatever the operands, the emitters use no other opcodes, rows and sizes than those of the
tables. -/
theorem JitCall.uses_known (call : JitCall) : AllKnown call.uses := by
  have loads : 0x10 ∈ rmfOpcodes := by decide
  have stores : 0x11 ∈ rmfOpcodes := by decide
  cases call with
  | load32 d s o | load64 d s o =>
    exact recorded_known (accessLike_known d s o fun d base o => access_known (by decide) base d o)
  | store32 d o s | store64 d o s =>
    exact recorded_known (accessLike_known d s o fun d s o => access_known (by decide) d o s)
  | loadf d s o =>
    have known : AllKnown (accessLike loadss d s o) :=
      accessLike_known d s o fun d base o => rmf_known loads base d o
    simpa [uses, actions, jitLoadf, List.filterMap_cons, JitAction.use?] using known
  | loadf4 d s o =>
    exact recorded_known (accessLike_known d s o fun d base o => rmf4_known (by decide) base d o)
  | storef d o s =>
    have known := throughStackPointer_known d fun base => rmf_known stores base s o
    exact recorded_known (when_known _ known)
  | storef4 d o s =>
    have known := throughStackPointer_known d fun base => rmf4_known stores base s o
    exact recorded_known (when_known _ known)
  | add d s t | sub d s t =>
    exact recorded_known (addLike_known d s t (rr_known (by decide)))
  | addi d s i =>
    refine recorded_known ?_
    split_ifs <;> simp [onlyIf_known, mov_known, movi32_known]
  | mul d s t =>
    have multiplies : (imul d t).Known := rr0_known (by decide) d t
    refine recorded_known ?_
    split_ifs <;> simp [onlyIf_known, mov_known, movi32_known, multiplies]
  | div d s t =>
    have saves (register : BitVec 32) : (push register).Known ∧ (pop register).Known :=
      ⟨trivial, trivial⟩
    have widens : cdq.Known := trivial
    have divides : (idiv64 t).Known := rr_row_known (by decide) t
    refine recorded_known ?_
    split_ifs <;> simp [mov_known, movi32_known, saves, widens, divides]
  | and d s t | or d s t | xor d s t =>
    exact recorded_known (logicalLike_known d s t (rr_known (by decide)))
  | shiftl d s t | shiftr d s t =>
    exact recorded_known (shiftLike_known d s t (rr_row_known (by decide)))
  | shiftli d s i | shiftri d s i =>
    exact recorded_known (shiftImmediateLike_known d s i (ri8_row_known (by decide)))
  | less d s t =>
    refine recorded_known ?_
    split_ifs
    · simp [movi32_known]
    · exact outcome_known (comparison_known s t) (by decide) (mov_known d raxInt)
    · exact allKnown_nil
  | jump o => exact linked_known _ (by simp [Known, jmp, opi32Opcodes])
  | branch s t o =>
    change AllKnown ((if s = t then _ else _ : List JitAction).filterMap _)
    split
    · exact linked_known _ (by simp [Known, jmp, opi32Opcodes])
    · exact linked_known _ (outcome_known (comparison_known s t) (by decide) trivial)
  | nbranch s t o =>
    exact linked_known _ (outcome_known (comparison_known s t) (by decide) trivial)
  | call o => exact linked_known _ (by simp [Known, calli32, opi32Opcodes])
  | callex s => exact recorded_known (onlyIf_known _ (rr_row_known (by decide) s))
  | «return» => exact recorded_known (by simp [Known])
  | itof d s =>
    refine recorded_known ((allKnown_cons _ _).mpr ⟨?_, ?_⟩)
    · exact rrf_known (by decide) d d
    · exact onlyIf_known _ (rrf_known (by decide) d s)
  | ftoi d s => exact recorded_known (onlyIf_known _ (rrf_known (by decide) d s))
  | addf d s t | subf d s t | mulf d s t | divf d s t | minf d s t | maxf d s t =>
    exact floatLike_known d s t (rrf_known (by decide)) (rrf_known (by decide))
  | addf4 d s t | subf4 d s t | mulf4 d s t | divf4 d s t | minf4 d s t | maxf4 d s t =>
    exact floatLike_known d s t (rr0_known (by decide)) (rr0_known (by decide))
  | lessf d s t =>
    have compares : (ucomiss s t).Known := rr0_known (by decide) s t
    exact recorded_known (outcome_known compares (by decide) (mov_known d raxInt))

end Jit
