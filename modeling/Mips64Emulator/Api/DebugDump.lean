import Mips64Emulator.Core.Emulator
import Mips64Emulator.Shared.Columns

set_option autoImplicit false

namespace Mips64

open Columns

/-- The registers a dump shows. Register 0 is shown as zero whatever its cell holds. -/
@[ext] structure Snapshot where
  pc : BitVec 64
  gpr : Fin gprCount → BitVec 64
  zero : gpr 0 = 0

namespace Snapshot

def of (emulator : Emulator) : Snapshot where
  pc := emulator.cpu.pc
  gpr := Function.update emulator.cpu.gpr 0 0
  zero := Function.update_self 0 0 emulator.cpu.gpr

theorem of_surjective (snapshot : Snapshot) : ∃ emulator, of emulator = snapshot := by
  obtain ⟨pc, gpr, zero⟩ := snapshot
  refine ⟨⟨⟨0, 0, .big, 0⟩, .null, 0, ⟨gpr, pc, 0, 0⟩⟩, ?_⟩
  ext1
  · rfl
  · exact Function.update_eq_self_iff.mpr zero.symm

def values (snapshot : Snapshot) : List Nat :=
  snapshot.pc.toNat :: (List.finRange gprCount).map fun index => (snapshot.gpr index).toNat

def ofValues (values : List Nat) : Option Snapshot :=
  let gpr (index : Fin gprCount) : BitVec 64 := BitVec.ofNat 64 (values.getD (index + 1) 0)
  if zero : gpr 0 = 0 then
    let snapshot : Snapshot := ⟨BitVec.ofNat 64 (values.getD 0 0), gpr, zero⟩
    if snapshot.values = values then some snapshot else none
  else none

theorem ofValues_iff (values : List Nat) (snapshot : Snapshot) :
    ofValues values = some snapshot ↔ snapshot.values = values := by
  constructor
  · intro read
    simp only [ofValues, Option.dite_none_right_eq_some, Option.ite_none_right_eq_some,
      Option.some.injEq] at read
    obtain ⟨zero, same, rfl⟩ := read
    exact same
  · rintro rfl
    have pc : BitVec.ofNat 64 (snapshot.values.getD 0 0) = snapshot.pc := by simp [values]
    have gpr : (fun index : Fin gprCount =>
        BitVec.ofNat 64 (snapshot.values.getD (index + 1) 0)) = snapshot.gpr := by
      funext index
      simp [values]
    have zero := (congrFun gpr 0).trans snapshot.zero
    simp only [ofValues, pc, gpr, if_true]
    exact dif_pos zero

end Snapshot

section Lines

def headerColumns : List Column :=
  [.text (coreName ++ " " ++ coreVersionString ++ "\nPC = 0x").toList,
    .number 64 .hexadecimal, .text ['\n']]

def registerColumns (index : Fin gprCount) : List Column :=
  [.text ("r" ++ padded 2 10 index ++ " = 0x").toList, .number 16 .hexadecimal, .text ['\n']]

def dumpColumns : List Column := headerColumns ++ (List.finRange gprCount).flatMap registerColumns

def readDump (text : List Char) : Option Snapshot := (read dumpColumns text).bind Snapshot.ofValues

theorem padded_toList (radix : Radix) (width value : Nat)
    (fits : value < radix.base ^ (width + 1)) :
    (padded (width + 1) radix.base value).toList = numeral radix (width + 1) value := by
  rw [padded, String.toList_ofList, toDigits_leftpad radix width value fits]

def headerLine (pc : BitVec 64) : String :=
  coreName ++ " " ++ coreVersionString ++ "\nPC = 0x" ++ padded 64 16 pc.toNat ++ "\n"

def registerLine (index : Fin gprCount) (value : BitVec 64) : String :=
  "r" ++ padded 2 10 index ++ " = 0x" ++ padded 16 16 value.toNat ++ "\n"

def Snapshot.lines (snapshot : Snapshot) : List String :=
  headerLine snapshot.pc ::
    (List.finRange gprCount).map fun index => registerLine index (snapshot.gpr index)

theorem debugLines_correct (emulator : Emulator) :
    debugLines emulator = (Snapshot.of emulator).lines := by
  have shown : ∀ index : Fin gprCount,
      (if index = 0 then 0 else emulator.cpu.gpr index) = (Snapshot.of emulator).gpr index :=
    fun index => (Function.update_apply emulator.cpu.gpr 0 0 index).symm
  simp only [debugLines, shown]
  rfl

theorem headerLine_printed (pc : BitVec 64) :
    print headerColumns [pc.toNat] = some (headerLine pc).toList := by
  have fits : pc.toNat < Radix.hexadecimal.base ^ 64 :=
    Nat.lt_of_lt_of_le pc.isLt (by decide)
  have shown := padded_toList .hexadecimal 63 pc.toNat fits
  simp only [headerColumns, print, fits, if_true, Option.map_some, headerLine, ← shown,
    String.toList_append]
  simp [Radix.hexadecimal]

theorem registerLine_printed (index : Fin gprCount) (value : BitVec 64) :
    print (registerColumns index) [value.toNat] = some (registerLine index value).toList := by
  have fits : value.toNat < Radix.hexadecimal.base ^ 16 := value.isLt
  have shown := padded_toList .hexadecimal 15 value.toNat fits
  simp only [registerColumns, print, fits, if_true, Option.map_some, registerLine, ← shown,
    String.toList_append]
  simp [Radix.hexadecimal]

namespace Snapshot

variable (snapshot : Snapshot)

theorem lines_printed :
    print dumpColumns snapshot.values = some (snapshot.lines.flatMap String.toList) := by
  rw [lines, List.flatMap_cons, List.flatMap_map]
  exact print_append (headerLine_printed _)
    (print_flatMap registerColumns _ _ _ fun index _ => registerLine_printed index _)

theorem lines_length : snapshot.lines.length = gprCount + 1 := by
  rw [lines, List.length_cons, List.length_map, List.length_finRange]

-- The widest line is the first, of 94 characters.
theorem lines_short : ∀ line ∈ snapshot.lines, line.length < 128 := by
  simp only [lines, List.mem_cons, List.mem_map, List.mem_finRange, true_and]
  rintro line (rfl | ⟨index, rfl⟩)
  · rw [← String.length_toList, print_length (headerLine_printed snapshot.pc)]
    decide
  · rw [← String.length_toList, print_length (registerLine_printed index _)]
    revert index
    decide

end Snapshot

end Lines

theorem writeLines_short (lines : List String) (short : ∀ line ∈ lines, line.length < 128) :
    writeLines lines = (.ok, lines) := by
  induction lines with
  | nil => rfl
  | cons line rest ih =>
    have fits : ¬ line.length ≥ 128 := Nat.not_le.mpr (short line List.mem_cons_self)
    rw [writeLines, if_neg fits, ih fun later member => short later (List.mem_cons_of_mem _ member)]

theorem debugDump_correct (emulator : Emulator) :
    debugDump (.ref emulator) (.ref ()) = (.ok, (Snapshot.of emulator).lines) := by
  rw [debugDump, debugLines_correct]
  exact writeLines_short _ (Snapshot.of emulator).lines_short

theorem readDump_iff (text : List Char) (snapshot : Snapshot) :
    readDump text = some snapshot ↔ print dumpColumns snapshot.values = some text := by
  simp only [readDump, Option.bind_eq_some_iff, read_iff, Snapshot.ofValues_iff, exists_eq_right']

theorem Snapshot.lines_injective {first second : Snapshot} (same : first.lines = second.lines) :
    first = second := by
  have read := (readDump_iff _ _).mpr first.lines_printed
  rw [same, (readDump_iff _ _).mpr second.lines_printed] at read
  exact (Option.some.inj read).symm

/-- Every dump is written whole and shows each register; the dumps are exactly the texts that read
as such registers. -/
theorem debugDump_reads_back :
    (∀ emulator : Emulator, ∃ lines,
      debugDump (.ref emulator) (.ref ()) = (.ok, lines) ∧
        lines.length = gprCount + 1 ∧ (∀ line ∈ lines, line.length < 128) ∧
        readDump (lines.flatMap String.toList) = some (Snapshot.of emulator)) ∧
    ∀ text snapshot, readDump text = some snapshot →
      ∃ emulator lines, Snapshot.of emulator = snapshot ∧
        debugDump (.ref emulator) (.ref ()) = (.ok, lines) ∧
        lines.flatMap String.toList = text := by
  constructor
  · intro emulator
    let snapshot := Snapshot.of emulator
    have shown := (readDump_iff _ _).mpr snapshot.lines_printed
    exact ⟨_, debugDump_correct emulator, snapshot.lines_length, snapshot.lines_short, shown⟩
  · intro text snapshot read
    obtain ⟨emulator, rfl⟩ := snapshot.of_surjective
    have printed := (readDump_iff _ _).mp read
    rw [Snapshot.lines_printed, Option.some.injEq] at printed
    exact ⟨emulator, _, rfl, debugDump_correct emulator, printed⟩

end Mips64
