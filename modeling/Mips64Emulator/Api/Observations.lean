import Mips64Emulator.Api.AbstractMachine
import Mips64Emulator.Api.MachineReset

set_option autoImplicit false

namespace Mips64

open Transducer

theorem truth_eq_zero_iff (bytes : List (BitVec 8)) :
    truth bytes = 0 ↔ ∀ byte ∈ bytes, byte = 0 := by
  rw [truth]
  by_cases every : ∀ byte ∈ bytes, byte = 0
  · rw [if_pos every]
    exact ⟨fun _ => every, fun _ => rfl⟩
  · rw [if_neg every]
    exact ⟨fun one => absurd one (by decide), fun all => absurd all every⟩

section Words

variable (memory : List (BitVec 8)) (start : Nat) (inside : start + 4 ≤ memory.length)

include inside

theorem truth_slice_eq_zero_iff :
    truth (Splice.slice memory start 4) = 0 ↔
      ∀ index, start ≤ index → index < start + 4 → memory[index]? = some 0 := by
  rw [truth_eq_zero_iff]
  constructor
  · intro every index above below
    have within : index < memory.length := by omega
    rw [List.getElem?_eq_getElem within, Option.some.injEq]
    apply every
    rw [Splice.slice, List.mem_take_iff_getElem]
    refine ⟨index - start, by rw [List.length_drop]; omega, ?_⟩
    simp only [List.getElem_drop, Nat.add_sub_cancel' above]
  · intro every byte member
    obtain ⟨offset, within, rfl⟩ := List.mem_take_iff_getElem.mp member
    have stored := every (start + offset) (by omega) (by omega)
    rw [List.getElem_drop]
    exact List.getElem_of_getElem? stored |>.2

end Words

theorem truth_congr {first second : List (BitVec 8)} (same : truth first = 0 ↔ truth second = 0) :
    truth first = truth second := by
  rw [truth_eq_zero_iff, truth_eq_zero_iff] at same
  simp only [truth, same]

/-- The machines agree, byte for byte only on which bytes of each whole word are zero. -/
structure Machine.Similar (first second : Machine) : Prop where
  resetPc : first.resetPc = second.resetPc
  pc : first.pc = second.pc
  frame : first.frame = second.frame
  length : first.memory.length = second.memory.length
  zeros : ∀ index < 4 * (first.memory.length / 4),
    first.memory[index]? = some 0 ↔ second.memory[index]? = some 0

namespace Machine

namespace Similar

variable {first second : Machine} (similar : Similar first second)

include similar

theorem put (start : Nat) (bytes : List (BitVec 8))
    (fits : start + bytes.length ≤ first.memory.length) :
    Similar (first.put start bytes) (second.put start bytes) where
  resetPc := similar.resetPc
  pc := similar.pc
  frame := similar.frame
  length := by
    have fitsOther := similar.length ▸ fits
    simp only [Machine.put, Splice.splice_length _ _ _ fits, Splice.splice_length _ _ _ fitsOther,
      similar.length]
  zeros index inside := by
    have fitsOther := similar.length ▸ fits
    simp only [Machine.put, Splice.splice_length _ _ _ fits] at inside ⊢
    have within : index < first.memory.length := by omega
    rw [Splice.splice_getElem? _ _ _ fits index within,
      Splice.splice_getElem? _ _ _ fitsOther index (similar.length ▸ within)]
    cases Overlay.range start bytes index with
    | none => exact similar.zeros index inside
    | some byte => rfl

theorem jump (pc : BitVec 64) (aligned : 4 ∣ pc.toNat) :
    Similar (first.jump pc aligned) (second.jump pc aligned) :=
  ⟨similar.resetPc, rfl, similar.frame, similar.length, similar.zeros⟩

theorem reset : Similar first.reset second.reset :=
  ⟨similar.resetPc, rfl, similar.resetPc, rfl, fun _ _ => Iff.rfl⟩

theorem beyond_iff : first.beyond ↔ second.beyond := by
  rw [beyond, beyond, similar.length, similar.pc]

theorem status_eq : first.status = second.status := by
  simp only [status, similar.beyond_iff]

theorem word_eq : first.word = second.word := by
  have aligned := first.aligned
  simp only [word, similar.beyond_iff, ← similar.pc]
  split
  · rfl
  next within =>
    have inside : first.pc.toNat + 4 ≤ first.memory.length :=
      Nat.le_of_not_lt (mt similar.beyond_iff.mp within)
    apply truth_congr
    rw [truth_slice_eq_zero_iff _ _ inside, truth_slice_eq_zero_iff _ _ (similar.length ▸ inside)]
    refine forall_congr' fun index => imp_congr_right fun above => imp_congr_right fun below => ?_
    exact similar.zeros index (by omega)

theorem report_eq : first.report = second.report := by
  simp only [report, similar.pc, similar.word_eq, similar.beyond_iff]

theorem summary_eq (maxSteps : BitVec 64) : first.summary maxSteps = second.summary maxSteps := by
  simp only [summary, runStatus, similar.pc, similar.status_eq]

theorem snapshot_eq : first.snapshot = second.snapshot := by
  simp only [snapshot, similar.pc, similar.frame]

theorem store_matches (address : BitVec 64) (data : Ptr (List (BitVec 8))) (size : BitVec 64) :
    Matches Similar (first.store address data size) (second.store address data size) := by
  simp only [store, ← similar.length]
  cases valid : payload data size with
  | some bytes =>
    dsimp only
    split
    next inside => exact .same (similar.put _ _ (payload_length valid ▸ inside))
    next => exact .same similar
  | none =>
    dsimp only
    split
    · exact .same similar
    · split
      · exact .fault
      · exact .same similar

theorem setPc_matches (pc : BitVec 64) :
    Matches Similar (some (first.setPc pc)) (some (second.setPc pc)) := by
  simp only [setPc]
  split
  next aligned => exact .same (similar.jump pc aligned)
  next => exact .same similar

theorem load_matches (image : ProgramImage) :
    Matches Similar (first.load image) (second.load image) := by
  rw [load, load]
  rcases (similar.store_matches image.loadAddress image.data image.size).split with
    ⟨faults, faultsOther⟩ | ⟨status, stored, storedOther, wrote, wroteOther, kept⟩
  · rw [faults, faultsOther]
    exact .fault
  · rw [wrote, wroteOther]
    simp only [Option.map_some]
    split
    · exact kept.setPc_matches image.entryPoint
    · exact .same kept

theorem answer_matches (call : Call) :
    Matches Similar (first.answer call) (second.answer call) := by
  cases call with
  | loadProgram image =>
    cases image with
    | null => exact .same similar
    | ref image => exact (similar.load_matches image).map Response.status
  | writeMemory address data size =>
    exact (similar.store_matches address data size).map Response.status
  | readMemory address out size => cases out <;> exact .same similar
  | setPc pc => exact (similar.setPc_matches pc).map Response.status
  | getPc out =>
    cases out with
    | null => exact .same similar
    | ref value =>
      rw [answer, answer, similar.pc]
      exact .same similar
  | setGpr index value => exact .same similar
  | getGpr index out => exact .same similar
  | step outInfo =>
    rw [answer, answer, similar.status_eq, similar.report_eq]
    exact .same similar
  | runProgram maxSteps outInfo =>
    rw [answer, answer, runStatus, runStatus, similar.status_eq, similar.summary_eq]
    exact .same similar
  | debugDump writeFn =>
    cases writeFn with
    | null => exact .same similar
    | ref sink =>
      rw [answer, answer, similar.snapshot_eq]
      exact .same similar
  | machineReset status => exact .same similar.reset

end Similar

def clear (machine : Machine) (start count : Nat) : Machine :=
  machine.put start (List.replicate count 0)

section Experiments

theorem store_nothing (machine : Machine) (address : BitVec 64) :
    machine.store address .null 0 =
      some (if address.toNat ≤ machine.memory.length then .ok else .addressOutOfRange, machine) := by
  have nothing : machine.put address.toNat [] = machine := by
    simp [put, Splice.splice]
  rw [store, payload_empty]
  by_cases inside : address.toNat ≤ machine.memory.length <;> simp [inside, nothing]

theorem store_zeros (machine : Machine) (start count : Nat)
    (bounded : machine.memory.length < 2 ^ 64) (inside : start + count ≤ machine.memory.length) :
    machine.store (.ofNat 64 start) (.ref (List.replicate count 0)) (.ofNat 64 count) =
      some (.ok, machine.clear start count) := by
  have startSmall : (BitVec.ofNat 64 start).toNat = start := Nat.mod_eq_of_lt (by omega)
  have countSmall : (BitVec.ofNat 64 count).toNat = count := Nat.mod_eq_of_lt (by omega)
  have valid : payload (.ref (List.replicate count 0)) (.ofNat 64 count) =
      some (List.replicate count 0) := by
    simp only [payload, countSmall, List.length_replicate, Nat.le_refl, if_true,
      List.take_replicate, Nat.min_self]
  rw [store, valid, startSmall, countSmall]
  exact if_pos inside

theorem clear_length (machine : Machine) (start count : Nat)
    (inside : start + count ≤ machine.memory.length) :
    (machine.clear start count).memory.length = machine.memory.length :=
  Splice.splice_length _ _ _ (by rwa [List.length_replicate])

theorem clear_getElem? (machine : Machine) (start count index : Nat)
    (inside : start + count ≤ machine.memory.length) (within : index < machine.memory.length) :
    (machine.clear start count).memory[index]? =
      if start ≤ index ∧ index < start + count then some 0 else machine.memory[index]? := by
  rw [clear, put, Splice.splice_getElem? _ _ _ (by rwa [List.length_replicate]) index within]
  by_cases covered : start ≤ index ∧ index < start + count
  · rw [if_pos covered, Overlay.range, if_pos covered.1,
      List.getElem?_replicate_of_lt (by omega)]
    rfl
  · rw [if_neg covered, Overlay.range_misses _ _ _ (by rw [List.length_replicate]; omega)]
    rfl

def isolate (machine : Machine) (start index : Nat) : Machine :=
  (machine.clear start (index - start)).clear (index + 1) (start + 3 - index)

theorem isolate_word (machine : Machine) (start index : Nat) (above : start ≤ index)
    (below : index < start + 4) (inside : start + 4 ≤ machine.memory.length) :
    truth (Splice.slice (machine.isolate start index).memory start 4) = 0 ↔
      machine.memory[index]? = some 0 := by
  have front : start + (index - start) ≤ machine.memory.length := by omega
  have length := clear_length machine start (index - start) front
  have back : index + 1 + (start + 3 - index) ≤
      (machine.clear start (index - start)).memory.length := by omega
  have whole : (machine.isolate start index).memory.length = machine.memory.length :=
    (clear_length _ _ _ back).trans length
  rw [truth_slice_eq_zero_iff _ _ (whole ▸ inside)]
  have byte (position : Nat) (within : position < start + 4) (from_start : start ≤ position) :
      (machine.isolate start index).memory[position]? =
        if position = index then machine.memory[index]? else some 0 := by
    rw [isolate, clear_getElem? _ _ _ _ back (by omega), clear_getElem? _ _ _ _ front (by omega)]
    by_cases here : position = index
    · subst here
      rw [if_neg (by omega), if_neg (by omega), if_pos rfl]
    · rw [if_neg here]
      split
      · rfl
      · rw [if_pos (by omega)]
  constructor
  · intro zero
    have shown := zero index above below
    rwa [byte index below above, if_pos rfl] at shown
  · intro zero position from_start within
    rw [byte position within from_start, zero, ite_self]

end Experiments

section Alike

variable {first second : Machine} (alike : Alike answer answer first second)

include alike

theorem snapshot_of_alike : first.snapshot = second.snapshot := by
  have shown := (alike.next (.debugDump (.ref ())) rfl rfl).1
  exact Snapshot.lines_injective (Response.dump.inj shown).2

theorem pc_of_alike : first.pc = second.pc :=
  congrArg Snapshot.pc (snapshot_of_alike alike)

theorem frame_of_alike : first.frame = second.frame := by
  have shown := congrFun (congrArg Snapshot.gpr (snapshot_of_alike alike)) 30
  simpa [snapshot] using shown

-- A reset brings the pc it was given into the register that shows.
theorem resetPc_of_alike : first.resetPc = second.resetPc :=
  frame_of_alike (alike.next (.machineReset .ok) rfl rfl).2

theorem length_le_of_alike (bounded : first.memory.length < 2 ^ 64) :
    first.memory.length ≤ second.memory.length := by
  let last := BitVec.ofNat 64 first.memory.length
  have small : last.toNat = first.memory.length := Nat.mod_eq_of_lt bounded
  have stored := store_nothing first last
  have storedOther := store_nothing second last
  have agreed := (alike.next (.writeMemory last .null 0)
    (by rw [answer, stored]; rfl) (by rw [answer, storedOther]; rfl)).1
  by_contra short
  simp [small, short] at agreed

theorem length_of_alike (bounded : first.memory.length < 2 ^ 64)
    (boundedOther : second.memory.length < 2 ^ 64) :
    first.memory.length = second.memory.length :=
  Nat.le_antisymm (length_le_of_alike alike bounded) (length_le_of_alike alike.symm boundedOther)

theorem word_of_alike : first.word = second.word := by
  have shown := (alike.next (.step (.ref first.report)) rfl rfl).1
  exact congrArg StepInfo.instruction (Ptr.ref.inj (Response.step.inj shown).2)

theorem jump_of_alike (pc : BitVec 64) (aligned : 4 ∣ pc.toNat) :
    Alike answer answer (first.jump pc aligned) (second.jump pc aligned) := by
  have moves (machine : Machine) :
      machine.answer (.setPc pc) = some (.status .ok, machine.jump pc aligned) := by
    rw [answer, setPc, dif_pos aligned]
  exact (alike.next (.setPc pc) (moves first) (moves second)).2

theorem clear_of_alike (start count : Nat) (bounded : first.memory.length < 2 ^ 64)
    (length : first.memory.length = second.memory.length)
    (inside : start + count ≤ first.memory.length) :
    Alike answer answer (first.clear start count) (second.clear start count) := by
  let request := Call.writeMemory (.ofNat 64 start) (.ref (List.replicate count 0)) (.ofNat 64 count)
  have writes (machine : Machine) (same : first.memory.length = machine.memory.length) :
      machine.answer request = some (.status .ok, machine.clear start count) := by
    rw [answer, store_zeros machine start count (same ▸ bounded) (same ▸ inside)]
    rfl
  exact (alike.next request (writes first rfl) (writes second length)).2

theorem zeros_of_alike (bounded : first.memory.length < 2 ^ 64)
    (length : first.memory.length = second.memory.length) (index : Nat)
    (inside : index < 4 * (first.memory.length / 4)) :
    first.memory[index]? = some 0 ↔ second.memory[index]? = some 0 := by
  let start := 4 * (index / 4)
  have above : start ≤ index := Nat.mul_div_le index 4
  have below : index < start + 4 := by omega
  have whole : start + 4 ≤ first.memory.length := by omega
  have small : (BitVec.ofNat 64 start).toNat = start := Nat.mod_eq_of_lt (by omega)
  have aligned : 4 ∣ (BitVec.ofNat 64 start).toNat := small.symm ▸ Nat.dvd_mul_right 4 _
  -- The rest of the word is cleared and the word fetched.
  have front := clear_of_alike alike start (index - start) bounded length (by omega)
  have frontLength (machine : Machine) (same : first.memory.length = machine.memory.length) :
      (machine.clear start (index - start)).memory.length = first.memory.length :=
    (clear_length machine _ _ (by omega)).trans same.symm
  have back := clear_of_alike front (index + 1) (start + 3 - index)
    ((frontLength first rfl).symm ▸ bounded)
    ((frontLength first rfl).trans (frontLength second length).symm)
    (by rw [frontLength first rfl]; omega)
  have fetched := word_of_alike (jump_of_alike back (.ofNat 64 start) aligned)
  have word (machine : Machine) (same : first.memory.length = machine.memory.length) :
      ((machine.isolate start index).jump (.ofNat 64 start) aligned).word = 0 ↔
        machine.memory[index]? = some 0 := by
    have reach : start + 4 ≤ machine.memory.length := same ▸ whole
    have kept : (machine.isolate start index).memory.length = machine.memory.length := by
      rw [isolate, clear_length _ _ _ (by rw [frontLength machine same]; omega),
        frontLength machine same, same]
    have within : ¬ ((machine.isolate start index).jump (.ofNat 64 start) aligned).beyond := by
      rw [beyond, jump, small, kept]
      omega
    rw [Machine.word, if_neg within, jump, small]
    exact isolate_word machine start index above below reach
  rw [← word first rfl, ← word second length]
  exact Eq.congr_left fetched

end Alike

theorem alike_iff {first second : Machine} (bounded : first.memory.length < 2 ^ 64)
    (boundedOther : second.memory.length < 2 ^ 64) :
    Alike answer answer first second ↔ Similar first second := by
  constructor
  · intro alike
    have length := length_of_alike alike bounded boundedOther
    exact ⟨resetPc_of_alike alike, pc_of_alike alike, frame_of_alike alike, length,
      zeros_of_alike alike bounded length⟩
  · exact alike_of_matches Similar fun _ _ call similar => similar.answer_matches call

end Machine

section Emulators

theorem reachable_refers {config : Config} {emulator : Emulator}
    (reachable : Reachable config emulator) : ∃ machine, Represents machine emulator := by
  obtain ⟨first, calls, responses, created, ran⟩ := reachable
  obtain ⟨valid, refers⟩ := created_refers created
  have matched := run_matches Refers refers_matches refers calls
  rw [ran] at matched
  rcases matched.split with ⟨faults, -⟩ | ⟨_, _, machine, same, -, object, refers, represents⟩
  · cases faults
  · cases same
    cases refers
    exact ⟨machine, represents⟩

theorem Represents.alike {machine : Machine} {emulator : Emulator}
    (represents : Represents machine emulator) :
    Alike Call.apply Machine.answer (.ref emulator) machine :=
  alike_of_matches Refers refers_matches represents.refers

theorem Represents.bounded {machine : Machine} {emulator : Emulator}
    (represents : Represents machine emulator) : machine.memory.length < 2 ^ 64 :=
  represents.size ▸ emulator.memorySize.isLt

theorem Represents.frame {machine : Machine} {emulator : Emulator}
    (represents : Represents machine emulator) : emulator.cpu.gpr 30 = machine.frame := by
  rw [represents.gpr, Function.update_self]

/-- No sequence of calls tells two emulators apart just when they agree on the size, the pc, the
reset pc, what a reset left in register 30, and which bytes of the whole words are zero. The byte
order, the flag and the bytes themselves are out of reach. -/
theorem emulators_alike_iff {config configOther : Config} {emulator other : Emulator}
    (reachable : Reachable config emulator) (reachableOther : Reachable configOther other) :
    Alike Call.apply Call.apply (.ref emulator) (.ref other) ↔
      emulator.config.resetPc = other.config.resetPc ∧ emulator.cpu.pc = other.cpu.pc ∧
        emulator.cpu.gpr 30 = other.cpu.gpr 30 ∧ emulator.memorySize = other.memorySize ∧
        ∀ index < 4 * (emulator.memorySize.toNat / 4),
          emulator.buffer[index]? = some 0 ↔ other.buffer[index]? = some 0 := by
  obtain ⟨machine, represents⟩ := reachable_refers reachable
  obtain ⟨machineOther, representsOther⟩ := reachable_refers reachableOther
  have lowered : Alike Call.apply Call.apply (.ref emulator) (.ref other) ↔
      Alike Machine.answer Machine.answer machine machineOther :=
    ⟨fun alike => (represents.alike.symm.trans alike).trans representsOther.alike,
      fun alike => (represents.alike.trans alike).trans representsOther.alike.symm⟩
  have sizes : emulator.memorySize = other.memorySize ↔
      machine.memory.length = machineOther.memory.length := by
    rw [BitVec.toNat_eq, represents.size, representsOther.size]
  rw [lowered, Machine.alike_iff represents.bounded representsOther.bounded, represents.resetPc,
    representsOther.resetPc, represents.pc, representsOther.pc, represents.frame,
    representsOther.frame, sizes, represents.size, represents.buffer, representsOther.buffer]
  exact ⟨fun similar =>
      ⟨similar.resetPc, similar.pc, similar.frame, similar.length, similar.zeros⟩,
    fun ⟨resetPc, pc, frame, length, zeros⟩ => ⟨resetPc, pc, frame, length, zeros⟩⟩

theorem written_reachable (config : Config) (valid : config.Valid) (bytes : List (BitVec 8))
    (fits : bytes.length ≤ config.memorySize.toNat) :
    Reachable config ((fresh config).splice 0 bytes) := by
  have small : (BitVec.ofNat 64 bytes.length).toNat = bytes.length :=
    Nat.mod_eq_of_lt (by omega)
  have readable : payload (.ref bytes) (.ofNat 64 bytes.length) = some bytes := by
    simp only [payload, small, Nat.le_refl, if_true, List.take_length]
  have inside : (0#64).toNat + (BitVec.ofNat 64 bytes.length).toNat ≤
      (fresh config).memorySize.toNat := by
    rwa [small, BitVec.toNat_zero, Nat.zero_add]
  have wrote := writeMemory_valid (fresh_backed config) 0#64 (.ref bytes) _ bytes readable
  rw [if_pos inside] at wrote
  refine ⟨_, [.writeMemory 0#64 (.ref bytes) (.ofNat 64 bytes.length)], [.status .ok],
    (created_iff _ _).mpr ⟨valid, rfl⟩, ?_⟩
  exact (run_cons _ _ _ _ _).mpr ⟨_, _, _, by rw [Call.apply, wrote]; rfl, rfl, rfl⟩

-- Opposite byte orders, opposite flags and different bytes.
theorem emulators_alike_bytes :
    let little : Config :=
      { memorySize := 5, resetPc := 4, endian := .little, clearMemoryOnReset := 0 }
    let big : Config := { memorySize := 5, resetPc := 4, endian := .big, clearMemoryOnReset := 1 }
    Alike Call.apply Call.apply (.ref ((fresh little).splice 0 [1#8, 0#8, 2#8]))
      (.ref ((fresh big).splice 0 [3#8, 0#8, 4#8, 0#8, 5#8])) := by
  intro little big
  exact (emulators_alike_iff (written_reachable little (by decide) _ (by decide))
    (written_reachable big (by decide) _ (by decide))).mpr ⟨rfl, rfl, rfl, rfl, by decide⟩

end Emulators

end Mips64
