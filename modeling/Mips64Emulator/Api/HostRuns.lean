import Mathlib.Data.List.Dedup
import Mips64Emulator.Api.HostObjects

set_option autoImplicit false

namespace Mips64

open Allocator

namespace Host

namespace Event

def called? : Event → Option Nat
  | .call (.ref handle) _ => some handle
  | _ => none

def reset? : Event → Option Nat
  | .call (.ref handle) (.machineReset _) => some handle
  | _ => none

def Allowed (host : Host) : Event → Prop
  | .create .. => True
  | .destroy emulator => host.Knows emulator
  | .call emulator request => host.Knows emulator ∧ request.Promised

theorem called?_of_reset? {event : Event} {handle : Nat} (reset : event.reset? = some handle) :
    event.called? = some handle := by
  cases event with
  | create _ _ _ _ => cases reset
  | destroy _ => cases reset
  | call emulator request =>
    cases emulator with
    | null => cases reset
    | ref other =>
      cases request with
      | machineReset status => exact reset
      | _ => cases reset

end Event

abbrev Trace : Type := List (Event × Answer)

def resets (trace : Trace) : List Nat := trace.filterMap fun entry => entry.1.reset?

def exchange? (handle : Nat) : Event × Answer → Option (Call × Response)
  | (.call (.ref other) call, .called response) =>
    if other = handle then some (call, response) else none
  | _ => none

def exchanges (handle : Nat) (trace : Trace) : List (Call × Response) :=
  trace.filterMap (exchange? handle)

/-- A run of these events creates the emulator at `handle`, with its memory in `block`. -/
def Houses (events : List Event) (handle block : Nat) : Prop :=
  ∃ earlier event later answers before after,
    events = earlier ++ event :: later ∧
    Transducer.run step empty earlier = some (answers, before) ∧
    before.step event = some (.created .ok (.ref (.ref handle)), after) ∧
    ∃ object ∈ after.objects, object.handle = handle ∧ object.memory = .ref block

theorem Houses.append {events : List Event} {handle block : Nat}
    (houses : Houses events handle block) (more : List Event) :
    Houses (events ++ more) handle block := by
  obtain ⟨earlier, event, later, answers, before, after, rfl, ran, created, held⟩ := houses
  refine ⟨earlier, event, later ++ more, answers, before, after, ?_, ran, created, held⟩
  rw [List.append_assoc, List.cons_append]

/-- The emulator is where its own calls have left it, from the configuration it was created with. -/
def Behaves (object : Object) (trace : Trace) : Prop :=
  ∃ (config : Config) (out : Ptr (Ptr Nat)),
    (Event.create true true (.ref config) out, Answer.created .ok (.ref (.ref object.handle))) ∈
      trace ∧
    config.Valid ∧
    Transducer.run Call.apply (.ref (fresh config)) ((exchanges object.handle trace).map Prod.fst) =
      some ((exchanges object.handle trace).map Prod.snd, .ref object.emulator)

/-- The live blocks are what can be reached and the memory of each emulator that has been reset. -/
structure Housing (trace : Trace) (host : Host) (memoryOf : Nat → Nat) : Prop where
  owns : host.heap.Owns (host.reachable ++ (resets trace).dedup.map memoryOf)
  blocks : ∀ object ∈ host.objects, object.block = memoryOf object.handle
  housed : ∀ object ∈ host.objects,
    Houses (trace.map Prod.fst) object.handle (memoryOf object.handle)
  lost : ∀ handle ∈ resets trace, Houses (trace.map Prod.fst) handle (memoryOf handle)

structure Accounts (trace : Trace) (host : Host) : Prop where
  distinct : (host.objects.map Object.handle).Nodup
  backed : ∀ object ∈ host.objects, object.emulator.Backed
  housing : ∃ memoryOf, Housing trace host memoryOf
  cleared : ∀ object ∈ host.objects,
    object.emulator.memory = .null ↔ object.handle ∈ resets trace
  known : ∀ entry ∈ trace, ∀ handle, entry.1.called? = some handle → handle < host.heap.next
  behaves : ∀ object ∈ host.objects, Behaves object trace

theorem accounts_empty : Accounts [] empty where
  distinct := List.nodup_nil
  backed := by simp [empty]
  housing := ⟨id, Heap.owns_empty, by simp [empty], by simp [empty], by simp [resets]⟩
  cleared := by simp [empty]
  known := by simp
  behaves := by simp [empty]

section Trace

variable {trace : Trace} {event : Event} {answer : Answer} {handle : Nat}

theorem resets_append : resets (trace ++ [(event, answer)]) =
    resets trace ++ event.reset?.toList := by
  cases reset : event.reset? <;> simp [resets, reset]

theorem exchanges_append : exchanges handle (trace ++ [(event, answer)]) =
    exchanges handle trace ++ (exchange? handle (event, answer)).toList := by
  cases exchanged : exchange? handle (event, answer) <;> simp [exchanges, exchanged]

theorem reset?_call (request : Call) :
    (Event.call (.ref handle) request).reset? = if request.isReset then some handle else none := by
  cases request <;> rfl

theorem exchange?_none (other : event.called? ≠ some handle) :
    exchange? handle (event, answer) = none := by
  cases event with
  | create _ _ _ _ => rfl
  | destroy _ => rfl
  | call emulator request =>
    cases emulator with
    | null => rfl
    | ref called =>
      have apart : called ≠ handle := fun same => other (congrArg some same)
      cases answer with
      | called response => exact if_neg apart
      | created _ _ => rfl
      | destroyed => rfl

theorem exchanges_nil (unknown : ∀ entry ∈ trace, entry.1.called? ≠ some handle) :
    exchanges handle trace = [] := by
  rw [exchanges, List.filterMap_eq_nil_iff]
  intro entry member
  exact exchange?_none (unknown entry member)

theorem called_of_reset (reset : handle ∈ resets trace) :
    ∃ entry ∈ trace, entry.1.called? = some handle := by
  obtain ⟨entry, member, isReset⟩ := List.mem_filterMap.mp reset
  exact ⟨entry, member, Event.called?_of_reset? isReset⟩

theorem Behaves.append {object : Object} (behaves : Behaves object trace)
    (other : event.called? ≠ some object.handle) :
    Behaves object (trace ++ [(event, answer)]) := by
  obtain ⟨config, out, created, valid, ran⟩ := behaves
  refine ⟨config, out, List.mem_append_left _ created, valid, ?_⟩
  rw [exchanges_append, exchange?_none other, Option.toList_none, List.append_nil]
  exact ran

theorem Houses.snoc {block : Nat} (houses : Houses (trace.map Prod.fst) handle block) :
    Houses ((trace ++ [(event, answer)]).map Prod.fst) handle block := by
  rw [List.map_append]
  exact houses.append _

theorem Housing.skip {host : Host} {memoryOf : Nat → Nat}
    (housing : Housing trace host memoryOf) (silent : event.reset? = none) :
    Housing (trace ++ [(event, answer)]) host memoryOf := by
  have same : resets (trace ++ [(event, answer)]) = resets trace := by
    rw [resets_append, silent, Option.toList_none, List.append_nil]
  exact ⟨same ▸ housing.owns, housing.blocks,
    fun object member => (housing.housed object member).snoc,
    fun handle reset => (housing.lost handle (same ▸ reset)).snoc⟩

section Update

variable {host : Host} {memoryOf : Nat → Nat} (housing : Housing trace host memoryOf)
  (distinct : (host.objects.map Object.handle).Nodup) {object : Object}
  (member : object ∈ host.objects) {after : Emulator}

include housing distinct member

theorem Housing.keeps
    (blocks : { object with emulator := after : Object }.blocks = object.blocks) :
    host.heap.Owns ((host.update object.handle after).reachable ++
      (resets trace).dedup.map memoryOf) := by
  have before := reachable_perm distinct member host.heap
  have updated := update_reachable distinct member after
  rw [blocks] at updated
  exact housing.owns.perm ((before.trans updated.symm).append_right _)

theorem Housing.loses
    (blocks : object.blocks =
      object.block :: { object with emulator := after : Object }.blocks) :
    host.heap.Owns ((host.update object.handle after).reachable ++
      memoryOf object.handle :: (resets trace).dedup.map memoryOf) := by
  have before := reachable_perm distinct member host.heap
  have updated := update_reachable distinct member after
  rw [blocks] at before
  have moved := before.trans (updated.symm.cons object.block)
  rw [← housing.blocks object member]
  exact housing.owns.perm ((moved.append_right _).trans List.perm_middle.symm)

end Update

end Trace

section Steps

variable {trace : Trace} {host : Host} (accounts : Accounts trace host)

include accounts

theorem Accounts.bounded {object : Object} (member : object ∈ host.objects) :
    object.handle < host.heap.next := by
  obtain ⟨memoryOf, housing⟩ := accounts.housing
  apply housing.owns.bounded
  apply List.mem_append_left
  exact List.mem_flatMap.mpr ⟨object, member, List.mem_append_right _ (List.mem_singleton.mpr rfl)⟩

theorem Accounts.unknown {handle : Nat} (fresh : host.heap.next ≤ handle) :
    ∀ entry ∈ trace, entry.1.called? ≠ some handle := fun entry member called =>
  absurd (accounts.known entry member handle called) (Nat.not_lt.mpr fresh)

theorem Accounts.reset_bounded {handle : Nat} (asked : handle ∈ resets trace) :
    handle < host.heap.next := by
  obtain ⟨entry, inTrace, called⟩ := called_of_reset asked
  exact accounts.known entry inTrace handle called

theorem Accounts.skip {event : Event} {answer : Answer} (silent : event.called? = none) :
    Accounts (trace ++ [(event, answer)]) host := by
  have reset : event.reset? = none := by
    cases reset : event.reset? with
    | none => rfl
    | some handle => simp [Event.called?_of_reset? reset] at silent
  have resets : resets (trace ++ [(event, answer)]) = resets trace := by
    rw [resets_append, reset, Option.toList_none, List.append_nil]
  obtain ⟨memoryOf, housing⟩ := accounts.housing
  refine ⟨accounts.distinct, accounts.backed, ⟨memoryOf, housing.skip reset⟩,
    resets ▸ accounts.cleared, ?_, ?_⟩
  · intro entry member handle called
    rcases List.mem_append.mp member with earlier | last
    · exact accounts.known entry earlier handle called
    · rw [List.mem_singleton.mp last, silent] at called
      cases called
  · intro object member
    exact (accounts.behaves object member).append (by simp [silent])

theorem Accounts.rehouse {heap : Heap} (next : host.heap.next ≤ heap.next)
    (kept : ∀ blocks, host.heap.Owns blocks → heap.Owns blocks) :
    Accounts trace { host with heap := heap } := by
  obtain ⟨memoryOf, owns, blocks, housed, lost⟩ := accounts.housing
  refine ⟨accounts.distinct, accounts.backed, ⟨memoryOf, kept _ owns, blocks, housed, lost⟩,
    accounts.cleared, ?_, accounts.behaves⟩
  intro entry member handle called
  exact (accounts.known entry member handle called).trans_le next

-- The memory of a new emulator is put down under its handle, which no earlier event has named.
theorem Accounts.add_housing
    (houses : Houses (trace.map Prod.fst) host.heap.next (host.heap.next + 1)) (config : Config) :
    ∃ memoryOf, Housing trace
      { heap := host.heap.allocate.2.allocate.2
        objects := { handle := host.heap.next, emulator := fresh config
                     block := host.heap.next + 1 } :: host.objects } memoryOf := by
  obtain ⟨memoryOf, owns, blocks, housed, lost⟩ := accounts.housing
  let added := Function.update memoryOf host.heap.next (host.heap.next + 1)
  have new : added host.heap.next = host.heap.next + 1 := Function.update_self _ _ _
  have old {handle : Nat} (known : handle < host.heap.next) : added handle = memoryOf handle :=
    Function.update_of_ne known.ne _ _
  have same : (resets trace).dedup.map added = (resets trace).dedup.map memoryOf :=
    List.map_congr_left fun handle asked => old (accounts.reset_bounded (List.mem_dedup.mp asked))
  refine ⟨added, ?_, ?_, ?_, ?_⟩
  · rw [same]
    exact owns.allocate.allocate
  · intro object member
    rcases List.mem_cons.mp member with rfl | earlier
    · exact new.symm
    · rw [old (accounts.bounded earlier)]
      exact blocks object earlier
  · intro object member
    rcases List.mem_cons.mp member with rfl | earlier
    · rw [new]
      exact houses
    · rw [old (accounts.bounded earlier)]
      exact housed object earlier
  · intro handle asked
    rw [old (accounts.reset_bounded asked)]
    exact lost handle asked

theorem Accounts.add {config : Config} (valid : config.Valid) {out : Ptr (Ptr Nat)}
    (created : (Event.create true true (.ref config) out,
      Answer.created .ok (.ref (.ref host.heap.next))) ∈ trace)
    (houses : Houses (trace.map Prod.fst) host.heap.next (host.heap.next + 1)) :
    Accounts trace
      { heap := host.heap.allocate.2.allocate.2
        objects := { handle := host.heap.next, emulator := fresh config
                     block := host.heap.next + 1 } :: host.objects } := by
  have unknown := accounts.unknown (Nat.le_refl host.heap.next)
  refine ⟨?_, ?_, accounts.add_housing houses config, ?_, ?_, ?_⟩
  · refine List.nodup_cons.mpr ⟨?_, accounts.distinct⟩
    intro old
    obtain ⟨object, member, same⟩ := List.mem_map.mp old
    exact absurd (accounts.bounded member) (by simp [same])
  · intro object member
    rcases List.mem_cons.mp member with rfl | old
    · exact fresh_backed config
    · exact accounts.backed object old
  · intro object member
    rcases List.mem_cons.mp member with rfl | old
    · exact iff_of_false (by simp [fresh]) fun asked =>
        absurd (accounts.reset_bounded asked) (Nat.lt_irrefl _)
    · exact accounts.cleared object old
  · intro entry member handle called
    have earlier := accounts.known entry member handle called
    exact Nat.lt_succ_of_lt (Nat.lt_succ_of_lt earlier)
  · intro object member
    rcases List.mem_cons.mp member with rfl | old
    · refine ⟨config, out, created, valid, ?_⟩
      rw [exchanges_nil unknown]
      rfl
    · exact accounts.behaves object old

theorem Accounts.create {emulatorAllocated memoryAllocated : Bool} {config : Ptr Config}
    {outEmulator : Ptr (Ptr Nat)} {status : Status} {out : Ptr (Ptr Nat)} {after : Host}
    (ran : Transducer.run step empty (trace.map Prod.fst) = some (trace.map Prod.snd, host))
    (created : host.create emulatorAllocated memoryAllocated config outEmulator =
      some (status, out, after)) :
    Accounts (trace ++ [(.create emulatorAllocated memoryAllocated config outEmulator,
      .created status out)]) after := by
  have stepped : host.step (.create emulatorAllocated memoryAllocated config outEmulator) =
      some (.created status out, after) := Option.map_eq_some_iff.mpr ⟨_, created, rfl⟩
  have asked : Accounts (trace ++ [(.create emulatorAllocated memoryAllocated config outEmulator,
      .created status out)]) host := accounts.skip rfl
  have outcome := create_outcome host emulatorAllocated memoryAllocated config outEmulator
  rw [created] at outcome
  cases outcome with
  | failed _ _ heap _ _ next kept => exact asked.rehouse next kept
  | created emulator refines =>
    cases config with
    | null => cases refines
    | ref config =>
      cases outEmulator with
      | null => cases refines
      | ref out =>
        obtain ⟨rfl, rfl, valid, rfl⟩ := (create_correct _ _ config .null emulator).mp refines
        apply asked.add valid (List.mem_append_right _ (List.mem_singleton.mpr rfl))
        refine ⟨trace.map Prod.fst, _, [], _, host, _, List.map_append, ran, stepped, ?_⟩
        exact ⟨_, .head _, rfl, rfl⟩

theorem Accounts.remove {object : Object} (member : object ∈ host.objects) :
    ∃ freed after, free object.memory host.heap = some freed ∧
      free (.ref object.handle) freed = some after ∧
      Accounts trace
        { heap := after, objects := host.objects.filter fun other => other.handle ≠ object.handle } := by
  obtain ⟨memoryOf, owns, blocks, housed, lost⟩ := accounts.housing
  have reordered := (reachable_perm accounts.distinct member host.heap).append_right
    ((resets trace).dedup.map memoryOf)
  rw [Object.blocks, List.append_assoc, List.append_assoc] at reordered
  obtain ⟨freed, freesMemory, owned, freedNext⟩ := free_owned (owns.perm reordered)
  have handleOwned : freed.Owns (pointed (.ref object.handle) ++ _) := owned
  obtain ⟨after, freesEmulator, rest, afterNext⟩ := free_owned handleOwned
  have still (other : Object)
      (kept : other ∈ host.objects.filter fun other => other.handle ≠ object.handle) :
      other ∈ host.objects := List.mem_of_mem_filter kept
  have housing : Housing trace { heap := after, objects := host.objects.filter fun other =>
      other.handle ≠ object.handle } memoryOf :=
    ⟨rest, fun other kept => blocks other (still other kept),
      fun other kept => housed other (still other kept), lost⟩
  refine ⟨freed, after, freesMemory, freesEmulator, ?_, ?_, ⟨memoryOf, housing⟩, ?_, ?_, ?_⟩
  · exact accounts.distinct.sublist (List.filter_sublist.map _)
  · exact fun other kept => accounts.backed other (still other kept)
  · exact fun other kept => accounts.cleared other (still other kept)
  · intro entry inTrace handle called
    have known := accounts.known entry inTrace handle called
    have next : after.next = host.heap.next := afterNext.trans freedNext
    exact next ▸ known
  · exact fun other kept => accounts.behaves other (still other kept)

theorem Accounts.destroy {emulator : Ptr Nat} (knows : host.Knows emulator) :
    ∃ after, host.destroy emulator = some after ∧ Accounts trace after := by
  cases emulator with
  | null => exact ⟨host, rfl, accounts⟩
  | ref handle =>
    obtain ⟨object, member, rfl⟩ := knows
    obtain ⟨freed, after, freesMemory, freesEmulator, kept⟩ := accounts.remove member
    refine ⟨_, ?_, kept⟩
    rw [Host.destroy, find_member accounts.distinct member]
    simp only [bind, Option.bind_some, freesMemory, freesEmulator]

section Called

variable {object : Object} (member : object ∈ host.objects) {request : Call} {response : Response}
  {after : Emulator} (applied : request.apply (.ref object.emulator) = some (response, .ref after))

include member applied

theorem Accounts.call_owns {memoryOf : Nat → Nat} (housing : Housing trace host memoryOf) :
    host.heap.Owns ((host.update object.handle after).reachable ++
      (resets (trace ++ [(.call (.ref object.handle) request, .called response)])).dedup.map
        memoryOf) := by
  obtain ⟨_, same, effect⟩ := apply_cases (accounts.backed object member) applied
  cases same
  rw [resets_append, reset?_call]
  rcases effect with ⟨noReset, touched⟩ | ⟨reset, rfl⟩
  · have blocks : { object with emulator := after : Object }.blocks = object.blocks := by
      rw [Object.blocks, Object.blocks, Object.memory, Object.memory, touched_memory touched]
    simpa [noReset] using housing.keeps accounts.distinct member blocks
  · have cleared := accounts.cleared object member
    have asked := (List.perm_append_singleton object.handle (resets trace)).dedup
    rw [if_pos reset, Option.toList_some]
    cases memory : object.emulator.memory with
    | null =>
      have blocks : { object with emulator := object.emulator.afterReset : Object }.blocks =
          object.blocks := by
        simp [Object.blocks, Object.memory, memory, Emulator.afterReset]
      rw [List.dedup_cons_of_mem (cleared.mp memory)] at asked
      exact (housing.keeps accounts.distinct member blocks).perm
        ((asked.map memoryOf).symm.append_left _)
    | ref bytes =>
      have new : object.handle ∉ resets trace := by
        rw [← cleared, memory]
        simp
      have blocks : object.blocks = object.block ::
          { object with emulator := object.emulator.afterReset : Object }.blocks := by
        simp [Object.blocks, Object.memory, memory, Emulator.afterReset, Ptr.map, pointed]
      rw [List.dedup_cons_of_notMem new] at asked
      exact (housing.loses accounts.distinct member blocks).perm
        ((asked.map memoryOf).symm.append_left _)

theorem Accounts.call_housing {memoryOf : Nat → Nat} (housing : Housing trace host memoryOf) :
    Housing (trace ++ [(.call (.ref object.handle) request, .called response)])
      (host.update object.handle after) memoryOf := by
  refine ⟨accounts.call_owns member applied housing, ?_, ?_, ?_⟩
  · intro other inside
    rcases mem_update accounts.distinct member after inside with rfl | ⟨old, -⟩
    · exact housing.blocks object member
    · exact housing.blocks other old
  · intro other inside
    rcases mem_update accounts.distinct member after inside with rfl | ⟨old, -⟩
    · exact (housing.housed object member).snoc
    · exact (housing.housed other old).snoc
  · intro handle asked
    rw [resets_append, reset?_call, List.mem_append] at asked
    rcases asked with earlier | now
    · exact (housing.lost handle earlier).snoc
    · obtain ⟨-, isHandle⟩ : request.isReset = true ∧ object.handle = handle := by simpa using now
      exact isHandle ▸ (housing.housed object member).snoc

theorem Accounts.call_cleared {other : Object}
    (inside : other ∈ (host.update object.handle after).objects) :
    other.emulator.memory = .null ↔ other.handle ∈ resets
      (trace ++ [(.call (.ref object.handle) request, .called response)]) := by
  have cleared := accounts.cleared object member
  obtain ⟨_, same, effect⟩ := apply_cases (accounts.backed object member) applied
  cases same
  rw [resets_append, reset?_call, List.mem_append]
  rcases mem_update accounts.distinct member after inside with rfl | ⟨old, apart⟩
  · rcases effect with ⟨noReset, touched⟩ | ⟨reset, rfl⟩
    · simp [noReset, touched_null touched, cleared]
    · simp [reset, Emulator.afterReset]
  · have uncalled : ¬ other.handle ∈ (if request.isReset then some object.handle else none).toList := by
      split <;> simp [apart]
    rw [accounts.cleared other old]
    simp [uncalled]

theorem Accounts.call_behaves {other : Object}
    (inside : other ∈ (host.update object.handle after).objects) :
    Behaves other (trace ++ [(.call (.ref object.handle) request, .called response)]) := by
  rcases mem_update accounts.distinct member after inside with rfl | ⟨old, apart⟩
  · obtain ⟨config, out, created, valid, ran⟩ := accounts.behaves object member
    have exchanged : exchange? object.handle
        (.call (.ref object.handle) request, .called response) = some (request, response) :=
      if_pos rfl
    refine ⟨config, out, List.mem_append_left _ created, valid, ?_⟩
    rw [exchanges_append, exchanged, Option.toList_some, List.map_append, List.map_append]
    exact Transducer.run_snoc ran applied
  · have apart : some object.handle ≠ some other.handle := fun same => apart (Option.some.inj same).symm
    exact (accounts.behaves other old).append apart

theorem Accounts.called : Accounts (trace ++ [(.call (.ref object.handle) request, .called response)])
    (host.update object.handle after) := by
  obtain ⟨memoryOf, housing⟩ := accounts.housing
  refine ⟨update_distinct accounts.distinct _ _, ?_,
    ⟨memoryOf, accounts.call_housing member applied housing⟩,
    fun other => accounts.call_cleared member applied, ?_,
    fun other => accounts.call_behaves member applied⟩
  · intro other inside
    obtain ⟨_, same, effect⟩ := apply_cases (accounts.backed object member) applied
    cases same
    rcases mem_update accounts.distinct member after inside with rfl | ⟨old, -⟩
    · rcases effect with ⟨-, touched⟩ | ⟨-, rfl⟩
      · exact touched.backed (accounts.backed object member)
      · exact afterReset_backed _
    · exact accounts.backed other old
  · intro entry inTrace handle called
    rcases List.mem_append.mp inTrace with earlier | last
    · exact accounts.known entry earlier handle called
    · obtain rfl := List.mem_singleton.mp last
      cases called
      exact accounts.bounded member

end Called

theorem Accounts.step {event : Event} {answer : Answer} {after : Host}
    (ran : Transducer.run Host.step empty (trace.map Prod.fst) = some (trace.map Prod.snd, host))
    (stepped : host.step event = some (answer, after)) :
    Accounts (trace ++ [(event, answer)]) after := by
  cases event with
  | create emulatorAllocated memoryAllocated config outEmulator =>
    obtain ⟨⟨status, out, next⟩, created, same⟩ := Option.map_eq_some_iff.mp stepped
    cases same
    exact accounts.create ran created
  | destroy emulator =>
    obtain ⟨next, ran, same⟩ := Option.map_eq_some_iff.mp stepped
    cases same
    have knows : host.Knows emulator := by
      cases emulator with
      | null => trivial
      | ref handle =>
        obtain ⟨object, found, -⟩ := Option.bind_eq_some_iff.mp ran
        exact ⟨object, find_some found⟩
    obtain ⟨destroyed, ran', kept⟩ := accounts.destroy knows
    obtain rfl := Option.some.inj (ran.symm.trans ran')
    exact kept.skip (by cases emulator <;> rfl)
  | call emulator request =>
    obtain ⟨⟨response, next⟩, ran, same⟩ := Option.map_eq_some_iff.mp stepped
    cases same
    cases emulator with
    | null =>
      obtain ⟨_, -, same⟩ := Option.map_eq_some_iff.mp ran
      cases same
      exact accounts.skip rfl
    | ref handle =>
      obtain ⟨object, found, executed⟩ := Option.bind_eq_some_iff.mp ran
      obtain ⟨member, rfl⟩ := find_some found
      obtain ⟨⟨answered, behind⟩, applied, rest⟩ := Option.bind_eq_some_iff.mp executed
      cases behind with
      | null => cases rest
      | ref changed =>
        cases rest
        exact accounts.called member applied

theorem Accounts.answers {event : Event} (allowed : event.Allowed host) :
    ∃ answer after, host.step event = some (answer, after) := by
  cases event with
  | create emulatorAllocated memoryAllocated config outEmulator =>
    have outcome := create_outcome host emulatorAllocated memoryAllocated config outEmulator
    rw [Host.step]
    cases ran : host.create emulatorAllocated memoryAllocated config outEmulator with
    | none =>
      rw [ran] at outcome
      cases outcome
    | some result => exact ⟨_, _, rfl⟩
  | destroy emulator =>
    obtain ⟨after, destroyed, -⟩ := accounts.destroy allowed
    exact ⟨_, after, by rw [Host.step, destroyed]; rfl⟩
  | call emulator request =>
    obtain ⟨knows, promised⟩ := allowed
    cases emulator with
    | null =>
      have answered : ∃ response, request.apply .null = some (response, .null) := by
        cases request <;> exact ⟨_, rfl⟩
      obtain ⟨response, answered⟩ := answered
      exact ⟨_, host, by rw [Host.step, Host.call, answered]; rfl⟩
    | ref handle =>
      obtain ⟨object, member, rfl⟩ := knows
      have backed := accounts.backed object member
      obtain ⟨response, next, applied⟩ := apply_answers backed request promised
      obtain ⟨after, rfl, -⟩ := apply_cases backed applied
      refine ⟨.called response, host.update object.handle after, ?_⟩
      rw [Host.step, Host.call, find_member accounts.distinct member]
      simp only [bind, Option.bind_some, applied, Option.map_some]

end Steps

section Runs

variable {events : List Event} {answers : List Answer} {host : Host}
  (ran : Transducer.run Host.step Host.empty events = some (answers, host))

include ran

theorem run_accounts : Accounts (events.zip answers) host :=
  Transducer.run_trace Accounts (fun _ _ _ _ _ soFar accounts stepped => accounts.step soFar stepped)
    accounts_empty ran

/-- The live blocks are what the pointers of the live emulators reach and, for each emulator that
has been reset, the memory it was created with. No event of a careful client frees anything else. -/
theorem blocks_accounted :
    (∃ memoryOf : Nat → Nat,
      (∀ handle ∈ events.filterMap Event.reset?, Houses events handle (memoryOf handle)) ∧
      host.heap.Owns (host.reachable ++ (events.filterMap Event.reset?).dedup.map memoryOf)) ∧
    ∀ event : Event, event.Allowed host →
      ∃ answer after, host.step event = some (answer, after) := by
  have accounts := run_accounts ran
  have inputs : (events.zip answers).map Prod.fst = events :=
    List.map_fst_zip (Transducer.run_length ran).ge
  have asked : resets (events.zip answers) = events.filterMap Event.reset? := by
    conv_rhs => rw [← inputs, List.filterMap_map]
    rfl
  refine ⟨?_, fun event => accounts.answers⟩
  obtain ⟨memoryOf, owns, -, -, lost⟩ := accounts.housing
  rw [asked] at owns lost
  rw [inputs] at lost
  exact ⟨memoryOf, lost, owns⟩

/-- Whatever order the calls on several emulators come in, each answers and ends as it does alone
from the configuration it was created with. -/
theorem emulators_isolated {object : Object} (member : object ∈ host.objects) :
    ∃ (config : Config) (out : Ptr (Ptr Nat)),
      (Event.create true true (.ref config) out, Answer.created .ok (.ref (.ref object.handle))) ∈
        events.zip answers ∧
      config.Valid ∧
      Transducer.run Call.apply (.ref (fresh config))
          ((exchanges object.handle (events.zip answers)).map Prod.fst) =
        some ((exchanges object.handle (events.zip answers)).map Prod.snd, .ref object.emulator) :=
  (run_accounts ran).behaves object member

end Runs

def smallConfig : Config := { memorySize := 4, resetPc := 0, endian := .big, clearMemoryOnReset := 1 }

-- The second emulator is reset between two calls on the first one.
def interleaved : List Event :=
  [.create true true (.ref smallConfig) (.ref .null),
    .create true true (.ref { smallConfig with endian := .little }) (.ref .null),
    .call (.ref 0) (.setPc 4), .call (.ref 2) (.machineReset .ok), .call (.ref 0) (.getPc (.ref 0))]

-- With the first emulator destroyed, the second one and its lost memory are what is left.
theorem blocks_accounted_two : ∃ answers host,
    Transducer.run step empty (interleaved ++ [.destroy (.ref 0)]) = some (answers, host) ∧
      host.reachable = [2] ∧
      ∃ block, Houses (interleaved ++ [.destroy (.ref 0)]) 2 block ∧ host.heap.Owns [2, block] := by
  have ran : Transducer.run step empty (interleaved ++ [.destroy (.ref 0)]) = some (_, _) := rfl
  obtain ⟨⟨memoryOf, housed, owns⟩, -⟩ := blocks_accounted ran
  exact ⟨_, _, ran, rfl, memoryOf 2, housed 2 (.head _), owns⟩

theorem emulators_isolated_two : ∃ answers host object,
    Transducer.run step empty interleaved = some (answers, host) ∧ object ∈ host.objects ∧
      object.handle = 0 ∧ ∃ (config : Config) (out : Ptr (Ptr Nat)),
      (Event.create true true (.ref config) out, Answer.created .ok (.ref (.ref 0))) ∈
        interleaved.zip answers ∧
      config.Valid ∧
      Transducer.run Call.apply (.ref (fresh config)) [.setPc 4, .getPc (.ref 0)] =
        some ([.status .ok, .value .ok (.ref 4)], .ref object.emulator) := by
  have ran : Transducer.run step empty interleaved = some (_, _) := rfl
  refine ⟨_, _, _, ran, .tail _ (.head _), rfl, ?_⟩
  exact emulators_isolated ran (.tail _ (.head _))

end Host

end Mips64
