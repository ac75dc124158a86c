import Mathlib.Data.List.Basic
import Mathlib.Tactic.Basic

set_option autoImplicit false

/-!
# Runs of a step function that answers

A step reads one input, gives one output and may fault. A fault ends the run.
-/

namespace Transducer

universe u v w

variable {S : Type u} {I : Type v} {O : Type w}

def run (step : S → I → Option (O × S)) : S → List I → Option (List O × S)
  | state, [] => some ([], state)
  | state, input :: rest =>
    (step state input).bind fun (output, next) =>
      (run step next rest).map fun (outputs, final) => (output :: outputs, final)

variable {step : S → I → Option (O × S)}

@[simp] theorem run_nil (state : S) : run step state [] = some ([], state) := rfl

theorem run_cons (state final : S) (input : I) (rest : List I) (outputs : List O) :
    run step state (input :: rest) = some (outputs, final) ↔
      ∃ output next later, step state input = some (output, next) ∧
        run step next rest = some (later, final) ∧ outputs = output :: later := by
  simp only [run, Option.bind_eq_some_iff, Option.map_eq_some_iff, Prod.exists, Prod.mk.injEq]
  constructor
  · rintro ⟨output, next, first, later, last, continued, rfl, rfl⟩
    exact ⟨output, next, later, first, continued, rfl⟩
  · rintro ⟨output, next, later, first, continued, rfl⟩
    exact ⟨output, next, first, later, final, continued, rfl, rfl⟩

theorem run_invariant (Inv : S → Prop) (Admissible : I → Prop)
    (preserved : ∀ state input output next, Inv state → Admissible input →
      step state input = some (output, next) → Inv next)
    {state final : S} {inputs : List I} {outputs : List O} (initial : Inv state)
    (admissible : ∀ input ∈ inputs, Admissible input)
    (ran : run step state inputs = some (outputs, final)) : Inv final := by
  induction inputs generalizing state outputs with
  | nil =>
    simp only [run_nil, Option.some.injEq, Prod.mk.injEq] at ran
    exact ran.2 ▸ initial
  | cons input rest ih =>
    obtain ⟨output, next, later, first, continued, -⟩ := (run_cons _ _ _ _ _).mp ran
    have kept := preserved state input output next initial (admissible input (by simp)) first
    exact ih kept (fun later member => admissible later (List.mem_cons_of_mem _ member)) continued

theorem run_append (state : S) (inputs later : List I) (outputs : List O) (final : S) :
    run step state (inputs ++ later) = some (outputs, final) ↔
      ∃ front middle back, run step state inputs = some (front, middle) ∧
        run step middle later = some (back, final) ∧ outputs = front ++ back := by
  induction inputs generalizing state outputs with
  | nil =>
    constructor
    · intro ran
      exact ⟨[], state, outputs, rfl, ran, rfl⟩
    · rintro ⟨front, middle, back, first, last, rfl⟩
      cases first
      exact last
  | cons input rest ih =>
    rw [List.cons_append, run_cons]
    constructor
    · rintro ⟨output, next, others, first, continued, rfl⟩
      obtain ⟨front, middle, back, early, late, rfl⟩ := (ih _ _).mp continued
      exact ⟨output :: front, middle, back,
        (run_cons _ _ _ _ _).mpr ⟨output, next, front, first, early, rfl⟩, late, rfl⟩
    · rintro ⟨front, middle, back, early, late, rfl⟩
      obtain ⟨output, next, others, first, continued, rfl⟩ := (run_cons _ _ _ _ _).mp early
      exact ⟨output, next, others ++ back, first,
        (ih _ _).mpr ⟨others, middle, back, continued, late, rfl⟩, rfl⟩

theorem run_snoc {state middle final : S} {inputs : List I} {outputs : List O} {input : I} {output : O}
    (ran : run step state inputs = some (outputs, middle))
    (stepped : step middle input = some (output, final)) :
    run step state (inputs ++ [input]) = some (outputs ++ [output], final) := by
  have last : run step middle [input] = some ([output], final) :=
    (run_cons _ _ _ _ _).mpr ⟨output, final, [], stepped, rfl, rfl⟩
  exact (run_append _ _ _ _ _).mpr ⟨outputs, middle, [output], ran, last, rfl⟩

theorem run_length {state final : S} {inputs : List I} {outputs : List O}
    (ran : run step state inputs = some (outputs, final)) : outputs.length = inputs.length := by
  induction inputs generalizing state outputs with
  | nil =>
    cases ran
    rfl
  | cons input rest ih =>
    obtain ⟨output, next, later, -, continued, rfl⟩ := (run_cons _ _ _ _ _).mp ran
    rw [List.length_cons, List.length_cons, ih continued]

-- The invariant may speak of what has been asked and answered so far, in a run up to here.
theorem run_trace (Inv : List (I × O) → S → Prop) {start : S}
    (preserved : ∀ trace state input output next,
      run step start (trace.map Prod.fst) = some (trace.map Prod.snd, state) → Inv trace state →
      step state input = some (output, next) → Inv (trace ++ [(input, output)]) next)
    {final : S} {inputs : List I} {outputs : List O} (initial : Inv [] start)
    (ran : run step start inputs = some (outputs, final)) : Inv (inputs.zip outputs) final := by
  have along (trace : List (I × O)) (state : S) (inputs : List I) (outputs : List O)
      (soFar : run step start (trace.map Prod.fst) = some (trace.map Prod.snd, state))
      (holds : Inv trace state) (ran : run step state inputs = some (outputs, final)) :
      Inv (trace ++ inputs.zip outputs) final := by
    induction inputs generalizing trace state outputs with
    | nil =>
      cases ran
      simpa using holds
    | cons input rest ih =>
      obtain ⟨output, next, later, first, continued, rfl⟩ := (run_cons _ _ _ _ _).mp ran
      have upToHere := run_snoc soFar first
      have kept := ih (trace ++ [(input, output)]) next later (by simpa using upToHere)
        (preserved trace state input output next soFar holds first) continued
      simpa using kept
  simpa using along [] start inputs outputs rfl initial ran

theorem run_history (Inv : List I → S → Prop) (Admissible : I → Prop)
    (answers : ∀ history state input, Inv history state → Admissible input →
      ∃ output next, step state input = some (output, next) ∧ Inv (history ++ [input]) next)
    (history : List I) (state : S) (inputs : List I) (initial : Inv history state)
    (admissible : ∀ input ∈ inputs, Admissible input) :
    ∃ outputs final, run step state inputs = some (outputs, final) ∧
      Inv (history ++ inputs) final := by
  induction inputs generalizing history state with
  | nil => exact ⟨[], state, rfl, by simpa using initial⟩
  | cons input rest ih =>
    obtain ⟨output, next, first, kept⟩ :=
      answers history state input initial (admissible input (by simp))
    obtain ⟨later, final, continued, last⟩ :=
      ih _ _ kept fun later member => admissible later (List.mem_cons_of_mem _ member)
    refine ⟨output :: later, final, ?_, by simpa using last⟩
    exact (run_cons _ _ _ _ _).mpr ⟨output, next, later, first, continued, rfl⟩

theorem run_total (Inv : S → Prop) (Admissible : I → Prop)
    (answers : ∀ state input, Inv state → Admissible input →
      ∃ output next, step state input = some (output, next) ∧ Inv next)
    (state : S) (inputs : List I) (initial : Inv state)
    (admissible : ∀ input ∈ inputs, Admissible input) :
    ∃ outputs final, run step state inputs = some (outputs, final) ∧ Inv final :=
  run_history (fun _ => Inv) Admissible (fun _ => answers) [] state inputs initial admissible

section Simulation

variable {T : Type u} {J : Type v} {other : T → J → Option (O × T)}

/-- Two step functions that answer related states alike give the same outputs over every run. -/
theorem run_simulation (Related : S → T → Prop) (translate : I → J) (Admissible : I → Prop)
    (simulates : ∀ state image input, Related state image → Admissible input →
      ∃ output next nextImage, step state input = some (output, next) ∧
        other image (translate input) = some (output, nextImage) ∧ Related next nextImage)
    {state : S} {image : T} {inputs : List I} (related : Related state image)
    (admissible : ∀ input ∈ inputs, Admissible input) :
    ∃ outputs final finalImage, run step state inputs = some (outputs, final) ∧
      run other image (inputs.map translate) = some (outputs, finalImage) ∧
      Related final finalImage := by
  induction inputs generalizing state image with
  | nil => exact ⟨[], state, image, rfl, rfl, related⟩
  | cons input rest ih =>
    obtain ⟨output, next, nextImage, first, firstImage, kept⟩ :=
      simulates state image input related (admissible input (by simp))
    obtain ⟨later, final, finalImage, continued, continuedImage, last⟩ :=
      ih kept fun later member => admissible later (List.mem_cons_of_mem _ member)
    exact ⟨output :: later, final, finalImage,
      (run_cons _ _ _ _ _).mpr ⟨output, next, later, first, continued, rfl⟩,
      (run_cons _ _ _ _ _).mpr ⟨output, nextImage, later, firstImage, continuedImage, rfl⟩, last⟩

end Simulation

section Observation

variable {T : Type u} {other : T → I → Option (O × T)}

def observe (step : S → I → Option (O × S)) (state : S) (inputs : List I) : Option (List O) :=
  (run step state inputs).map Prod.fst

def Matches (Related : S → T → Prop) : Option (O × S) → Option (O × T) → Prop :=
  Option.Rel fun first second => first.1 = second.1 ∧ Related first.2 second.2

namespace Matches

variable {Related : S → T → Prop}

theorem fault : Matches (O := O) Related none none := Option.Rel.none

theorem same {output : O} {next : S} {image : T} (related : Related next image) :
    Matches Related (some (output, next)) (some (output, image)) :=
  Option.Rel.some ⟨rfl, related⟩

theorem split {first : Option (O × S)} {second : Option (O × T)}
    (matched : Matches Related first second) :
    first = none ∧ second = none ∨
      ∃ output next image, first = some (output, next) ∧ second = some (output, image) ∧
        Related next image := by
  cases matched with
  | none => exact Or.inl ⟨rfl, rfl⟩
  | @some answer reply agreed =>
    obtain ⟨output, next⟩ := answer
    obtain ⟨output', image⟩ := reply
    obtain ⟨rfl, related⟩ := agreed
    exact Or.inr ⟨output, next, image, rfl, rfl, related⟩

theorem map {P : Type w} (wrap : O → P) {first : Option (O × S)} {second : Option (O × T)}
    (matched : Matches Related first second) :
    Matches Related (first.map fun (output, next) => (wrap output, next))
      (second.map fun (output, image) => (wrap output, image)) := by
  rcases matched.split with ⟨rfl, rfl⟩ | ⟨output, next, image, rfl, rfl, related⟩
  · exact fault
  · exact same related

end Matches

theorem run_matches (Related : S → T → Prop)
    (matched : ∀ state image input, Related state image →
      Matches Related (step state input) (other image input))
    {state : S} {image : T} (related : Related state image) (inputs : List I) :
    Matches Related (run step state inputs) (run other image inputs) := by
  induction inputs generalizing state image with
  | nil => exact .same related
  | cons input rest ih =>
    rcases (matched state image input related).split with
      ⟨faults, faultsImage⟩ | ⟨output, next, nextImage, first, firstImage, kept⟩
    · simp only [run, faults, faultsImage, Option.bind_none]
      exact .fault
    · simp only [run, first, firstImage, Option.bind_some]
      rcases (ih kept).split with
        ⟨stops, stopsImage⟩ | ⟨later, final, finalImage, ran, ranImage, last⟩
      · rw [stops, stopsImage]
        exact .fault
      · rw [ran, ranImage]
        exact .same last

theorem observe_eq (Related : S → T → Prop)
    (matched : ∀ state image input, Related state image →
      Matches Related (step state input) (other image input))
    {state : S} {image : T} (related : Related state image) (inputs : List I) :
    observe step state inputs = observe other image inputs := by
  rcases (run_matches Related matched related inputs).split with
    ⟨stops, stopsImage⟩ | ⟨outputs, final, finalImage, ran, ranImage, -⟩
  · simp only [observe, stops, stopsImage, Option.map_none]
  · simp only [observe, ran, ranImage, Option.map_some]

theorem observe_cons {state next : S} {input : I} {output : O}
    (stepped : step state input = some (output, next)) (rest : List I) :
    observe step state (input :: rest) = (observe step next rest).map (output :: ·) := by
  simp only [observe, run, stepped, Option.bind_some, Option.map_map]
  rfl

/-- No sequence of inputs tells the two states apart. -/
def Alike (step : S → I → Option (O × S)) (other : T → I → Option (O × T)) (state : S)
    (image : T) : Prop :=
  ∀ inputs, observe step state inputs = observe other image inputs

namespace Alike

theorem symm {state : S} {image : T} (alike : Alike step other state image) :
    Alike other step image state :=
  fun inputs => (alike inputs).symm

theorem trans {U : Type u} {third : U → I → Option (O × U)} {state : S} {image : T} {last : U}
    (alike : Alike step other state image) (further : Alike other third image last) :
    Alike step third state last :=
  fun inputs => (alike inputs).trans (further inputs)

theorem next {state after : S} {image afterImage : T} (alike : Alike step other state image)
    (input : I) {output outputImage : O} (first : step state input = some (output, after))
    (firstImage : other image input = some (outputImage, afterImage)) :
    output = outputImage ∧ Alike step other after afterImage := by
  have observed (rest : List I) := alike (input :: rest)
  simp only [observe_cons first, observe_cons firstImage] at observed
  have same : output = outputImage := by simpa [observe] using observed []
  subst same
  exact ⟨rfl, fun rest => Option.map_injective List.cons_injective (observed rest)⟩

end Alike

theorem alike_of_matches (Related : S → T → Prop)
    (matched : ∀ state image input, Related state image →
      Matches Related (step state input) (other image input))
    {state : S} {image : T} (related : Related state image) : Alike step other state image :=
  fun inputs => observe_eq Related matched related inputs

end Observation

end Transducer
