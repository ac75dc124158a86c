import Mathlib.Logic.Relation

set_option autoImplicit false

namespace Reachability

universe u v

variable {S : Type u} {T : Type v} {step : S → Option S} {other : T → Option T}

def Reaches (step : S → Option S) : S → S → Prop :=
  Relation.ReflTransGen fun before after => step before = some after

def steps (step : S → Option S) : Nat → S → Option S
  | 0, state => some state
  | count + 1, state => (step state).bind (steps step count)

namespace Reaches

theorem refl (state : S) : Reaches step state state := Relation.ReflTransGen.refl

theorem single {before after : S} (stepped : step before = some after) :
    Reaches step before after := Relation.ReflTransGen.single stepped

theorem trans {before middle after : S} (first : Reaches step before middle)
    (second : Reaches step middle after) : Reaches step before after :=
  Relation.ReflTransGen.trans first second

theorem of_steps {initial final : S} (count : Nat)
    (ran : steps step count initial = some final) : Reaches step initial final := by
  induction count generalizing initial with
  | zero =>
    cases ran
    exact refl _
  | succ count ih =>
    obtain ⟨next, first, later⟩ := Option.bind_eq_some_iff.mp ran
    exact (single first).trans (ih later)

/-- Where each step of a machine is matched by a run of another one, so is each of its runs. -/
theorem simulated (Related : S → T → Prop)
    (simulates : ∀ before image after, Related before image → step before = some after →
      ∃ next, Reaches other image next ∧ Related after next)
    {initial final : S} {image : T} (reaches : Reaches step initial final)
    (related : Related initial image) : ∃ last, Reaches other image last ∧ Related final last := by
  induction reaches with
  | refl => exact ⟨image, refl image, related⟩
  | tail _ stepped ih =>
    obtain ⟨middle, arrives, kept⟩ := ih
    obtain ⟨next, continues, matched⟩ := simulates _ _ _ kept stepped
    exact ⟨next, arrives.trans continues, matched⟩

end Reaches

end Reachability
