import Mathlib.Data.List.Basic

set_option autoImplicit false

namespace Reorder

universe u v

variable {S : Type u} {I : Type v} {step : S → I → S} (Inv : S → Prop) (Commutes : I → I → Prop)

theorem foldl_perm (symmetric : ∀ {first second}, Commutes first second → Commutes second first)
    (preserved : ∀ state input, Inv state → Inv (step state input))
    (swaps : ∀ state first second, Inv state → Commutes first second →
      step (step state first) second = step (step state second) first)
    {inputs reordered : List I} (perm : inputs.Perm reordered) (pairwise : inputs.Pairwise Commutes)
    (state : S) (initial : Inv state) : inputs.foldl step state = reordered.foldl step state := by
  induction perm generalizing state with
  | nil => rfl
  | cons input _ ih =>
    exact ih (List.pairwise_cons.mp pairwise).2 _ (preserved state input initial)
  | swap first second rest =>
    have commutes := (List.pairwise_cons.mp pairwise).1 first (by simp)
    exact congrArg (rest.foldl step) (swaps state second first initial commutes)
  | trans left _ ih ihRight =>
    rw [ih pairwise state initial]
    exact ihRight (left.pairwise pairwise symmetric) state initial

end Reorder
