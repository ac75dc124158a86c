import Mathlib.LinearAlgebra.Matrix.RowCol

set_option autoImplicit false

namespace AffineMaps

open Matrix

universe u v w

@[ext] structure Affine (ι : Type u) (R : Type v) where
  matrix : Matrix ι ι R
  offset : ι → R

variable {ι : Type u} {R : Type v} [Fintype ι]

instance [DecidableEq R] : DecidableEq (Affine ι R) := fun first second =>
  decidable_of_iff (first.matrix = second.matrix ∧ first.offset = second.offset)
    Affine.ext_iff.symm

variable [CommRing R]

namespace Affine

def act (map : Affine ι R) (cells : ι → R) : ι → R := map.matrix *ᵥ cells + map.offset

/-- First `earlier`, then `later`. -/
def after (later earlier : Affine ι R) : Affine ι R :=
  ⟨later.matrix * earlier.matrix, later.matrix *ᵥ earlier.offset + later.offset⟩

theorem act_after (later earlier : Affine ι R) (cells : ι → R) :
    (later.after earlier).act cells = later.act (earlier.act cells) := by
  simp only [act, after, mulVec_add, mulVec_mulVec]
  rw [add_assoc]

variable [DecidableEq ι]

def identity : Affine ι R := ⟨1, 0⟩

def assign (target : ι) (weights : ι → R) (constant : R) : Affine ι R :=
  ⟨updateRow 1 target weights, Pi.single target constant⟩

@[simp] theorem act_identity (cells : ι → R) : (identity : Affine ι R).act cells = cells := by
  simp [act, identity]

theorem act_assign (target : ι) (weights : ι → R) (constant : R) (cells : ι → R) :
    (assign target weights constant).act cells =
      Function.update cells target (weights ⬝ᵥ cells + constant) := by
  funext i
  by_cases here : i = target
  · subst here
    simp [act, assign, mulVec]
  · have untouched : (1 : Matrix ι ι R) i ⬝ᵥ cells = cells i := congrFun (one_mulVec cells) i
    simp [act, assign, mulVec, here, untouched]

theorem act_injective {first second : Affine ι R} (same : first.act = second.act) :
    first = second := by
  have offsets : first.offset = second.offset := by
    have origin := congrFun same 0
    simpa [act] using origin
  ext i j
  · have unit := congrFun (congrFun same (Pi.single j 1)) i
    simpa [act, offsets] using unit
  · rw [offsets]

section Lists

variable {I : Type w} (step : I → Affine ι R)

def summary (steps : List I) : Affine ι R :=
  steps.foldl (fun map item => (step item).after map) identity

theorem summary_nil : summary step [] = identity := rfl

theorem summary_concat (steps : List I) (last : I) :
    summary step (steps ++ [last]) = (step last).after (summary step steps) := by
  rw [summary, List.foldl_append]
  rfl

theorem act_summary (steps : List I) (cells : ι → R) :
    (summary step steps).act cells =
      steps.foldl (fun cells item => (step item).act cells) cells := by
  induction steps using List.reverseRecOn with
  | nil => simp [summary_nil]
  | append_singleton steps last ih =>
    rw [summary_concat, act_after, ih, List.foldl_append]
    rfl

end Lists

end Affine

end AffineMaps
