import Mathlib.Logic.Function.Iterate

set_option autoImplicit false

namespace LeadingSteps

universe u

variable {S : Type u} (succeeds : S → Prop) [DecidablePred succeeds] (advance : S → S)

/-- How many steps from a state succeed one after the other, counted up to a limit. -/
def count : Nat → S → Nat
  | 0, _ => 0
  | limit + 1, state => if succeeds state then count limit (advance state) + 1 else 0

-- The steps that are taken: those that succeed and, short of the limit, the one that fails.
def taken (limit : Nat) (state : S) : Nat :=
  if count succeeds advance limit state < limit then count succeeds advance limit state + 1
  else count succeeds advance limit state

def settled (limit : Nat) (state : S) : S := advance^[taken succeeds advance limit state] state

theorem count_le (limit : Nat) (state : S) : count succeeds advance limit state ≤ limit := by
  induction limit generalizing state with
  | zero => exact Nat.le_refl 0
  | succ limit ih =>
    rw [count]
    split
    · exact Nat.succ_le_succ (ih _)
    · exact Nat.zero_le _

theorem taken_succeeds (limit : Nat) (state : S) (first : succeeds state) :
    taken succeeds advance (limit + 1) state = taken succeeds advance limit (advance state) + 1 := by
  simp only [taken, count, first, if_true, Nat.add_lt_add_iff_right]
  split <;> rfl

theorem count_add (first second : Nat) (state : S)
    (reached : count succeeds advance first state = first) :
    count succeeds advance (first + second) state =
      first + count succeeds advance second (advance^[first] state) := by
  induction first generalizing state with
  | zero => rw [Nat.zero_add, Nat.zero_add, Function.iterate_zero_apply]
  | succ first ih =>
    by_cases success : succeeds state
    · simp only [count, success, if_true, Nat.add_right_cancel_iff] at reached
      rw [Nat.add_right_comm, count, if_pos success, ih _ reached, Function.iterate_succ_apply]
      omega
    · simp [count, success] at reached

theorem settled_reached (limit : Nat) (state : S)
    (reached : count succeeds advance limit state = limit) :
    settled succeeds advance limit state = advance^[limit] state := by
  rw [settled, taken, reached, if_neg (Nat.lt_irrefl limit)]

theorem settled_add (first second : Nat) (state : S)
    (reached : count succeeds advance first state = first) :
    settled succeeds advance (first + second) state =
      settled succeeds advance second (advance^[first] state) := by
  have steps : taken succeeds advance (first + second) state =
      taken succeeds advance second (advance^[first] state) + first := by
    rw [taken, taken, count_add _ _ _ _ _ reached]
    split <;> split <;> omega
  rw [settled, settled, steps, Function.iterate_add_apply]

end LeadingSteps
