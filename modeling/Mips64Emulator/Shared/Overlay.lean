import Mathlib.Data.List.Basic

set_option autoImplicit false

/-!
# Writes laid over a map

A write covers some keys and gives each a value. Over a list of writes, newest first, a key holds
what the most recent write covering it gave.
-/

namespace Overlay

universe u v

variable {K : Type u} {V : Type v}

def apply (write : K → Option V) (base : K → V) (key : K) : V := (write key).getD (base key)

def latest (writes : List (K → Option V)) (key : K) : Option V := writes.findSome? (· key)

@[simp] theorem latest_nil (key : K) : latest ([] : List (K → Option V)) key = none := rfl

theorem latest_cons (write : K → Option V) (earlier : List (K → Option V)) (key : K) :
    latest (write :: earlier) key = (write key).or (latest earlier key) := by
  cases covered : write key <;> simp [latest, covered]

theorem latest_cons_getD (write : K → Option V) (earlier : List (K → Option V)) (base : K → V)
    (key : K) :
    (latest (write :: earlier) key).getD (base key) =
      apply write (fun key => (latest earlier key).getD (base key)) key := by
  rw [latest_cons, apply]
  cases write key <;> simp

def single [DecidableEq K] (target : K) (value : V) (key : K) : Option V :=
  if key = target then some value else none

def range (start : Nat) (values : List V) (key : Nat) : Option V :=
  if start ≤ key then values[key - start]? else none

theorem range_offset (start : Nat) (values : List V) (offset : Nat) :
    range start values (start + offset) = values[offset]? := by
  simp [range]

theorem range_misses (start : Nat) (values : List V) (key : Nat)
    (outside : key < start ∨ start + values.length ≤ key) : range start values key = none := by
  rw [range]
  split
  · apply List.getElem?_eq_none
    omega
  · rfl

theorem range_append (start : Nat) (first second : List V) (base : Nat → V) :
    apply (range (start + first.length) second) (apply (range start first) base) =
      apply (range start (first ++ second)) base := by
  funext key
  simp only [apply, range]
  by_cases below : key < start
  · simp [Nat.not_le.mpr below, show ¬ start + first.length ≤ key by omega]
  by_cases inFirst : key < start + first.length
  · rw [if_neg (by omega), if_pos (by omega), if_pos (by omega),
      List.getElem?_append_left (by omega)]
    rfl
  · have reach : start + first.length ≤ key := by omega
    have later : first[key - start]? = none := List.getElem?_eq_none (by omega)
    rw [if_pos reach, if_pos (by omega), if_pos (by omega), later,
      List.getElem?_append_right (by omega), Nat.sub_sub]
    rfl

end Overlay
