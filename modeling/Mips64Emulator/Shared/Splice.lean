import Mips64Emulator.Shared.Overlay

set_option autoImplicit false

namespace Splice

universe u

variable {V : Type u}

def splice (buffer : List V) (start : Nat) (values : List V) : List V :=
  buffer.take start ++ values ++ buffer.drop (start + values.length)

def slice (buffer : List V) (start count : Nat) : List V := (buffer.drop start).take count

section Fits

variable (buffer : List V) (start : Nat) (values : List V)
  (fits : start + values.length ≤ buffer.length)

include fits

theorem splice_length : (splice buffer start values).length = buffer.length := by
  simp only [splice, List.length_append, List.length_take, List.length_drop]
  omega

theorem splice_getElem? (index : Nat) (inside : index < buffer.length) :
    (splice buffer start values)[index]? =
      (Overlay.range start values index).or buffer[index]? := by
  rw [splice, List.append_assoc]
  rcases Nat.lt_or_ge index start with before | after
  · rw [List.getElem?_append_left (by rw [List.length_take]; omega), List.getElem?_take,
      if_pos before, Overlay.range_misses _ _ _ (Or.inl before)]
    rfl
  have prefixLength : (buffer.take start).length = start := by
    rw [List.length_take]
    omega
  rw [List.getElem?_append_right (by omega), prefixLength]
  rcases Nat.lt_or_ge (index - start) values.length with covered | beyond
  · rw [List.getElem?_append_left covered, Overlay.range, if_pos after,
      List.getElem?_eq_getElem covered]
    rfl
  · rw [List.getElem?_append_right beyond, Overlay.range_misses _ _ _ (Or.inr (by omega)),
      List.getElem?_drop]
    congr 1
    omega

theorem slice_splice : slice (splice buffer start values) start values.length = values := by
  have prefixLength : (buffer.take start).length = start := by
    rw [List.length_take]
    omega
  rw [slice, splice, List.append_assoc, List.drop_append, prefixLength, Nat.sub_self,
    List.drop_zero, List.drop_eq_nil_of_le (by omega), List.nil_append, List.take_left]

theorem slice_splice_inside (position count : Nat) (above : start ≤ position)
    (below : position + count ≤ start + values.length) :
    slice (splice buffer start values) position count = slice values (position - start) count := by
  apply List.ext_getElem?
  intro i
  rw [slice, slice, List.getElem?_take, List.getElem?_take]
  split
  next within =>
    rw [List.getElem?_drop, List.getElem?_drop, splice_getElem? buffer start values fits _ (by omega),
      Overlay.range, if_pos (by omega), show position + i - start = position - start + i by omega,
      List.getElem?_eq_getElem (by omega)]
    rfl
  next => rfl

theorem splice_eq_self_iff :
    splice buffer start values = buffer ↔ slice buffer start values.length = values := by
  constructor
  · intro same
    have written := slice_splice buffer start values fits
    rwa [same] at written
  · intro same
    conv_lhs => rw [splice, ← same]
    rw [slice, List.length_take, List.length_drop, Nat.min_eq_left (by omega), List.append_assoc,
      ← List.drop_drop, List.take_append_drop, List.take_append_drop]

end Fits

-- Beyond the buffer both lists end, so the bytes inside decide.
theorem ext_inside {left right : List V} (length : left.length = right.length)
    (same : ∀ index < right.length, left[index]? = right[index]?) : left = right := by
  apply List.ext_getElem?
  intro index
  by_cases inside : index < right.length
  · exact same index inside
  · rw [List.getElem?_eq_none (by omega), List.getElem?_eq_none (by omega)]

theorem splice_comm (buffer first second : List V) (start position : Nat)
    (fits : start + first.length ≤ buffer.length)
    (fitsOther : position + second.length ≤ buffer.length)
    (disjoint : start + first.length ≤ position ∨ position + second.length ≤ start) :
    splice (splice buffer start first) position second =
      splice (splice buffer position second) start first := by
  have length := splice_length buffer start first fits
  have lengthOther := splice_length buffer position second fitsOther
  have outer := splice_length (splice buffer start first) position second (by omega)
  have outerOther := splice_length (splice buffer position second) start first (by omega)
  apply ext_inside (by omega)
  intro index inside
  simp only [splice_getElem? _ _ _ fits index (by omega),
    splice_getElem? _ _ _ fitsOther index (by omega),
    splice_getElem? (splice buffer start first) position second (by omega) index (by omega),
    splice_getElem? (splice buffer position second) start first (by omega) index (by omega)]
  by_cases covered : start ≤ index ∧ index < start + first.length
  · rw [Overlay.range_misses position second index (by omega)]
    rfl
  · rw [Overlay.range_misses start first index (by omega)]
    rfl

theorem splice_append (buffer first second : List V) (start : Nat)
    (inside : start ≤ buffer.length) :
    splice (splice buffer start first) (start + first.length) second =
      splice buffer start (first ++ second) := by
  have front : (buffer.take start ++ first).length = start + first.length := by
    rw [List.length_append, List.length_take, Nat.min_eq_left inside]
  have kept : (splice buffer start first).take (start + first.length) =
      buffer.take start ++ first := by
    rw [splice, List.take_left' front]
  have beyond : (splice buffer start first).drop (start + first.length + second.length) =
      buffer.drop (start + (first ++ second).length) := by
    rw [splice, ← List.drop_drop, List.drop_left' front, List.drop_drop, List.length_append,
      Nat.add_assoc]
  rw [splice, kept, beyond, splice, List.append_assoc (buffer.take start)]

theorem flatten_getElem? (chunks : List (List V)) (k : Nat) (chunk : List V)
    (listed : chunks[k]? = some chunk) (i : Nat) (inside : i < chunk.length) :
    chunks.flatten[(chunks.take k).flatten.length + i]? = chunk[i]? := by
  induction chunks generalizing k with
  | nil => simp at listed
  | cons first rest ih =>
    cases k with
    | zero =>
      have same : first = chunk := by simpa using listed
      simp [same, List.getElem?_append_left inside]
    | succ k =>
      have later := ih k (by simpa using listed)
      simp only [List.take_succ_cons, List.flatten_cons, List.length_append]
      rw [Nat.add_assoc, List.getElem?_append_right (by omega), Nat.add_sub_cancel_left, later]

end Splice
