import Mathlib.Data.List.Induction
import Mathlib.Data.Nat.Digits.Defs
import Mathlib.Tactic.Common

set_option autoImplicit false

/-!
# Text laid out in columns of fixed width

A layout is a list of literal texts and zero-padded numerals. Reading and printing by a layout are
inverse partial functions.
-/

namespace Columns

-- The bases `Nat.digitChar` has digits for.
structure Radix where
  base : Nat
  two_le : 2 ≤ base
  le_sixteen : base ≤ 16

namespace Radix

def hexadecimal : Radix := ⟨16, by decide, by decide⟩

theorem base_pos (radix : Radix) : 0 < radix.base :=
  Nat.lt_of_lt_of_le (by decide) radix.two_le

end Radix

section Numerals

variable (radix : Radix)

def numeral : Nat → Nat → List Char
  | 0, _ => []
  | width + 1, value =>
    numeral width (value / radix.base) ++ [Nat.digitChar (value % radix.base)]

def readDigit (symbol : Char) : Option Nat :=
  (List.range radix.base).find? fun digit => Nat.digitChar digit = symbol

def readNumeral (text : List Char) : Option Nat :=
  text.foldlM (fun value symbol => (readDigit radix symbol).map (value * radix.base + ·)) 0

theorem numeral_length (width value : Nat) : (numeral radix width value).length = width := by
  induction width generalizing value with
  | zero => rfl
  | succ width ih => simp [numeral, ih]

theorem digitChar_injective : ∀ first < 16, ∀ second < 16,
    Nat.digitChar first = Nat.digitChar second → first = second := by decide

theorem readDigit_iff (symbol : Char) (digit : Nat) :
    readDigit radix symbol = some digit ↔
      digit < radix.base ∧ Nat.digitChar digit = symbol := by
  rw [readDigit, List.find?_range_eq_some]
  simp only [decide_eq_true_eq, List.mem_range, Bool.not_eq_true', decide_eq_false_iff_not]
  constructor
  · rintro ⟨shown, within, -⟩
    exact ⟨within, shown⟩
  · rintro ⟨within, rfl⟩
    refine ⟨rfl, within, fun earlier before same => ?_⟩
    have bound := radix.le_sixteen
    have equal := digitChar_injective earlier (by omega) digit (by omega) same
    omega

theorem readNumeral_concat (text : List Char) (symbol : Char) (value : Nat) :
    readNumeral radix (text ++ [symbol]) = some value ↔
      ∃ front digit, readNumeral radix text = some front ∧
        readDigit radix symbol = some digit ∧ front * radix.base + digit = value := by
  simp [readNumeral, List.foldlM_append, Option.bind_eq_some_iff, Option.map_eq_some_iff]

/-- A text is read as a value just when it is the numeral of that value at the text's own width. -/
theorem readNumeral_iff (text : List Char) (value : Nat) :
    readNumeral radix text = some value ↔
      value < radix.base ^ text.length ∧ numeral radix text.length value = text := by
  induction text using List.reverseRecOn generalizing value with
  | nil => simp [readNumeral, numeral, eq_comm]
  | append_singleton text symbol ih =>
    have positive := radix.base_pos
    rw [readNumeral_concat, List.length_append, List.length_singleton, numeral, Nat.pow_succ]
    simp only [ih, readDigit_iff]
    constructor
    · rintro ⟨front, digit, ⟨within, printed⟩, ⟨small, shown⟩, rfl⟩
      have quotient : (front * radix.base + digit) / radix.base = front := by
        rw [Nat.mul_comm, Nat.mul_add_div positive, Nat.div_eq_of_lt small, Nat.add_zero]
      have remainder : (front * radix.base + digit) % radix.base = digit := by
        rw [Nat.mul_comm, Nat.mul_add_mod, Nat.mod_eq_of_lt small]
      refine ⟨?_, by rw [quotient, remainder, printed, shown]⟩
      calc front * radix.base + digit
          < (front + 1) * radix.base := by rw [Nat.add_mul, Nat.one_mul]; omega
        _ ≤ radix.base ^ text.length * radix.base := Nat.mul_le_mul_right _ within
    · rintro ⟨within, printed⟩
      obtain ⟨front, last⟩ := List.append_inj printed (numeral_length radix _ _)
      refine ⟨value / radix.base, value % radix.base, ⟨?_, front⟩,
        ⟨Nat.mod_lt _ positive, List.singleton_inj.mp last⟩, Nat.div_add_mod' _ _⟩
      exact Nat.div_lt_of_lt_mul (by rwa [Nat.mul_comm] at within)

theorem leftpad_concat (width : Nat) (filler symbol : Char) (text : List Char) :
    (text ++ [symbol]).leftpad (width + 1) filler = text.leftpad width filler ++ [symbol] := by
  simp [List.leftpad, List.append_assoc]

theorem toDigits_leftpad (width value : Nat) (fits : value < radix.base ^ (width + 1)) :
    (Nat.toDigits radix.base value).leftpad (width + 1) '0' =
      numeral radix (width + 1) value := by
  have positive := radix.base_pos
  induction width generalizing value with
  | zero =>
    have small : value < radix.base := by simpa using fits
    rw [Nat.toDigits_of_lt_base small, numeral, numeral, Nat.mod_eq_of_lt small]
    rfl
  | succ width ih =>
    have front : value / radix.base < radix.base ^ (width + 1) :=
      Nat.div_lt_of_lt_mul (by rwa [Nat.pow_succ, Nat.mul_comm] at fits)
    rw [numeral, ← ih _ front, ← leftpad_concat]
    by_cases small : value < radix.base
    · have lone : Nat.toDigits radix.base (value / radix.base) = ['0'] := by
        rw [Nat.div_eq_of_lt small, Nat.toDigits_zero]
      rw [Nat.toDigits_of_lt_base small, lone, Nat.mod_eq_of_lt small]
      simp [List.leftpad, List.replicate_succ']
    · rw [Nat.toDigits_of_base_le radix.two_le (Nat.le_of_not_lt small)]

end Numerals

inductive Column where
  | text (symbols : List Char)
  | number (width : Nat) (radix : Radix)

namespace Column

def width : Column → Nat
  | text symbols => symbols.length
  | number width _ => width

end Column

-- Nothing is printed when a value does not fit its column, or the counts differ.
def print : List Column → List Nat → Option (List Char)
  | [], [] => some []
  | [], _ :: _ => none
  | .text symbols :: rest, values => (print rest values).map (symbols ++ ·)
  | .number _ _ :: _, [] => none
  | .number width radix :: rest, value :: values =>
    if value < radix.base ^ width then
      (print rest values).map (numeral radix width value ++ ·)
    else none

def read : List Column → List Char → Option (List Nat)
  | [], text => if text = [] then some [] else none
  | .text symbols :: rest, text =>
    if text.take symbols.length = symbols then read rest (text.drop symbols.length) else none
  | .number width radix :: rest, text =>
    if text.length < width then none
    else
      (readNumeral radix (text.take width)).bind fun value =>
        (read rest (text.drop width)).map (value :: ·)

theorem read_iff (columns : List Column) (text : List Char) (values : List Nat) :
    read columns text = some values ↔ print columns values = some text := by
  induction columns generalizing text values with
  | nil =>
    cases values with
    | nil => simp [read, print, eq_comm]
    | cons value values => simp [read, print]
  | cons column rest ih =>
    cases column with
    | text symbols =>
      simp only [read, print, Option.ite_none_right_eq_some, ih, Option.map_eq_some_iff]
      constructor
      · rintro ⟨front, printed⟩
        refine ⟨_, printed, ?_⟩
        calc symbols ++ text.drop symbols.length
            = text.take symbols.length ++ text.drop symbols.length := by rw [front]
          _ = text := List.take_append_drop _ _
      · rintro ⟨back, printed, rfl⟩
        simpa using printed
    | number width radix =>
      cases values with
      | nil => simp [read, print, Option.bind_eq_some_iff]
      | cons value values =>
        simp only [read, print, Option.ite_none_left_eq_some, Option.ite_none_right_eq_some,
          Option.bind_eq_some_iff, Option.map_eq_some_iff, ih, readNumeral_iff, List.cons.injEq]
        constructor
        · rintro ⟨long, first, ⟨fits, shown⟩, others, printed, rfl, rfl⟩
          rw [List.length_take_of_le (Nat.le_of_not_lt long)] at fits shown
          exact ⟨fits, _, printed, by rw [shown, List.take_append_drop]⟩
        · rintro ⟨fits, back, printed, rfl⟩
          have length := numeral_length radix width value
          have front : (numeral radix width value ++ back).take width =
              numeral radix width value := List.take_left' length
          refine ⟨by rw [List.length_append]; omega, value, ?_, values, ?_, rfl, rfl⟩
          · rw [front, length]
            exact ⟨fits, rfl⟩
          · rwa [List.drop_left' length]

theorem print_length {columns : List Column} {values : List Nat} {text : List Char}
    (printed : print columns values = some text) :
    text.length = (columns.map Column.width).sum := by
  induction columns generalizing values text with
  | nil =>
    cases values with
    | nil =>
      cases printed
      rfl
    | cons value values => cases printed
  | cons column rest ih =>
    cases column with
    | text symbols =>
      obtain ⟨back, later, rfl⟩ := Option.map_eq_some_iff.mp printed
      simp [Column.width, ih later]
    | number width radix =>
      cases values with
      | nil => cases printed
      | cons value values =>
        simp only [print, Option.ite_none_right_eq_some, Option.map_eq_some_iff] at printed
        obtain ⟨-, back, later, rfl⟩ := printed
        simp [Column.width, numeral_length, ih later]

theorem print_append {columns others : List Column} {values more : List Nat}
    {text later : List Char} (printed : print columns values = some text)
    (continued : print others more = some later) :
    print (columns ++ others) (values ++ more) = some (text ++ later) := by
  induction columns generalizing values text with
  | nil =>
    cases values with
    | nil =>
      cases printed
      exact continued
    | cons value values => cases printed
  | cons column rest ih =>
    cases column with
    | text symbols =>
      obtain ⟨back, shown, rfl⟩ := Option.map_eq_some_iff.mp printed
      simp [print, ih shown]
    | number width radix =>
      cases values with
      | nil => cases printed
      | cons value values =>
        simp only [print, Option.ite_none_right_eq_some, Option.map_eq_some_iff] at printed
        obtain ⟨fits, back, shown, rfl⟩ := printed
        simp [print, fits, ih shown]

theorem print_flatMap {Item : Type} (columns : Item → List Column) (value : Item → Nat)
    (text : Item → List Char) (items : List Item)
    (printed : ∀ item ∈ items, print (columns item) [value item] = some (text item)) :
    print (items.flatMap columns) (items.map value) = some (items.flatMap text) := by
  induction items with
  | nil => rfl
  | cons item rest ih =>
    have first := printed item List.mem_cons_self
    have others := ih fun later member => printed later (List.mem_cons_of_mem _ member)
    exact print_append first others

end Columns
