import Mathlib.Data.Nat.Digits.Defs

set_option autoImplicit false

namespace ByteOrder

def join (n : Nat) : List (BitVec 8) → BitVec n
  | [] => 0
  | byte :: rest => byte.setWidth n ||| join n rest <<< 8

def split {n : Nat} : Nat → BitVec n → List (BitVec 8)
  | 0, _ => []
  | count + 1, word => word.setWidth 8 :: split count (word >>> 8)

def number (bytes : List (BitVec 8)) : Nat := Nat.ofDigits 256 (bytes.map BitVec.toNat)

@[simp] theorem number_nil : number [] = 0 := rfl

@[simp] theorem number_cons (byte : BitVec 8) (rest : List (BitVec 8)) :
    number (byte :: rest) = byte.toNat + 256 * number rest := by
  simp [number, Nat.ofDigits_cons]

theorem number_lt (bytes : List (BitVec 8)) : number bytes < 2 ^ (8 * bytes.length) := by
  induction bytes with
  | nil => simp
  | cons byte rest ih =>
    have byteBound := byte.isLt
    rw [number_cons, List.length_cons, Nat.mul_succ, Nat.pow_add]
    omega

theorem join_toNat (n : Nat) (bytes : List (BitVec 8)) (fits : 8 * bytes.length ≤ n) :
    (join n bytes).toNat = number bytes := by
  induction bytes with
  | nil => simp [join]
  | cons byte rest ih =>
    have byteBound := byte.isLt
    have restBound := number_lt (byte :: rest)
    have wide := Nat.pow_le_pow_right (n := 2) (by omega) fits
    rw [List.length_cons] at fits
    rw [number_cons] at restBound ⊢
    rw [join, BitVec.toNat_or, BitVec.toNat_setWidth, BitVec.toNat_shiftLeft, ih (by omega),
      Nat.mod_eq_of_lt (by omega), Nat.shiftLeft_eq, Nat.mod_eq_of_lt (by omega),
      ← Nat.shiftLeft_eq, Nat.or_comm, ← Nat.shiftLeft_add_eq_or_of_lt byteBound,
      Nat.shiftLeft_eq]
    omega

theorem join_append_single (n : Nat) (bytes : List (BitVec 8)) (last : BitVec 8) :
    join n (bytes ++ [last]) = join n bytes ||| last.setWidth n <<< (8 * bytes.length) := by
  induction bytes with
  | nil => simp [join]
  | cons byte rest ih =>
    simp only [List.cons_append, join, ih, BitVec.shiftLeft_or_distrib, ← BitVec.shiftLeft_add,
      BitVec.or_assoc, List.length_cons, Nat.mul_succ]

theorem join_reverse_cons (n : Nat) (byte : BitVec 8) (rest : List (BitVec 8)) :
    join n (byte :: rest).reverse =
      byte.setWidth n <<< (8 * rest.length) ||| join n rest.reverse := by
  rw [List.reverse_cons, join_append_single, List.length_reverse, BitVec.or_comm]

theorem foldl_or_little (n count : Nat) (byte : Nat → BitVec 8) (start : BitVec n) :
    (List.range count).foldl (fun value i => value ||| (byte i).setWidth n <<< (i * 8)) start =
      start ||| join n ((List.range count).map byte) := by
  induction count with
  | zero => simp [join]
  | succ count ih =>
    rw [List.range_succ, List.foldl_append, ih, List.map_append, List.map_singleton,
      join_append_single, List.length_map, List.length_range, Nat.mul_comm]
    exact BitVec.or_assoc _ _ _

theorem foldl_or_big (n count : Nat) (byte : Nat → BitVec 8) (start : BitVec n) :
    (List.range count).foldl
        (fun value i => value ||| (byte i).setWidth n <<< ((count - 1 - i) * 8)) start =
      start ||| join n ((List.range count).map byte).reverse := by
  induction count generalizing byte start with
  | zero => simp [join]
  | succ count ih =>
    have later := ih (fun i => byte (i + 1)) (start ||| (byte 0).setWidth n <<< (count * 8))
    have index (i : Nat) : count - 1 - i = count - (i + 1) := by omega
    simp only [List.range_succ_eq_map, List.foldl_cons, List.foldl_map, List.map_cons,
      List.map_map, List.reverse_cons, join_append_single, List.length_reverse, List.length_map,
      List.length_range, index, Nat.succ_eq_add_one, Nat.add_sub_cancel, Nat.sub_zero,
      Function.comp_def] at later ⊢
    rw [later, Nat.mul_comm 8 count, BitVec.or_assoc]
    congr 1
    exact BitVec.or_comm _ _

@[simp] theorem split_length {n : Nat} (count : Nat) (word : BitVec n) :
    (split count word).length = count := by
  induction count generalizing word with
  | zero => rfl
  | succ count ih => simp [split, ih]

theorem split_getElem? {n : Nat} (count : Nat) (word : BitVec n) (i : Nat) (inside : i < count) :
    (split count word)[i]? = some ((word >>> (8 * i)).setWidth 8) := by
  induction count generalizing word i with
  | zero => omega
  | succ count ih =>
    cases i with
    | zero => simp [split]
    | succ i =>
      rw [split, List.getElem?_cons_succ, ih _ i (by omega), ← BitVec.shiftRight_add,
        Nat.mul_succ, Nat.add_comm]

theorem join_split_getLsbD {n : Nat} (count : Nat) (word : BitVec n) (i : Nat) :
    (join n (split count word)).getLsbD i = (decide (i < 8 * count) && word.getLsbD i) := by
  induction count generalizing word i with
  | zero => simp [split, join]
  | succ count ih =>
    rw [split, join, BitVec.getLsbD_or, BitVec.getLsbD_setWidth, BitVec.getLsbD_setWidth,
      BitVec.getLsbD_shiftLeft, ih, BitVec.getLsbD_ushiftRight]
    by_cases outside : n ≤ i
    · simp [outside]
    · by_cases low : i < 8
      · have covered : i < 8 * (count + 1) := by omega
        simp [low, covered]
        omega
      · have index : 8 + (i - 8) = i := by omega
        have shifted : i - 8 < 8 * count ↔ i < 8 * (count + 1) := by omega
        simp [low, index, shifted]
        omega

theorem join_split {n : Nat} (count : Nat) (word : BitVec n) (covers : n ≤ 8 * count) :
    join n (split count word) = word := by
  apply BitVec.eq_of_getLsbD_eq
  intro i inside
  have covered : i < 8 * count := by omega
  simp [join_split_getLsbD, covered]

theorem split_eq_map {n : Nat} (count : Nat) (word : BitVec n) :
    split count word = (List.range count).map fun i => (word >>> (i * 8)).setWidth 8 := by
  apply List.ext_getElem?
  intro i
  by_cases inside : i < count
  · rw [split_getElem? count word i inside, Nat.mul_comm]
    simp [inside]
  · rw [List.getElem?_eq_none (by simpa using inside), List.getElem?_eq_none (by simpa using inside)]

theorem split_reverse {n : Nat} (count : Nat) (word : BitVec n) :
    (split count word).reverse =
      (List.range count).map fun i => (word >>> ((count - 1 - i) * 8)).setWidth 8 := by
  rw [split_eq_map, ← List.map_reverse]
  apply List.ext_getElem
  · simp
  · intro i left right
    simp

theorem foldl_shift (n : Nat) (bytes : List (BitVec 8)) :
    bytes.foldl (fun (value : BitVec n) byte => value <<< 8 ||| byte.setWidth n) 0#n = join n bytes.reverse := by
  have reversed (bytes : List (BitVec 8)) :
      bytes.reverse.foldl (fun (value : BitVec n) byte => value <<< 8 ||| byte.setWidth n) 0#n =
        join n bytes := by
    induction bytes with
    | nil => rfl
    | cons byte rest ih =>
      rw [List.reverse_cons, List.foldl_append, ih, join]
      exact BitVec.or_comm _ _
  rw [← reversed, List.reverse_reverse]

theorem split_add {n : Nat} (low high : Nat) (word : BitVec n) :
    split (low + high) word = split low word ++ split high (word >>> (8 * low)) := by
  induction low generalizing word with
  | zero => simp [split]
  | succ low ih =>
    rw [Nat.succ_add, split, split, ih, List.cons_append, ← BitVec.shiftRight_add, Nat.mul_succ,
      Nat.add_comm]

theorem number_split {n : Nat} (count : Nat) (word : BitVec n) :
    number (split count word) = word.toNat % 2 ^ (8 * count) := by
  induction count generalizing word with
  | zero => simp [split, Nat.mod_one]
  | succ count ih =>
    rw [split, number_cons, ih, BitVec.toNat_setWidth, BitVec.toNat_ushiftRight,
      Nat.shiftRight_eq_div_pow, Nat.mul_succ, Nat.add_comm (8 * count), Nat.pow_add, Nat.mod_mul]

theorem join_split_setWidth {n : Nat} (count : Nat) (word : BitVec n) :
    join (8 * count) (split count word) = word.setWidth (8 * count) := by
  apply BitVec.eq_of_toNat_eq
  rw [join_toNat _ _ (by simp), number_split, BitVec.toNat_setWidth]

end ByteOrder
