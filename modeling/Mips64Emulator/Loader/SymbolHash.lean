import Mips64Emulator.Core.ElfLoader

set_option autoImplicit false

namespace Mips64

-- The top four bits of the sum come back sixteen places lower.
def fold28 (sum : Nat) : Nat := sum % 2 ^ 28 ^^^ 16 * (sum / 2 ^ 28)

def elfHashStep (hash : Nat) (byte : BitVec 8) : Nat :=
  fold28 ((16 * hash + byte.toNat) % 2 ^ 32)

def elfHash (name : List (BitVec 8)) : Nat := name.foldl elfHashStep 0

def hashByte (hash : BitVec 32) (byte : BitVec 8) : BitVec 32 :=
  let hash := (hash <<< 4) + byte.setWidth 32
  let g := hash &&& 0xF0000000
  if g ≠ 0 then (hash ^^^ (g >>> 24)) &&& ~~~g else hash

theorem hashName_cons (hash : BitVec 32) (byte : BitVec 8) (rest : List (BitVec 8))
    (nonzero : byte ≠ 0) : hashName hash (byte :: rest) = hashName (hashByte hash byte) rest := by
  simp only [hashName, if_neg nonzero, hashByte]
  exact (apply_ite (hashName · rest) _ _ _).symm

theorem topMask_getLsbD (i : Nat) (inside : i < 32) :
    (0xF0000000 : BitVec 32).getLsbD i = decide (28 ≤ i) := by
  revert i
  decide

theorem masked_bits (sum : BitVec 32) :
    (sum ^^^ ((sum &&& 0xF0000000) >>> 24)) &&& ~~~(sum &&& 0xF0000000) =
      (sum.setWidth 28).setWidth 32 ^^^ (sum >>> 28) <<< 4 := by
  have mask := topMask_getLsbD
  generalize (0xF0000000 : BitVec 32) = top at mask
  apply BitVec.eq_of_getLsbD_eq
  intro i inside
  have here := mask i inside
  simp only [BitVec.getLsbD_and, BitVec.getLsbD_xor, BitVec.getLsbD_ushiftRight,
    BitVec.getLsbD_not, BitVec.getLsbD_setWidth, BitVec.getLsbD_shiftLeft, here, inside]
  by_cases high : 28 ≤ i
  · have above : sum.getLsbD (24 + i) = false := BitVec.getLsbD_of_ge _ _ (by omega)
    have aboveToo : sum.getLsbD (28 + (i - 4)) = false := BitVec.getLsbD_of_ge _ _ (by omega)
    simp [high, above, aboveToo, Nat.not_lt.mpr high]
  · by_cases low : i < 4
    · have clear := mask (24 + i) (by omega)
      simp [high, low, clear, show ¬ 28 ≤ 24 + i by omega, show i < 28 by omega]
    · have position : 28 + (i - 4) = 24 + i := by omega
      by_cases beyond : 32 ≤ 24 + i
      · have above : sum.getLsbD (24 + i) = false := BitVec.getLsbD_of_ge _ _ beyond
        simp [high, above, position, show i < 28 by omega]
      · have set := mask (24 + i) (by omega)
        simp [high, low, set, position, show 28 ≤ 24 + i by omega, show i < 28 by omega]

theorem masked_toNat (sum : BitVec 32) :
    ((sum ^^^ ((sum &&& 0xF0000000) >>> 24)) &&& ~~~(sum &&& 0xF0000000)).toNat =
      fold28 sum.toNat := by
  have low : ((sum.setWidth 28).setWidth 32).toNat = sum.toNat % 2 ^ 28 := by
    rw [BitVec.toNat_setWidth, BitVec.toNat_setWidth]
    omega
  have back : ((sum >>> 28) <<< 4).toNat = 16 * (sum.toNat / 2 ^ 28) := by
    rw [BitVec.toNat_shiftLeft, BitVec.toNat_ushiftRight, Nat.shiftLeft_eq,
      Nat.shiftRight_eq_div_pow]
    omega
  rw [masked_bits, BitVec.toNat_xor, low, back, fold28]

theorem hashByte_toNat (hash : BitVec 32) (byte : BitVec 8) :
    (hashByte hash byte).toNat = elfHashStep hash.toNat byte := by
  have sum : ((hash <<< 4) + byte.setWidth 32).toNat = (16 * hash.toNat + byte.toNat) % 2 ^ 32 := by
    have byteBound := byte.isLt
    rw [BitVec.toNat_add, BitVec.toNat_shiftLeft, BitVec.toNat_setWidth, Nat.shiftLeft_eq]
    omega
  rw [elfHashStep, ← sum, ← masked_toNat]
  simp only [hashByte]
  generalize (hash <<< 4) + byte.setWidth 32 = word
  by_cases clear : word &&& 0xF0000000 = 0
  · rw [if_neg (not_not.mpr clear), clear]
    simp only [BitVec.zero_ushiftRight, BitVec.xor_zero, BitVec.ofNat_eq_ofNat, BitVec.not_zero,
      BitVec.and_allOnes]
  · rw [if_pos clear]

theorem fold28_lt (sum : Nat) (word : sum < 2 ^ 32) : fold28 sum < 2 ^ 28 :=
  Nat.xor_lt_two_pow (Nat.mod_lt _ (by decide)) (by omega)

theorem fold28_div (sum : Nat) (word : sum < 2 ^ 32) :
    fold28 sum / 2 ^ 8 = sum % 2 ^ 28 / 2 ^ 8 := by
  have small : 16 * (sum / 2 ^ 28) / 2 ^ 8 = 0 := by omega
  rw [fold28, Nat.xor_div_two_pow, small, Nat.xor_zero]

/-- Two sums apart by less than a byte never fold to the same word: across a block of `2 ^ 28` the
upper bits go from all ones to zero. -/
theorem fold28_inj (base first second : Nat) (firstByte : first < 2 ^ 8) (secondByte : second < 2 ^ 8)
    (same : fold28 ((base + first) % 2 ^ 32) = fold28 ((base + second) % 2 ^ 32)) :
    first = second := by
  have upper := fold28_div ((base + first) % 2 ^ 32) (Nat.mod_lt _ (by decide))
  have upperToo := fold28_div ((base + second) % 2 ^ 32) (Nat.mod_lt _ (by decide))
  rw [same, upperToo] at upper
  by_cases block : (base + first) % 2 ^ 32 / 2 ^ 28 = (base + second) % 2 ^ 32 / 2 ^ 28
  · rw [fold28, fold28, block] at same
    have low := Nat.xor_left_injective same
    omega
  · omega

theorem elfHash_append (shared : List (BitVec 8)) (last : BitVec 8) :
    elfHash (shared ++ [last]) = elfHashStep (elfHash shared) last := by
  simp [elfHash]

theorem elfHash_last_inj (shared : List (BitVec 8)) (last other : BitVec 8)
    (same : elfHash (shared ++ [last]) = elfHash (shared ++ [other])) : last = other := by
  rw [elfHash_append, elfHash_append] at same
  exact BitVec.eq_of_toNat_eq (fold28_inj _ _ _ last.isLt other.isLt same)

theorem foldl_elfHashStep_lt (name : List (BitVec 8)) (start : Nat) (small : start < 2 ^ 28) :
    name.foldl elfHashStep start < 2 ^ 28 := by
  induction name generalizing start with
  | nil => exact small
  | cons byte rest ih => exact ih _ (fold28_lt _ (Nat.mod_lt _ (by decide)))

theorem hashName_correct (hash : BitVec 32) (name rest : List (BitVec 8)) (cstring : 0 ∉ name) :
    ∃ result, hashName hash (name ++ 0 :: rest) = some result ∧
      result.toNat = name.foldl elfHashStep hash.toNat := by
  induction name generalizing hash with
  | nil => exact ⟨hash, by simp [hashName], rfl⟩
  | cons byte name ih =>
    have nonzero : byte ≠ 0 := fun zero => cstring (by simp [zero])
    have later : 0 ∉ name := fun member => cstring (List.mem_cons_of_mem _ member)
    obtain ⟨result, ran, value⟩ := ih (hashByte hash byte) later
    refine ⟨result, ?_, ?_⟩
    · rw [List.cons_append, hashName_cons hash byte _ nonzero, ran]
    · rw [value, hashByte_toNat, List.foldl_cons]

theorem hashTable_correct (out : BitVec 32) (name rest : List (BitVec 8)) (cstring : 0 ∉ name) :
    ∃ hash : BitVec 32, hashTable (.ref out) (.ref (name ++ 0 :: rest)) = some (.ok, .ref hash) ∧
      hash.toNat = elfHash name := by
  obtain ⟨hash, ran, value⟩ := hashName_correct 0 name rest cstring
  refine ⟨hash, ?_, value⟩
  simp only [hashTable, ran]
  rfl

theorem hashTable_is_elf_hash (out : BitVec 32) (name rest : List (BitVec 8)) (cstring : 0 ∉ name) :
    (∃ hash : BitVec 32,
      hashTable (.ref out) (.ref (name ++ 0 :: rest)) = some (.ok, .ref hash) ∧
        hash.toNat < 2 ^ 28 ∧ hash.toNat = elfHash name) ∧
    ∀ (shared otherRest : List (BitVec 8)) (last other : BitVec 8), name = shared ++ [last] →
      other ≠ 0 → other ≠ last →
        hashTable (.ref out) (.ref (shared ++ [other] ++ 0 :: otherRest)) ≠
          hashTable (.ref out) (.ref (name ++ 0 :: rest)) := by
  obtain ⟨hash, ran, value⟩ := hashTable_correct out name rest cstring
  constructor
  · have small : elfHash name < 2 ^ 28 := foldl_elfHashStep_lt name 0 (by decide)
    exact ⟨hash, ran, by omega, value⟩
  · intro shared otherRest last other split nonzero differ equal
    have otherString : 0 ∉ shared ++ [other] := by
      intro member
      rcases List.mem_append.mp member with early | final
      · rw [split] at cstring
        exact cstring (List.mem_append_left _ early)
      · exact nonzero (List.mem_singleton.mp final).symm
    obtain ⟨otherHash, otherRan, otherValue⟩ :=
      hashTable_correct out (shared ++ [other]) otherRest otherString
    have hashes : otherHash = hash := by
      rw [ran, otherRan] at equal
      simpa using equal
    apply differ
    apply elfHash_last_inj shared
    rw [← otherValue, ← split, ← value, hashes]

-- The sum of the eighth byte passes `2 ^ 32`.
theorem hashTable_is_elf_hash_high :
    let name : List (BitVec 8) := List.replicate 7 0x0F ++ [0xFF]
    (∃ hash : BitVec 32,
      hashTable (.ref 0) (.ref (name ++ [0])) = some (.ok, .ref hash) ∧
        hash.toNat < 2 ^ 28 ∧ hash.toNat = elfHash name) ∧
    hashTable (.ref 0) (.ref (List.replicate 7 0x0F ++ [0xFE] ++ [0])) ≠
      hashTable (.ref 0) (.ref (name ++ [0])) := by
  intro name
  obtain ⟨value, differs⟩ := hashTable_is_elf_hash 0 name [] (by decide)
  exact ⟨value, differs (List.replicate 7 0x0F) [] 0xFF 0xFE rfl (by decide) (by decide)⟩

end Mips64
