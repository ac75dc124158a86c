import Mathlib.Data.Nat.Bitwise
import Mathlib.Tactic.Ring
import Mips64Emulator.Shared.Overlay

set_option autoImplicit false

/-!
# Address swizzling

Flipping the bits from `low` up to `high` mirrors the units of `2 ^ low` addresses within each
block of `2 ^ high`.
-/

namespace Swizzle

def flip (low high x : Nat) : Nat := x ^^^ (2 ^ high - 2 ^ low)

@[simp] theorem flip_flip (low high x : Nat) : flip low high (flip low high x) = x := by
  simp [flip]

theorem flip_all (high x : Nat) (below : x < 2 ^ high) : flip 0 high x = 2 ^ high - 1 - x := by
  have flipped := congrArg BitVec.toNat (@BitVec.xor_allOnes high (BitVec.ofNat high x))
  rw [BitVec.toNat_not, BitVec.toNat_xor, BitVec.toNat_allOnes, BitVec.toNat_ofNat,
    Nat.mod_eq_of_lt below] at flipped
  exact flipped

theorem flip_below (low high x : Nat) (nested : low ≤ high) (below : x < 2 ^ high)
    (aligned : 2 ^ low ∣ x) : flip low high x = 2 ^ high - 2 ^ low - x := by
  obtain ⟨unit, rfl⟩ := aligned
  have blocks : 2 ^ high = 2 ^ low * 2 ^ (high - low) := by
    rw [← Nat.pow_add, Nat.add_sub_cancel' nested]
  have unitBelow : unit < 2 ^ (high - low) := by
    rw [blocks] at below
    exact Nat.lt_of_mul_lt_mul_left below
  have mirrored := flip_all (high - low) unit unitBelow
  have scaled := congrArg (fun value => 2 ^ low * value) mirrored
  have mask : 2 ^ high - 2 ^ low = 2 ^ low * (2 ^ (high - low) - 1) := by
    rw [blocks, Nat.mul_sub, Nat.mul_one]
  rw [flip, mask, ← Nat.mul_sub]
  simpa only [flip, Nat.pow_zero, Nat.mul_comm (2 ^ low), ← Nat.shiftLeft_eq,
    Nat.shiftLeft_xor_distrib] using scaled

section Blocks

variable (low high x : Nat) (nested : low ≤ high) (aligned : 2 ^ low ∣ x)

include nested aligned

theorem unit_fits : x % 2 ^ high + 2 ^ low ≤ 2 ^ high := by
  have unitDivides : 2 ^ low ∣ x % 2 ^ high :=
    (Nat.dvd_mod_iff (Nat.pow_dvd_pow 2 nested)).mpr aligned
  obtain ⟨unit, offset⟩ := unitDivides
  have below := Nat.mod_lt x (Nat.two_pow_pos high)
  have blocks : 2 ^ high = 2 ^ low * 2 ^ (high - low) := by
    rw [← Nat.pow_add, Nat.add_sub_cancel' nested]
  rw [offset, blocks] at below ⊢
  have unitBelow := Nat.lt_of_mul_lt_mul_left below
  calc 2 ^ low * unit + 2 ^ low = 2 ^ low * (unit + 1) := by ring
    _ ≤ 2 ^ low * 2 ^ (high - low) := Nat.mul_le_mul_left _ unitBelow

theorem flip_eq :
    flip low high x = 2 ^ high * (x / 2 ^ high) + (2 ^ high - 2 ^ low - x % 2 ^ high) := by
  have positive := Nat.two_pow_pos low
  have maskBelow : 2 ^ high - 2 ^ low < 2 ^ high := by
    have := Nat.two_pow_pos high
    omega
  have quotient : flip low high x / 2 ^ high = x / 2 ^ high := by
    rw [flip, Nat.xor_div_two_pow, Nat.div_eq_of_lt maskBelow, Nat.xor_zero]
  have remainder : flip low high x % 2 ^ high = flip low high (x % 2 ^ high) := by
    rw [flip, Nat.xor_mod_two_pow, Nat.mod_eq_of_lt maskBelow, flip]
  have mirrored := flip_below low high (x % 2 ^ high) nested
    (Nat.mod_lt x (Nat.two_pow_pos high))
    ((Nat.dvd_mod_iff (Nat.pow_dvd_pow 2 nested)).mpr aligned)
  rw [← Nat.div_add_mod (flip low high x) (2 ^ high), quotient, remainder, mirrored]

theorem flip_aligned : 2 ^ low ∣ flip low high x := by
  have whole : 2 ^ low ∣ 2 ^ high := Nat.pow_dvd_pow 2 nested
  rw [flip_eq low high x nested aligned]
  apply Nat.dvd_add (Nat.dvd_mul_right_of_dvd whole _)
  apply Nat.dvd_sub (Nat.dvd_sub whole (Nat.dvd_refl _))
  exact (Nat.dvd_mod_iff whole).mpr aligned

/-- The bytes of a unit are those of the flipped unit, last to first. -/
theorem flip_offset (i : Nat) (within : i < 2 ^ low) :
    flip 0 high (flip low high x + i) = x + (2 ^ low - 1 - i) := by
  have fits := unit_fits low high x nested aligned
  have positive := Nat.two_pow_pos high
  have parts := Nat.div_add_mod x (2 ^ high)
  have offset : 2 ^ high - 2 ^ low - x % 2 ^ high + i < 2 ^ high := by omega
  rw [flip_eq low high x nested aligned, Nat.add_assoc,
    flip_eq 0 high _ (Nat.zero_le _) (by simp), Nat.mul_add_div positive, Nat.mul_add_mod,
    Nat.div_eq_of_lt offset, Nat.mod_eq_of_lt offset, Nat.add_zero, Nat.pow_zero]
  omega

theorem flip_fits (limit : Nat) (whole : 2 ^ high ∣ limit) :
    flip low high x + 2 ^ low ≤ limit ↔ x + 2 ^ low ≤ limit := by
  obtain ⟨blocks, rfl⟩ := whole
  have fits := unit_fits low high x nested aligned
  have parts := Nat.div_add_mod x (2 ^ high)
  rw [flip_eq low high x nested aligned]
  have unitPositive := Nat.two_pow_pos low
  -- Both units lie in the block of `x`, so each fits exactly when that block does.
  rcases Nat.lt_or_ge (x / 2 ^ high) blocks with inside | outside
  · have reach : 2 ^ high * (x / 2 ^ high) + 2 ^ high ≤ 2 ^ high * blocks := by
      rw [← Nat.mul_succ]
      exact Nat.mul_le_mul_left _ inside
    omega
  · have beyond := Nat.mul_le_mul_left (2 ^ high) outside
    omega

variable {V : Type*}

theorem flip_range (values : List V) (length : values.length = 2 ^ low) (key : Nat) :
    Overlay.range (flip low high x) values (flip 0 high key) =
      Overlay.range x values.reverse key := by
  by_cases inside : x ≤ key ∧ key < x + 2 ^ low
  · obtain ⟨offset, rfl⟩ : ∃ offset, key = x + offset := ⟨key - x, by omega⟩
    have mirrored := flip_offset low high x nested aligned (2 ^ low - 1 - offset) (by omega)
    have source : 2 ^ low - 1 - (2 ^ low - 1 - offset) = offset := by omega
    have target : flip 0 high (x + offset) = flip low high x + (2 ^ low - 1 - offset) := by
      rw [source] at mirrored
      rw [← mirrored, flip_flip]
    rw [target, Overlay.range_offset, Overlay.range_offset, List.getElem?_reverse (by omega),
      length]
  · have missed : Overlay.range x values.reverse key = none := by
      apply Overlay.range_misses
      rw [List.length_reverse]
      omega
    rw [missed]
    apply Overlay.range_misses
    by_contra covered
    have mirrored := flip_offset low high x nested aligned
      (flip 0 high key - flip low high x) (by omega)
    have same : flip low high x + (flip 0 high key - flip low high x) = flip 0 high key := by
      omega
    rw [same, flip_flip] at mirrored
    omega

end Blocks

end Swizzle
