import Mathlib.Data.Nat.Bitwise

namespace PrefixMasks

/-- The mask of the first `len` of `bits` bits. -/
def prefixMask (bits len : Nat) : Nat := (2 ^ bits - 1) ^^^ ((2 ^ bits - 1) >>> len)

variable {bits len x base : Nat}

theorem testBit_prefixMask (h : len ≤ bits) (i : Nat) :
    (prefixMask bits len).testBit i = (decide (bits - len ≤ i) && decide (i < bits)) := by
  rw [prefixMask, Nat.testBit_xor, Nat.testBit_shiftRight, Nat.testBit_two_pow_sub_one,
    Nat.testBit_two_pow_sub_one]
  by_cases hi : i < bits
  · by_cases hl : len + i < bits
    · have low : ¬bits - len ≤ i := by omega
      simp [hi, hl, low]
    · have high : bits - len ≤ i := by omega
      simp [hi, hl, high]
  · have beyond : ¬len + i < bits := by omega
    simp [hi, beyond]

/-- Masking keeps the prefix and clears the rest. -/
theorem land_prefixMask (hx : x < 2 ^ bits) (h : len ≤ bits) :
    x &&& prefixMask bits len = x >>> (bits - len) <<< (bits - len) := by
  apply Nat.eq_of_testBit_eq
  intro i
  rw [Nat.testBit_and, testBit_prefixMask h, Nat.testBit_shiftLeft, Nat.testBit_shiftRight]
  by_cases low : bits - len ≤ i
  · have same : bits - len + (i - (bits - len)) = i := by omega
    by_cases hi : i < bits
    · simp [low, hi, same]
    · have zero : x.testBit i = false :=
        Nat.testBit_lt_two_pow (hx.trans_le (Nat.pow_le_pow_right (by decide) (by omega)))
      simp [low, hi, same, zero]
  · simp [low]

/-- The addresses of a network are the block that starts at its address. -/
theorem land_prefixMask_eq_iff (hx : x < 2 ^ bits) (h : len ≤ bits)
    (aligned : 2 ^ (bits - len) ∣ base) :
    x &&& prefixMask bits len = base ↔ base ≤ x ∧ x < base + 2 ^ (bits - len) := by
  obtain ⟨q, rfl⟩ := aligned
  have size : 0 < 2 ^ (bits - len) := Nat.two_pow_pos _
  rw [land_prefixMask hx h, Nat.shiftLeft_eq, Nat.shiftRight_eq_div_pow, Nat.mul_comm]
  rw [Nat.mul_right_inj (by omega), Nat.div_eq_iff size]
  constructor
  · rintro ⟨lower, upper⟩
    rw [Nat.mul_comm] at lower upper
    exact ⟨lower, by omega⟩
  · rintro ⟨lower, upper⟩
    rw [Nat.mul_comm q]
    exact ⟨lower, by omega⟩

end PrefixMasks
