import Mathlib.Tactic.Ring

namespace FixedDigits

/-- The digits of the number in a field of the width, with leading zeros. -/
def digits (base : Nat) : Nat → Nat → List Char
  | 0, _ => []
  | width + 1, n => (n / base ^ width % base).digitChar :: digits base width n

/-- The number in a field of the width, after a number that has been read. -/
def readDigits (value : Char → Option Nat) (base : Nat) : Nat → Nat → List Char → Option (Nat × List Char)
  | _, _ + 1, [] => none
  | n, 0, s => some (n, s)
  | n, width + 1, c :: s => (value c).bind fun digit => readDigits value base (n * base + digit) width s

variable {value : Char → Option Nat} {base : Nat}

theorem mem_digits (positive : 0 < base) {width n : Nat} {c : Char} (h : c ∈ digits base width n) :
    ∃ digit < base, c = digit.digitChar := by
  induction width with
  | zero => cases h
  | succ width ih =>
    rcases List.mem_cons.mp h with rfl | later
    · exact ⟨_, Nat.mod_lt _ positive, rfl⟩
    · exact ih later

/-- What is written into a field is read from it. -/
theorem readDigits_digits (positive : 0 < base) (reads : ∀ digit < base, value digit.digitChar = some digit)
    (before width n : Nat) (rest : List Char) :
    readDigits value base before width (digits base width n ++ rest) =
      some (before * base ^ width + n % base ^ width, rest) := by
  induction width generalizing before with
  | zero =>
    have none_left : n % 1 = 0 := Nat.mod_one n
    cases rest <;> simp [digits, readDigits, none_left]
  | succ width ih =>
    have digit := reads (n / base ^ width % base) (Nat.mod_lt _ positive)
    simp only [digits, List.cons_append, readDigits, digit, Option.bind_some, ih]
    have total : before * base ^ (width + 1) + n % base ^ (width + 1) =
        (before * base + n / base ^ width % base) * base ^ width + n % base ^ width := by
      rw [Nat.mod_pow_succ]
      ring
    rw [total]

theorem readDigits_of_lt (positive : 0 < base)
    (reads : ∀ digit < base, value digit.digitChar = some digit) {width n : Nat} (fits : n < base ^ width)
    (rest : List Char) : readDigits value base 0 width (digits base width n ++ rest) = some (n, rest) := by
  rw [readDigits_digits positive reads, Nat.mod_eq_of_lt fits, Nat.zero_mul, Nat.zero_add]

end FixedDigits
