import Mathlib.Data.Nat.Basic

namespace Gregorian

def isLeap (year : Nat) : Bool := year % 4 == 0 && (year % 100 != 0 || year % 400 == 0)

/-- The number of days before January 1st of the year. -/
def daysBeforeYear (year : Nat) : Nat :=
  let y := year - 1
  y * 365 + y / 4 - y / 100 + y / 400

def daysInMonth (leap : Bool) : Nat → Nat
  | 2 => if leap then 29 else 28
  | 4 | 6 | 9 | 11 => 30
  | _ => 31

/-- The number of days of the year before the month. -/
def daysBeforeMonth (leap : Bool) : Nat → Nat
  | 0 => 0
  | 1 => 0
  | month + 1 => daysBeforeMonth leap month + daysInMonth leap month

/-- The day, counted from 1 for January 1st of the year 1. -/
def toOrdinal (year month day : Nat) : Nat :=
  daysBeforeYear year + daysBeforeMonth (isLeap year) month + day

/-- Month and day of the day of a year, which is counted from 0. -/
def monthDay (leap : Bool) (n : Nat) : Nat × Nat :=
  let month := (n + 50) / 32
  if daysBeforeMonth leap month > n then (month - 1, n - daysBeforeMonth leap (month - 1) + 1)
  else (month, n - daysBeforeMonth leap month + 1)

/-- Year, month and day of a day: the periods of 400, 100, 4 years and 1 year that have
passed before it. -/
def fromOrdinal (ordinal : Nat) : Nat × Nat × Nat :=
  let n := ordinal - 1
  let n400 := n / 146097
  let n := n % 146097
  let n100 := n / 36524
  let n := n % 36524
  let n4 := n / 1461
  let n := n % 1461
  let n1 := n / 365
  let n := n % 365
  let year := n400 * 400 + 1 + n100 * 100 + n4 * 4 + n1
  if n1 = 4 ∨ n100 = 4 then (year - 1, 12, 31)
  else
    let leap := n1 == 3 && (n4 != 24 || n100 == 3)
    (year, monthDay leap n)

/-- Every day of a year has its month and its day in it. -/
theorem monthDay_correct (leap : Bool) {n : Nat} (h : n < 365 + leap.toNat) :
    1 ≤ (monthDay leap n).1 ∧ (monthDay leap n).1 ≤ 12 ∧ 1 ≤ (monthDay leap n).2 ∧
      (monthDay leap n).2 ≤ daysInMonth leap (monthDay leap n).1 ∧
      daysBeforeMonth leap (monthDay leap n).1 + (monthDay leap n).2 = n + 1 := by
  have all : ∀ leap : Bool, ∀ n < 365 + leap.toNat,
      1 ≤ (monthDay leap n).1 ∧ (monthDay leap n).1 ≤ 12 ∧ 1 ≤ (monthDay leap n).2 ∧
        (monthDay leap n).2 ≤ daysInMonth leap (monthDay leap n).1 ∧
        daysBeforeMonth leap (monthDay leap n).1 + (monthDay leap n).2 = n + 1 := by
    decide +kernel
  exact all leap n h

variable {a b c d : Nat}

theorem daysBeforeYear_periods (hb : b < 4) (hc : c < 25) (hd : d < 4) :
    daysBeforeYear (400 * a + 100 * b + 4 * c + d + 1) = 146097 * a + 36524 * b + 1461 * c + 365 * d := by
  have fours : (400 * a + 100 * b + 4 * c + d) / 4 = 100 * a + 25 * b + c := by omega
  have centuries : (400 * a + 100 * b + 4 * c + d) / 100 = 4 * a + b := by omega
  have periods : (400 * a + 100 * b + 4 * c + d) / 400 = a := by omega
  simp only [daysBeforeYear, Nat.add_sub_cancel, fours, centuries, periods]
  omega

theorem isLeap_periods (hb : b < 4) (hc : c < 25) (hd : d < 4) :
    isLeap (400 * a + 100 * b + 4 * c + d + 1) = (d == 3 && (c != 24 || b == 3)) := by
  have fours : (400 * a + 100 * b + 4 * c + d + 1) % 4 = 0 ↔ d = 3 := by omega
  have centuries : d = 3 → ((400 * a + 100 * b + 4 * c + d + 1) % 100 = 0 ↔ c = 24) := by omega
  have periods : d = 3 → c = 24 → ((400 * a + 100 * b + 4 * c + d + 1) % 400 = 0 ↔ b = 3) := by omega
  rw [Bool.eq_iff_iff]
  simp only [isLeap, Bool.and_eq_true, Bool.or_eq_true, beq_iff_eq, bne_iff_ne, ne_eq, fours]
  refine and_congr_right fun last => ?_
  rw [centuries last]
  by_cases century : c = 24
  · rw [periods last century]
  · simp [century]

/-- A date, with the invariants of `datetime.date`. -/
structure IsDate (year month day : Nat) : Prop where
  year_pos : 1 ≤ year
  month_range : 1 ≤ month ∧ month ≤ 12
  day_range : 1 ≤ day ∧ day ≤ daysInMonth (isLeap year) month

theorem lastDay (year : Nat) (h : 1 ≤ year) : IsDate year 12 31 ∧
    toOrdinal year 12 31 = daysBeforeYear year + 365 + (isLeap year).toNat := by
  refine ⟨⟨h, by decide, by decide, Nat.le_refl 31⟩, ?_⟩
  unfold toOrdinal
  cases isLeap year <;> rfl

/-- The number of a day gives its date, and the date gives the number back. -/
theorem toOrdinal_fromOrdinal {n : Nat} (h : 1 ≤ n) :
    IsDate (fromOrdinal n).1 (fromOrdinal n).2.1 (fromOrdinal n).2.2 ∧
      toOrdinal (fromOrdinal n).1 (fromOrdinal n).2.1 (fromOrdinal n).2.2 = n := by
  obtain ⟨k, rfl⟩ : ∃ k, n = k + 1 := ⟨n - 1, by omega⟩
  simp only [fromOrdinal, Nat.add_sub_cancel]
  have hr : k % 146097 < 146097 := Nat.mod_lt k (by decide)
  have hk : k = 146097 * (k / 146097) + k % 146097 := (Nat.div_add_mod k 146097).symm
  generalize k / 146097 = a at hk ⊢
  generalize k % 146097 = r at hk hr ⊢
  have hr' : r % 36524 < 36524 := Nat.mod_lt r (by decide)
  have hb : r = 36524 * (r / 36524) + r % 36524 := (Nat.div_add_mod r 36524).symm
  generalize r / 36524 = b at hb ⊢
  generalize r % 36524 = r' at hb hr' ⊢
  have hr'' : r' % 1461 < 1461 := Nat.mod_lt r' (by decide)
  have hc : r' = 1461 * (r' / 1461) + r' % 1461 := (Nat.div_add_mod r' 1461).symm
  generalize r' / 1461 = c at hc ⊢
  generalize r' % 1461 = r'' at hc hr'' ⊢
  have hn : r'' % 365 < 365 := Nat.mod_lt r'' (by decide)
  have hd : r'' = 365 * (r'' / 365) + r'' % 365 := (Nat.div_add_mod r'' 365).symm
  generalize r'' / 365 = d at hd ⊢
  generalize r'' % 365 = n at hd hn ⊢
  have hc' : c < 25 := by omega
  split
  next ends =>
    have closes : ∃ b' c', b' < 4 ∧ c' < 25 ∧ (c' = 24 → b' = 3) ∧
        a * 400 + 1 + b * 100 + c * 4 + d - 1 = 400 * a + 100 * b' + 4 * c' + 3 + 1 ∧
        k = 146097 * a + 36524 * b' + 1461 * c' + 365 * 3 + 365 := by
      by_cases period : b = 4
      · exact ⟨3, 24, by omega, by omega, by omega, by omega, by omega⟩
      · have four : d = 4 := by omega
        have early : c < 24 := by omega
        exact ⟨b, c, by omega, by omega, by omega, by omega, by omega⟩
    obtain ⟨b', c', hb', hc', century, year, day⟩ := closes
    have leap := isLeap_periods (a := a) hb' hc' (show 3 < 4 by omega)
    have days := daysBeforeYear_periods (a := a) hb' hc' (show 3 < 4 by omega)
    have long : (c' != 24 || b' == 3) = true := by
      simp only [Bool.or_eq_true, bne_iff_ne, ne_eq, beq_iff_eq]
      omega
    rw [year]
    obtain ⟨date, ordinal⟩ := lastDay (400 * a + 100 * b' + 4 * c' + 3 + 1) (by omega)
    refine ⟨date, ?_⟩
    rw [ordinal, days, leap, long, day]
    rfl
  next inside =>
    have hb' : b < 4 := by omega
    have hd' : d < 4 := by omega
    have year : a * 400 + 1 + b * 100 + c * 4 + d = 400 * a + 100 * b + 4 * c + d + 1 := by omega
    have leap := isLeap_periods (a := a) hb' hc' hd'
    have days := daysBeforeYear_periods (a := a) hb' hc' hd'
    obtain ⟨first, last, one, most, total⟩ := monthDay_correct (d == 3 && (c != 24 || b == 3)) (n := n) (by omega)
    rw [year]
    refine ⟨⟨by omega, ⟨first, last⟩, ⟨one, leap ▸ most⟩⟩, ?_⟩
    simp only [toOrdinal, days, leap]
    omega

end Gregorian
