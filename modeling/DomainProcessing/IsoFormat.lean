import DomainProcessing.CursorDecoding
import DomainProcessing.FixedDigits
import DomainProcessing.Gregorian

namespace DomainProcessing

open FixedDigits Gregorian

def microsecondsOfDay : Int := 86400000000

/-- The ordinal of January 1st, 1970. -/
def epochOrdinal : Int := 719163

def PyDatetime.ordinal (time : PyDatetime) : Nat := (time.wall / microsecondsOfDay + epochOrdinal).toNat

def PyDatetime.timeOfDay (time : PyDatetime) : Nat := (time.wall % microsecondsOfDay).toNat

/-- The microseconds of a minute; a fraction only where there is one. -/
def secondsText (n : Nat) : List Char :=
  ':' :: (digits 10 2 (n / 1000000) ++
    if n % 1000000 = 0 then [] else '.' :: digits 10 6 (n % 1000000))

def minutesText (n : Nat) : List Char :=
  digits 10 2 (n / 3600000000) ++ ':' :: digits 10 2 (n / 60000000 % 60)

/-- `format_utcoffset`, of which the seconds are left out where there are none. -/
def offsetText (n : Nat) : List Char :=
  minutesText n ++ if n % 60000000 = 0 then [] else secondsText (n % 60000000)

def utcoffsetText : Option Int → List Char
  | none => []
  | some offset => (if offset < 0 then '-' else '+') :: offsetText offset.natAbs

def dateText (date : Nat × Nat × Nat) : List Char :=
  digits 10 4 date.1 ++ '-' :: (digits 10 2 date.2.1 ++ '-' :: digits 10 2 date.2.2)

def PyDatetime.isoformat (time : PyDatetime) : List Char :=
  dateText (fromOrdinal time.ordinal) ++ 'T' :: (minutesText time.timeOfDay ++
    (secondsText (time.timeOfDay % 60000000) ++ utcoffsetText time.utcoffset))

def decimalValue (c : Char) : Option Nat := if c.isDigit then some (c.toNat - 48) else none

def readField (width : Nat) (s : List Char) : Option (Nat × List Char) :=
  readDigits decimalValue 10 0 width s

def expect (c : Char) : List Char → Option (List Char)
  | [] => none
  | d :: s => if d = c then some s else none

def readFraction : List Char → Option (Nat × List Char)
  | '.' :: s => readField 6 s
  | s => some (0, s)

def readSeconds : List Char → Option (Nat × List Char)
  | ':' :: s => do
    let (second, s) ← readField 2 s
    let (microsecond, s) ← readFraction s
    if second < 60 then some (second * 1000000 + microsecond, s) else none
  | s => some (0, s)

/-- A time of the day or an offset, in microseconds. -/
def readClock (s : List Char) : Option (Nat × List Char) := do
  let (hour, s) ← readField 2 s
  let s ← expect ':' s
  let (minute, s) ← readField 2 s
  let (rest, s) ← readSeconds s
  if hour < 24 ∧ minute < 60 then some (hour * 3600000000 + minute * 60000000 + rest, s) else none

/-- An offset other than zero of less than a second is not among the forms:
`fromisoformat` drops it. -/
def readUtcoffset : List Char → Option (Option Int)
  | [] => some none
  | sign :: s => do
    let (offset, s) ← readClock s
    if s ≠ [] ∨ 0 < offset ∧ offset < 1000000 then none
    else if sign = '+' then some (some offset)
    else if sign = '-' then some (some (-offset))
    else none

/-- A date, by its ordinal. -/
def readDate (s : List Char) : Option (Nat × List Char) := do
  let (year, s) ← readField 4 s
  let s ← expect '-' s
  let (month, s) ← readField 2 s
  let s ← expect '-' s
  let (day, s) ← readField 2 s
  if 1 ≤ year ∧ 1 ≤ month ∧ month ≤ 12 ∧ 1 ≤ day ∧ day ≤ daysInMonth (isLeap year) month then
    some (toOrdinal year month day, s)
  else none

/-- `datetime.fromisoformat` on the forms that `isoformat` writes. -/
def readIsoformat (s : List Char) : Option PyDatetime := do
  let (ordinal, s) ← readDate s
  let s ← expect 'T' s
  let (time, s) ← readClock s
  let utcoffset ← readUtcoffset s
  some ⟨(ordinal - epochOrdinal) * microsecondsOfDay + time, utcoffset⟩

/-- The range of `datetime`, the years 1 to 9999 and an offset of less than a day,
without the offsets that `fromisoformat` drops. -/
structure PyDatetime.Valid (time : PyDatetime) : Prop where
  first : -62135596800000000 ≤ time.wall
  last : time.wall < 253402300800000000
  offset : ∀ offset, time.utcoffset = some offset → offset.natAbs < 86400000000
  seconds : ∀ offset, time.utcoffset = some offset → offset = 0 ∨ 1000000 ≤ offset.natAbs

example : (PyDatetime.mk 1700000000000001 (some (-16200000000))).isoformat =
    "2023-11-14T22:13:20.000001-04:30".toList := by decide +kernel

section Reading

variable {n : Nat} {rest : List Char}

theorem readField_digits {width : Nat} (fits : n < 10 ^ width) (rest : List Char) :
    readField width (digits 10 width n ++ rest) = some (n, rest) := by
  have reads : ∀ digit < 10, decimalValue digit.digitChar = some digit := by decide
  exact readDigits_of_lt (by decide) reads fits rest

theorem expect_cons (c : Char) (s : List Char) : expect c (c :: s) = some s := by simp [expect]

/-- Nothing follows that would be read as a part of the time. -/
def EndsTime (rest : List Char) : Prop := ∀ c ∈ rest.head?, c ≠ ':' ∧ c ≠ '.'

theorem readFraction_none (ends : EndsTime rest) : readFraction rest = some (0, rest) := by
  unfold readFraction
  split
  next s => exact absurd rfl (ends '.' rfl).2
  next => rfl

theorem readSeconds_none (ends : EndsTime rest) : readSeconds rest = some (0, rest) := by
  unfold readSeconds
  split
  next s => exact absurd rfl (ends ':' rfl).1
  next => rfl

theorem readSeconds_text (minute : n < 60000000) (ends : EndsTime rest) :
    readSeconds (secondsText n ++ rest) = some (n, rest) := by
  have second := @readField_digits (n / 1000000) 2 (by omega)
  have microsecond := @readField_digits (n % 1000000) 6 (by omega) rest
  have whole : n / 1000000 < 60 := by omega
  simp only [secondsText, List.cons_append, List.append_assoc, readSeconds, second]
  split
  next round =>
    have total : n / 1000000 * 1000000 + 0 = n := by omega
    simp [readFraction_none ends, whole, total]
  next =>
    have total : n / 1000000 * 1000000 + n % 1000000 = n := by omega
    simp [readFraction, microsecond, whole, total]

/-- The clock is read, whether its seconds are written or not. -/
theorem readClock_text (day : n < 86400000000) {seconds : List Char}
    (reads : readSeconds (seconds ++ rest) = some (n % 60000000, rest)) :
    readClock (minutesText n ++ (seconds ++ rest)) = some (n, rest) := by
  have hour := @readField_digits (n / 3600000000) 2 (by omega)
  have minute := @readField_digits (n / 60000000 % 60) 2 (by omega)
  have inside : n / 3600000000 < 24 ∧ n / 60000000 % 60 < 60 := by omega
  have total : n / 3600000000 * 3600000000 + n / 60000000 % 60 * 60000000 + n % 60000000 = n := by
    omega
  simp only [readClock, minutesText, List.append_assoc, List.cons_append, hour, expect_cons, minute, reads,
    Option.bind_eq_bind, Option.bind_some, if_pos inside, total]

theorem readClock_offsetText (day : n < 86400000000) : readClock (offsetText n) = some (n, []) := by
  have ends : EndsTime [] := by
    intro c h
    cases h
  have read : readClock (minutesText n ++
      ((if n % 60000000 = 0 then [] else secondsText (n % 60000000)) ++ [])) = some (n, []) := by
    refine readClock_text day ?_
    split
    next none_left => rw [none_left, List.nil_append, readSeconds_none ends]
    next => exact readSeconds_text (Nat.mod_lt n (by decide)) ends
  rwa [List.append_nil] at read

theorem readUtcoffset_text {utcoffset : Option Int}
    (day : ∀ offset, utcoffset = some offset → offset.natAbs < 86400000000)
    (second : ∀ offset, utcoffset = some offset → offset = 0 ∨ 1000000 ≤ offset.natAbs) :
    readUtcoffset (utcoffsetText utcoffset) = some utcoffset := by
  cases utcoffset with
  | none => rfl
  | some offset =>
    have kept : ¬(([] : List Char) ≠ [] ∨ 0 < offset.natAbs ∧ offset.natAbs < 1000000) := by
      have := second offset rfl
      simp only [ne_eq, not_true, false_or]
      omega
    simp only [utcoffsetText, readUtcoffset, readClock_offsetText (day offset rfl), Option.bind_eq_bind,
      Option.bind_some, if_neg kept]
    by_cases negative : offset < 0
    · have magnitude : -|offset| = offset := by rw [abs_of_neg negative, neg_neg]
      simp [negative, magnitude]
    · have magnitude : |offset| = offset := abs_of_nonneg (not_lt.mp negative)
      simp [negative, magnitude]

theorem endsTime_utcoffsetText (utcoffset : Option Int) : EndsTime (utcoffsetText utcoffset) := by
  intro c h
  cases utcoffset with
  | none => cases h
  | some offset =>
    simp only [utcoffsetText, List.head?_cons, Option.mem_def, Option.some.injEq] at h
    subst h
    split <;> decide

theorem year_le {year month day : Nat} (date : IsDate year month day)
    (h : toOrdinal year month day ≤ 3652059) : year ≤ 9999 := by
  have one := date.day_range.1
  simp only [toOrdinal, daysBeforeYear] at h
  omega

theorem day_le (leap : Bool) (month : Nat) : daysInMonth leap month ≤ 31 := by
  unfold daysInMonth
  split
  · cases leap <;> decide
  · decide
  · decide
  · decide
  · decide
  · decide

theorem readDate_text (positive : 1 ≤ n) (last : n ≤ 3652059) (rest : List Char) :
    readDate (dateText (fromOrdinal n) ++ rest) = some (n, rest) := by
  obtain ⟨date, ordinal⟩ := toOrdinal_fromOrdinal positive
  generalize fromOrdinal n = parts at date ordinal
  obtain ⟨y, m, d⟩ := parts
  dsimp only at date ordinal
  have most := day_le (isLeap y) m
  have within := year_le date (by omega)
  have months := date.month_range
  have days := date.day_range
  have year := @readField_digits y 4 (by omega)
  have month := @readField_digits m 2 (by omega)
  have day := @readField_digits d 2 (by omega)
  have inside : 1 ≤ y ∧ 1 ≤ m ∧ m ≤ 12 ∧ 1 ≤ d ∧ d ≤ daysInMonth (isLeap y) m :=
    ⟨date.year_pos, months.1, months.2, days.1, days.2⟩
  simp only [readDate, dateText, List.append_assoc, List.cons_append, year, expect_cons, month, day,
    Option.bind_eq_bind, Option.bind_some, if_pos inside, ordinal]

end Reading

/-- Every time is read back from its text. -/
theorem readIsoformat_isoformat {time : PyDatetime} (valid : time.Valid) :
    readIsoformat time.isoformat = some time := by
  obtain ⟨first, last, offset, second⟩ := valid
  have ordinal : (time.ordinal : Int) = time.wall / 86400000000 + 719163 ∧ 1 ≤ time.ordinal ∧
      time.ordinal ≤ 3652059 := by
    simp only [PyDatetime.ordinal, microsecondsOfDay, epochOrdinal]
    omega
  have clock : (time.timeOfDay : Int) = time.wall % 86400000000 ∧ time.timeOfDay < 86400000000 := by
    simp only [PyDatetime.timeOfDay, microsecondsOfDay]
    omega
  have total : ((time.ordinal : Int) - epochOrdinal) * microsecondsOfDay + time.timeOfDay = time.wall := by
    simp only [epochOrdinal, microsecondsOfDay]
    omega
  have date := @readDate_text time.ordinal ordinal.2.1 ordinal.2.2
  have seconds : readSeconds (secondsText (time.timeOfDay % 60000000) ++ utcoffsetText time.utcoffset) =
      some (time.timeOfDay % 60000000, utcoffsetText time.utcoffset) :=
    readSeconds_text (Nat.mod_lt _ (by decide)) (endsTime_utcoffsetText time.utcoffset)
  have whole := readClock_text clock.2 seconds
  simp only [readIsoformat, PyDatetime.isoformat, date, expect_cons, whole, readUtcoffset_text offset second,
    Option.bind_eq_bind, Option.bind_some, total]

end DomainProcessing
