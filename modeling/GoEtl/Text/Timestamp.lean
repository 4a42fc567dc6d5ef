import Mathlib.Data.Nat.Digits.Defs

/-!
# RFC 3339 timestamps

Every time in the store is a text. The controller writes one with
`t.UTC().Format(time.RFC3339Nano)` and the store reads one, only to see that it is a
time at all, with `time.Parse(time.RFC3339Nano, text)`.

## The model

An `Instant` is a UTC instant of the years 0 to 9999 by its calendar fields; the fields
carry the proofs of their ranges, so an instant that is not on the calendar cannot be
built. `Instant.nanoseconds` is its position on the time line, by the day count of Go's
`time.Date`. `format` writes the layout `2006-01-02T15:04:05.999999999Z07:00`, which drops
the trailing zeros of the fraction and, when nothing is left of it, the point.
`validTimestamp` is `time.Parse`'s acceptance: it is wider than what `format` writes (any
zone, a comma for the point, a one-digit hour).

## What is proved

**`validTimestamp_format`**: what the controller formats, the store accepts.
-/

namespace GoEtl.Text

/-! ### The calendar -/

/-- Leap years of the Gregorian calendar. -/
def isLeap (year : ℕ) : Bool := year % 4 == 0 && (year % 100 != 0 || year % 400 == 0)

/-- The days of a month; no month outside `1..12` has any. -/
def daysIn (month year : ℕ) : ℕ :=
  match month with
  | 1 | 3 | 5 | 7 | 8 | 10 | 12 => 31
  | 4 | 6 | 9 | 11 => 30
  | 2 => if isLeap year then 29 else 28
  | _ => 0

/-- A UTC instant of the years 0 to 9999. -/
structure Instant where
  /-- The year. -/
  year : ℕ
  /-- The month, from 1. -/
  month : ℕ
  /-- The day of the month, from 1. -/
  day : ℕ
  /-- The hour. -/
  hour : ℕ
  /-- The minute. -/
  minute : ℕ
  /-- The second; Go's clock has no leap seconds. -/
  second : ℕ
  /-- The nanosecond within the second. -/
  nanosecond : ℕ
  /-- Four digits hold the year. -/
  year_lt : year < 10000
  /-- Days count from 1. -/
  day_pos : 1 ≤ day
  /-- The day is on the calendar, and so is the month. -/
  day_le : day ≤ daysIn month year
  /-- The hour is on the clock. -/
  hour_lt : hour < 24
  /-- The minute is on the clock. -/
  minute_lt : minute < 60
  /-- The second is on the clock. -/
  second_lt : second < 60
  /-- The nanosecond is within its second. -/
  nanosecond_lt : nanosecond < 1000000000

theorem month_of_daysIn_pos {month year : ℕ} (h : 1 ≤ daysIn month year) : 1 ≤ month ∧ month ≤ 12 := by
  unfold daysIn at h
  split at h <;> omega

theorem daysIn_le {month year : ℕ} : daysIn month year ≤ 31 := by
  unfold daysIn
  split <;> try split
  all_goals omega

theorem Instant.month_range (t : Instant) : 1 ≤ t.month ∧ t.month ≤ 12 :=
  month_of_daysIn_pos (t.day_pos.trans t.day_le)

/-- The days of the year before a month, in a year that is not a leap year. -/
def daysBefore : ℕ → ℕ
  | 1 => 0 | 2 => 31 | 3 => 59 | 4 => 90 | 5 => 120 | 6 => 151
  | 7 => 181 | 8 => 212 | 9 => 243 | 10 => 273 | 11 => 304 | _ => 334

/-- The days before a year, from the start of year 0. -/
def daysBeforeYear (year : ℕ) : ℕ :=
  365 * year + ((year + 3) / 4 - (year + 99) / 100 + (year + 399) / 400)

/-- The number of the instant's day, from the start of year 0. -/
def Instant.dayNumber (t : Instant) : ℕ :=
  daysBeforeYear t.year + daysBefore t.month +
    (if isLeap t.year && decide (3 ≤ t.month) then 1 else 0) + (t.day - 1)

/-- The seconds from the start of year 0 to the instant's second. -/
def Instant.seconds (t : Instant) : ℕ :=
  ((t.dayNumber * 24 + t.hour) * 60 + t.minute) * 60 + t.second

/-- **The instant on the time line**: nanoseconds from the start of year 0. -/
def Instant.nanoseconds (t : Instant) : ℕ := t.seconds * 1000000000 + t.nanosecond

/-! ### Formatting -/

/-- A decimal digit. -/
def digit (n : ℕ) : Char := Char.ofNat (48 + n % 10)

/-- The last `width` decimal digits of a number, leading zeros included. -/
def padded : ℕ → ℕ → List Char
  | 0, _ => []
  | width + 1, n => padded width (n / 10) ++ [digit n]

/-- Drop the zeros at the end. -/
def trimZeros (ds : List Char) : List Char := (ds.reverse.dropWhile (· == '0')).reverse

/-- The fraction of a second: nothing, or a point and up to nine digits. -/
def fraction (nanosecond : ℕ) : List Char :=
  match trimZeros (padded 9 nanosecond) with
  | [] => []
  | ds => '.' :: ds

/-- The part of the text before the fraction: always nineteen characters. -/
def Instant.toSecond (t : Instant) : List Char :=
  padded 4 t.year ++ '-' :: padded 2 t.month ++ '-' :: padded 2 t.day ++ 'T' :: padded 2 t.hour ++
    ':' :: padded 2 t.minute ++ ':' :: padded 2 t.second

/-- `t.UTC().Format(time.RFC3339Nano)`. -/
def Instant.format (t : Instant) : String :=
  String.ofList (t.toSecond ++ fraction t.nanosecond ++ ['Z'])

/-! ### Parsing -/

/-- The value of a decimal digit. -/
def digitValue (c : Char) : Option ℕ := if c.isDigit then some (c.toNat - 48) else none

/-- Two digits, or one when `fixed` is false and no second digit follows. -/
def getnum (fixed : Bool) : List Char → Option (ℕ × List Char)
  | [] => none
  | [c] => if fixed then none else (digitValue c).map (·, [])
  | c :: d :: rest =>
    match digitValue c, digitValue d with
    | some m, some n => some (10 * m + n, rest)
    | some m, none => if fixed then none else some (m, d :: rest)
    | none, _ => none

/-- The four digits of a year. -/
def getYear : List Char → Option (ℕ × List Char)
  | a :: b :: c :: d :: rest => do
    let a ← digitValue a
    let b ← digitValue b
    let c ← digitValue c
    let d ← digitValue d
    some (1000 * a + 100 * b + 10 * c + d, rest)
  | _ => none

/-- A separator of the layout. -/
def skip (sep : Char) : List Char → Option (List Char)
  | c :: rest => if c == sep then some rest else none
  | [] => none

/-- A fraction, where there is one: a point or a comma, and one digit or more. -/
def skipFraction : List Char → List Char
  | c :: d :: rest =>
    if (c == '.' || c == ',') && d.isDigit then rest.dropWhile Char.isDigit else c :: d :: rest
  | v => v

/-- The zone, which ends the text: `Z` or a signed offset. Go lets the hours reach 24 and the
minutes 60. -/
def isZone : List Char → Bool
  | ['Z'] => true
  | [sign, h₁, h₂, ':', m₁, m₂] =>
    (sign == '+' || sign == '-') &&
      (match getnum true [h₁, h₂], getnum true [m₁, m₂] with
        | some (h, _), some (m, _) => decide (h ≤ 24) && decide (m ≤ 60)
        | _, _ => false)
  | _ => false

/-- The date of a text, and what follows it. -/
def parseDate (v : List Char) : Option (List Char) := do
  let (year, v) ← getYear v
  let v ← skip '-' v
  let (month, v) ← getnum true v
  let v ← skip '-' v
  let (day, v) ← getnum true v
  if 1 ≤ day ∧ day ≤ daysIn month year then some v else none

/-- The time of day of a text, and what follows it. -/
def parseClock (v : List Char) : Option (List Char) := do
  let (hour, v) ← getnum false v
  let v ← skip ':' v
  let (minute, v) ← getnum true v
  let v ← skip ':' v
  let (second, v) ← getnum true v
  if hour < 24 ∧ minute < 60 ∧ second < 60 then some v else none

/-- `time.Parse(time.RFC3339Nano, text)` succeeds. -/
def validTimestamp (text : String) : Bool :=
  match (do let v ← parseDate text.toList; let v ← skip 'T' v; parseClock v) with
  | some v => isZone (skipFraction v)
  | none => false

/-! ### What is formatted is accepted -/

theorem isDigit_digit (n : ℕ) : (digit n).isDigit = true := by
  have h : ∀ k < 10, (Char.ofNat (48 + k)).isDigit = true := by decide
  exact h _ (Nat.mod_lt n (by omega))

theorem digitValue_digit (n : ℕ) : digitValue (digit n) = some (n % 10) := by
  have h : ∀ k < 10, digitValue (Char.ofNat (48 + k)) = some k := by decide
  exact h _ (Nat.mod_lt n (by omega))

theorem padded_two (n : ℕ) : padded 2 n = [digit (n / 10), digit n] := rfl

theorem padded_four (n : ℕ) :
    padded 4 n = [digit (n / 10 / 10 / 10), digit (n / 10 / 10), digit (n / 10), digit n] := rfl

theorem getnum_padded {n : ℕ} (h : n < 100) (fixed : Bool) (rest : List Char) :
    getnum fixed (padded 2 n ++ rest) = some (n, rest) := by
  rw [padded_two]
  simp only [List.cons_append, List.nil_append, getnum, digitValue_digit]
  have : 10 * (n / 10 % 10) + n % 10 = n := by omega
  rw [this]

theorem getYear_padded {n : ℕ} (h : n < 10000) (rest : List Char) :
    getYear (padded 4 n ++ rest) = some (n, rest) := by
  rw [padded_four]
  simp only [List.cons_append, List.nil_append, getYear, digitValue_digit, Option.bind_eq_bind,
    Option.bind_some]
  have : 1000 * (n / 10 / 10 / 10 % 10) + 100 * (n / 10 / 10 % 10) + 10 * (n / 10 % 10) + n % 10 = n := by
    omega
  rw [this]

theorem skip_cons (c : Char) (rest : List Char) : skip c (c :: rest) = some rest := by simp [skip]

theorem mem_padded {w n : ℕ} {c : Char} (h : c ∈ padded w n) : c.isDigit = true := by
  induction w generalizing n with
  | zero => simp [padded] at h
  | succ w ih =>
    rcases List.mem_append.1 h with h | h
    · exact ih h
    · rw [List.mem_singleton.1 h]
      exact isDigit_digit n

theorem mem_trimZeros {ds : List Char} {c : Char} (h : c ∈ trimZeros ds) : c ∈ ds := by
  have := (List.dropWhile_sublist (· == '0')).subset (List.mem_reverse.1 h)
  exact List.mem_reverse.1 this

/-- Skipping the fraction of a formatted instant leaves the zone. -/
theorem skipFraction_fraction (n : ℕ) : skipFraction (fraction n ++ ['Z']) = ['Z'] := by
  unfold fraction
  split
  · rfl
  · rename_i ds hne
    have hdigits : ∀ c ∈ trimZeros (padded 9 n), c.isDigit = true := fun c hc => mem_padded (mem_trimZeros hc)
    cases hds : trimZeros (padded 9 n) with
    | nil => exact absurd hds hne
    | cons d rest =>
      rw [hds] at hdigits
      have hd := hdigits d List.mem_cons_self
      have hrest : ∀ c ∈ rest, c.isDigit = true := fun c hc => hdigits c (List.mem_cons_of_mem d hc)
      simp [skipFraction, hd, List.dropWhile_append_of_pos hrest]

theorem parseDate_format (t : Instant) (rest : List Char) :
    parseDate (padded 4 t.year ++ '-' :: (padded 2 t.month ++ '-' :: (padded 2 t.day ++ rest))) =
      some rest := by
  have hm := t.month_range
  have hd := t.day_le.trans daysIn_le
  unfold parseDate
  rw [getYear_padded t.year_lt]
  simp only [Option.bind_eq_bind, Option.bind_some, skip_cons]
  rw [getnum_padded (by omega)]
  simp only [Option.bind_some, skip_cons]
  rw [getnum_padded (by omega)]
  simp [t.day_pos, t.day_le]

theorem parseClock_format (t : Instant) (rest : List Char) :
    parseClock (padded 2 t.hour ++ ':' :: (padded 2 t.minute ++ ':' :: (padded 2 t.second ++ rest))) =
      some rest := by
  have hh := t.hour_lt
  have hm := t.minute_lt
  have hs := t.second_lt
  unfold parseClock
  rw [getnum_padded (by omega)]
  simp only [Option.bind_eq_bind, Option.bind_some, skip_cons]
  rw [getnum_padded (by omega)]
  simp only [Option.bind_some, skip_cons]
  rw [getnum_padded (by omega)]
  simp [hh, hm, hs]

/-- **What the controller formats, the store accepts.** -/
theorem validTimestamp_format (t : Instant) : validTimestamp t.format = true := by
  have hdate := parseDate_format t
  have hclock := parseClock_format t
  have hfraction := skipFraction_fraction t.nanosecond
  unfold validTimestamp Instant.format Instant.toSecond
  simp only [String.toList_ofList, List.append_assoc, List.cons_append, hdate, Option.bind_eq_bind,
    Option.bind_some, skip_cons, hclock, hfraction]
  rfl

example : validTimestamp "2024-02-29T5:04:05,25+24:60" = true := by decide +kernel

example : validTimestamp "2023-02-29T05:04:05Z" = false := by decide +kernel

end GoEtl.Text
