import Mathlib.Data.String.Basic
import Mathlib.Tactic.IntervalCases
import GoEtl.Library.Lexicographic
import GoEtl.Text.Timestamp

/-!
# The order of timestamps

The store compares times by comparing their texts, in SQL and in Go. This module compares the order
of the texts that `Instant.format` writes with the order of the instants on the time line.

Down to the second the text has fields of fixed width, and the two orders agree
(`toSecond_append_lt`, `seconds_iff`: both are the lexicographic order of the calendar fields). The
fraction has a variable width: its trailing zeros are dropped, and with nothing left the point is, too.
The `Z` that follows is larger than a digit and than the point.

## What is proved

**The orders agree on two instants unless they are in the same second and the fraction of one is a
proper beginning of the fraction of the other** (`sameOrder_iff`). In that case they always disagree.
-/

namespace GoEtl.Text

open Library

/-! ### Digits -/

theorem digit_lt_digit {m n : ℕ} : digit m < digit n ↔ m % 10 < n % 10 := by
  have h : ∀ a < 10, ∀ b < 10, Char.ofNat (48 + a) < Char.ofNat (48 + b) ↔ a < b := by decide
  exact h _ (Nat.mod_lt m (by omega)) _ (Nat.mod_lt n (by omega))

theorem length_padded (w n : ℕ) : (padded w n).length = w := by
  induction w generalizing n with
  | zero => rfl
  | succ w ih => simp [padded, ih]

/-- A number of a fixed width is smaller when its text is. -/
theorem padded_strictMonoOn (w : ℕ) : StrictMonoOn (padded w) (Set.Iio (10 ^ w)) := by
  induction w with
  | zero =>
    intro m hm n hn hmn
    simp only [pow_zero, Set.mem_Iio] at hm hn
    omega
  | succ w ih =>
    intro m hm n hn hmn
    simp only [pow_succ, Set.mem_Iio] at hm hn
    simp only [padded]
    rw [append_lt_append_iff (by simp only [length_padded])]
    by_cases hdiv : m / 10 = n / 10
    · refine .inr ⟨by rw [hdiv], ?_⟩
      have hlast : digit m < digit n := digit_lt_digit.2 (by omega)
      exact List.cons_lt_cons_iff.2 (.inl hlast)
    · exact .inl (ih (by simp only [Set.mem_Iio]; omega) (by simp only [Set.mem_Iio]; omega) (by omega))

variable {x y : List Char}

/-- A field of a fixed width decides the order, unless the numbers are the same. -/
theorem padded_append_lt {w m n : ℕ} (hm : m < 10 ^ w) (hn : n < 10 ^ w) :
    padded w m ++ x < padded w n ++ y ↔ m < n ∨ (m = n ∧ x < y) := by
  rw [append_lt_append_iff (by simp only [length_padded]), (padded_strictMonoOn w).lt_iff_lt hm hn,
    (padded_strictMonoOn w).injOn.eq_iff hm hn]

/-! ### Down to the second -/

/-- The calendar fields, the largest first. -/
def Instant.civil (t : Instant) : List ℕ := [t.year, t.month, t.day, t.hour, t.minute, t.second]

variable {t u : Instant}

/-- The text down to the second is ordered as the calendar fields are. -/
theorem toSecond_append_lt :
    t.toSecond ++ x < u.toSecond ++ y ↔ t.civil < u.civil ∨ (t.civil = u.civil ∧ x < y) := by
  have hmonth : ∀ v : Instant, v.month < 10 ^ 2 := fun v => by have := v.month_range; omega
  have hday : ∀ v : Instant, v.day < 10 ^ 2 := fun v => by have := v.day_le.trans daysIn_le; omega
  have hhour : ∀ v : Instant, v.hour < 10 ^ 2 := fun v => by have := v.hour_lt; omega
  have hminute : ∀ v : Instant, v.minute < 10 ^ 2 := fun v => by have := v.minute_lt; omega
  have hsecond : ∀ v : Instant, v.second < 10 ^ 2 := fun v => by have := v.second_lt; omega
  simp only [Instant.toSecond, List.append_assoc, List.cons_append]
  rw [padded_append_lt t.year_lt u.year_lt, List.cons_lt_cons_self,
    padded_append_lt (hmonth t) (hmonth u), List.cons_lt_cons_self,
    padded_append_lt (hday t) (hday u), List.cons_lt_cons_self,
    padded_append_lt (hhour t) (hhour u), List.cons_lt_cons_self,
    padded_append_lt (hminute t) (hminute u), List.cons_lt_cons_self,
    padded_append_lt (hsecond t) (hsecond u)]
  simp only [Instant.civil, List.cons_lt_cons_iff, List.cons.injEq, List.not_lt_nil, and_false, or_false,
    and_true, and_or_left, or_assoc, and_assoc]

/-! ### The calendar on the time line -/

/-- The number of days before a month of a year. -/
def daysBeforeMonth (month year : ℕ) : ℕ :=
  daysBefore month + if isLeap year && decide (3 ≤ month) then 1 else 0

theorem isLeap_eq_true {year : ℕ} :
    isLeap year = true ↔ year % 4 = 0 ∧ (year % 100 ≠ 0 ∨ year % 400 = 0) := by
  simp [isLeap]

/-- Each year starts where the year before ends. -/
theorem daysBeforeYear_succ (year : ℕ) :
    daysBeforeYear (year + 1) = daysBeforeYear year + 365 + if isLeap year then 1 else 0 := by
  have h4 : (year + 1 + 3) / 4 = (year + 3) / 4 + if year % 4 = 0 then 1 else 0 := by split_ifs <;> omega
  have h100 : (year + 1 + 99) / 100 = (year + 99) / 100 + if year % 100 = 0 then 1 else 0 := by split_ifs <;> omega
  have h400 : (year + 1 + 399) / 400 = (year + 399) / 400 + if year % 400 = 0 then 1 else 0 := by split_ifs <;> omega
  have hle : (year + 99) / 100 ≤ (year + 3) / 4 := by omega
  rw [daysBeforeYear, daysBeforeYear, h4, h100, h400]
  -- With the quotients fixed, what is left is the leap rule.
  generalize (year + 3) / 4 = q at *
  generalize (year + 99) / 100 = q' at *
  simp only [isLeap_eq_true]
  split_ifs <;> omega

/-- Each month starts where the month before ends. -/
theorem daysBeforeMonth_succ (year : ℕ) {month : ℕ} (h₁ : 1 ≤ month) (h₂ : month < 12) :
    daysBeforeMonth (month + 1) year = daysBeforeMonth month year + daysIn month year := by
  unfold daysBeforeMonth daysIn
  interval_cases month <;> cases isLeap year <;> simp [daysBefore]

/-- December ends the year. -/
theorem daysBeforeMonth_december (year : ℕ) :
    daysBeforeMonth 12 year + daysIn 12 year = 365 + if isLeap year then 1 else 0 := by
  cases h : isLeap year <;> simp [daysBeforeMonth, daysIn, daysBefore, h]

theorem daysBeforeMonth_add_le (year : ℕ) {month month' : ℕ} (h₁ : 1 ≤ month) (h : month < month')
    (h₂ : month' ≤ 12) :
    daysBeforeMonth month year + daysIn month year ≤ daysBeforeMonth month' year := by
  induction month', h using Nat.le_induction with
  | base => rw [daysBeforeMonth_succ year h₁ (by omega)]
  | succ n hn ih =>
    have hsucc := daysBeforeMonth_succ year (show 1 ≤ n by omega) (by omega)
    have := ih (by omega)
    omega

theorem daysBeforeYear_add_le {year year' : ℕ} (h : year < year') :
    daysBeforeYear year + 365 + (if isLeap year then 1 else 0) ≤ daysBeforeYear year' := by
  induction year', h using Nat.le_induction with
  | base => rw [daysBeforeYear_succ]
  | succ n hn ih =>
    have hsucc := daysBeforeYear_succ n
    omega

theorem dayNumber_eq (t : Instant) :
    t.dayNumber = daysBeforeYear t.year + daysBeforeMonth t.month t.year + (t.day - 1) := by
  simp only [Instant.dayNumber, daysBeforeMonth, Nat.add_assoc]

/-- Every day of a month is before the end of the month. -/
theorem dayNumber_lt (t : Instant) :
    t.dayNumber < daysBeforeYear t.year + daysBeforeMonth t.month t.year + daysIn t.month t.year := by
  have h₁ := t.day_pos
  have h₂ := t.day_le
  rw [dayNumber_eq]
  omega

/-- Every day of a year is before the end of the year. -/
theorem dayNumber_lt_year (t : Instant) :
    t.dayNumber < daysBeforeYear t.year + 365 + if isLeap t.year then 1 else 0 := by
  have hday := dayNumber_lt t
  have hrange := t.month_range
  have hdecember := daysBeforeMonth_december t.year
  by_cases hlast : t.month = 12
  · rw [hlast] at hday
    omega
  · have := daysBeforeMonth_add_le t.year hrange.1 (show t.month < 12 by omega) le_rfl
    omega

/-- The calendar fields and the seconds order instants in the same way. -/
theorem seconds_lt_of_civil_lt (h : t.civil < u.civil) : t.seconds < u.seconds := by
  have ht := t.hour_lt
  have hm := t.minute_lt
  have hs := t.second_lt
  -- A smaller day, whatever the time of day, is at least a day earlier.
  have hday : t.dayNumber < u.dayNumber → t.seconds < u.seconds := by
    intro hlt
    unfold Instant.seconds
    omega
  simp only [Instant.civil, List.cons_lt_cons_iff, List.not_lt_nil, and_false, or_false] at h
  rcases h with hyear | ⟨hyear, hmonth | ⟨hmonth, hdate | ⟨hdate, htime⟩⟩⟩
  · have h₁ := dayNumber_lt_year t
    have h₂ := daysBeforeYear_add_le hyear
    have h₃ := dayNumber_eq u
    exact hday (by omega)
  · have h₁ := dayNumber_lt t
    have h₂ := daysBeforeMonth_add_le t.year t.month_range.1 hmonth u.month_range.2
    have h₃ := dayNumber_eq u
    rw [← hyear] at h₃
    exact hday (by omega)
  · have h₁ := dayNumber_eq t
    have h₂ := dayNumber_eq u
    rw [← hyear, ← hmonth] at h₂
    have := t.day_pos
    exact hday (by omega)
  · have hsame : t.dayNumber = u.dayNumber := by rw [dayNumber_eq, dayNumber_eq, hyear, hmonth, hdate]
    unfold Instant.seconds
    omega

theorem seconds_eq_of_civil_eq (h : t.civil = u.civil) : t.seconds = u.seconds := by
  simp only [Instant.civil, List.cons.injEq, and_true] at h
  obtain ⟨hyear, hmonth, hday, hhour, hminute, hsecond⟩ := h
  simp only [Instant.seconds, dayNumber_eq, hyear, hmonth, hday, hhour, hminute, hsecond]

theorem seconds_iff :
    (t.seconds < u.seconds ↔ t.civil < u.civil) ∧ (t.seconds = u.seconds ↔ t.civil = u.civil) := by
  rcases lt_trichotomy t.civil u.civil with hlt | heq | hlt
  · have hsooner := seconds_lt_of_civil_lt hlt
    exact ⟨iff_of_true hsooner hlt, iff_of_false hsooner.ne hlt.ne⟩
  · have hsame := seconds_eq_of_civil_eq heq
    exact ⟨iff_of_false hsame.not_lt heq.not_lt, iff_of_true hsame heq⟩
  · have hlater := seconds_lt_of_civil_lt hlt
    exact ⟨iff_of_false hlater.not_gt hlt.not_gt, iff_of_false hlater.ne' hlt.ne'⟩

theorem nanoseconds_lt_iff :
    t.nanoseconds < u.nanoseconds ↔
      t.seconds < u.seconds ∨ (t.seconds = u.seconds ∧ t.nanosecond < u.nanosecond) := by
  have ht := t.nanosecond_lt
  have hu := u.nanosecond_lt
  unfold Instant.nanoseconds
  omega

/-! ### The fraction -/

theorem trimZeros_cons (c : Char) (ds : List Char) :
    trimZeros (c :: ds) = if trimZeros ds = [] ∧ c = '0' then [] else c :: trimZeros ds := by
  unfold trimZeros
  rw [List.reverse_cons, List.dropWhile_append]
  by_cases hempty : ds.reverse.dropWhile (· == '0') = []
  · by_cases hc : c = '0' <;> simp [hempty, hc]
  · simp [hempty]

/-- Dropping the zeros at the end does not change the order of texts of the same length. -/
theorem trimZeros_lt_trimZeros (hlen : x.length = y.length) (hx : ∀ c ∈ x, '0' ≤ c) (h : x < y)
    : trimZeros x < trimZeros y := by
  induction x generalizing y with
  | nil =>
    obtain rfl : y = [] := List.length_eq_zero_iff.1 hlen.symm
    exact absurd h (List.not_lt_nil _)
  | cons c x ih =>
    cases y with
    | nil => simp at hlen
    | cons d y =>
      rw [List.forall_mem_cons] at hx
      -- The larger text keeps its first digit; the smaller one has none left or a smaller text.
      rcases List.cons_lt_cons_iff.1 h with hcd | ⟨rfl, hxy⟩
      · have hd : d ≠ '0' := fun heq => absurd (heq ▸ hcd) (not_lt.2 hx.1)
        rw [trimZeros_cons d, if_neg fun hboth => hd hboth.2, trimZeros_cons c]
        split
        · exact List.nil_lt_cons _ _
        · exact List.cons_lt_cons_iff.2 (.inl hcd)
      · have hrest := ih (by simpa using hlen) hx.2 hxy
        have hy : trimZeros y ≠ [] := fun heq => List.not_lt_nil _ (heq ▸ hrest)
        rw [trimZeros_cons c y, if_neg fun hboth => hy hboth.1, trimZeros_cons c]
        split
        · exact List.nil_lt_cons _ _
        · exact List.cons_lt_cons_iff.2 (.inr ⟨rfl, hrest⟩)

theorem zero_le_of_isDigit {c : Char} (h : c.isDigit = true) : '0' ≤ c := by
  simp only [Char.isDigit, Bool.and_eq_true, decide_eq_true_eq] at h
  exact h.1

theorem lt_of_isDigit {c : Char} (h : c.isDigit = true) : c < 'Z' := by
  simp only [Char.isDigit, Bool.and_eq_true, decide_eq_true_eq] at h
  exact lt_of_le_of_lt h.2 (by decide)

theorem fraction_eq (n : ℕ) :
    fraction n = if trimZeros (padded 9 n) = [] then [] else '.' :: trimZeros (padded 9 n) := by
  unfold fraction
  split
  · rename_i h
    rw [if_pos h]
  · rename_i h
    rw [if_neg h]

/-- A fraction on its own is smaller when its text is. -/
theorem fraction_strictMonoOn : StrictMonoOn fraction (Set.Iio (10 ^ 9)) := by
  intro m hm n hn hmn
  have hpadded := padded_strictMonoOn 9 hm hn hmn
  have htrim := trimZeros_lt_trimZeros (by simp only [length_padded])
    (fun c hc => zero_le_of_isDigit (mem_padded hc)) hpadded
  have hne : trimZeros (padded 9 n) ≠ [] := by
    intro heq
    rw [heq] at htrim
    exact List.not_lt_nil _ htrim
  rw [fraction_eq n, if_neg hne, fraction_eq m]
  split
  · exact List.nil_lt_cons _ _
  · exact List.cons_lt_cons_iff.2 (.inr ⟨rfl, htrim⟩)

theorem Instant.nanosecond_mem (t : Instant) : t.nanosecond ∈ Set.Iio (10 ^ 9) := by
  have := t.nanosecond_lt
  simpa using this

theorem lt_of_mem_fraction {n : ℕ} {c : Char} (h : c ∈ fraction n) : c < 'Z' := by
  rw [fraction_eq] at h
  split at h
  · cases h
  · rcases List.mem_cons.1 h with rfl | h
    · decide
    · exact lt_of_isDigit (mem_padded (mem_trimZeros h))

/-! ### Texts and instants -/

theorem format_lt_format :
    t.format < u.format ↔ t.seconds < u.seconds ∨
      (t.seconds = u.seconds ∧ fraction t.nanosecond ++ ['Z'] < fraction u.nanosecond ++ ['Z']) := by
  rw [String.lt_iff_toList_lt, Instant.format, Instant.format, String.toList_ofList,
    String.toList_ofList, List.append_assoc, List.append_assoc, toSecond_append_lt, seconds_iff.1,
    seconds_iff.2]

/-- Within a second, the fraction of one instant is a proper beginning of the fraction of another. -/
def BeginsFraction (t u : Instant) : Prop :=
  t.seconds = u.seconds ∧ t.nanosecond ≠ u.nanosecond ∧ fraction t.nanosecond <+: fraction u.nanosecond

instance (t u : Instant) : Decidable (BeginsFraction t u) :=
  inferInstanceAs (Decidable (t.seconds = u.seconds ∧ t.nanosecond ≠ u.nanosecond ∧
    fraction t.nanosecond <+: fraction u.nanosecond))

/-- An instant whose fraction begins another's is earlier, and its text is larger. -/
theorem BeginsFraction.spec (h : BeginsFraction t u) :
    t.nanoseconds < u.nanoseconds ∧ u.format < t.format := by
  obtain ⟨hsame, hne, hbegin⟩ := h
  have hfraction : fraction t.nanosecond ≠ fraction u.nanosecond := fun heq =>
    hne (fraction_strictMonoOn.injOn t.nanosecond_mem u.nanosecond_mem heq)
  constructor
  · rw [nanoseconds_lt_iff]
    right
    rw [← fraction_strictMonoOn.lt_iff_lt t.nanosecond_mem u.nanosecond_mem]
    obtain ⟨rest, hrest⟩ := hbegin
    refine ⟨hsame, ?_⟩
    rw [← hrest]
    cases rest with
    | nil => simp [← hrest] at hfraction
    | cons c rest =>
      have hlonger : fraction t.nanosecond ++ [] < fraction t.nanosecond ++ c :: rest :=
        List.append_left_lt (List.nil_lt_cons c rest)
      simpa using hlonger
  · exact format_lt_format.2 (.inr ⟨hsame.symm,
      terminated_lt_of_begins (fun _ => lt_of_mem_fraction) hbegin hfraction⟩)

/-- **Where neither fraction begins the other, the text is smaller when the instant is earlier.** -/
theorem format_lt_iff (htu : ¬ BeginsFraction t u) (hut : ¬ BeginsFraction u t) :
    t.format < u.format ↔ t.nanoseconds < u.nanoseconds := by
  rw [format_lt_format, nanoseconds_lt_iff]
  by_cases hsame : t.seconds = u.seconds
  · by_cases hne : t.nanosecond = u.nanosecond
    · simp [hsame, hne]
    · rw [append_lt_append_of_differ (fun h => htu ⟨hsame, hne, h⟩)
          (fun h => hut ⟨hsame.symm, Ne.symm hne, h⟩),
        fraction_strictMonoOn.lt_iff_lt t.nanosecond_mem u.nanosecond_mem]
  · simp [hsame]

/-- Comparing the texts of two instants gives the same answer as comparing the instants. -/
structure SameOrder (t u : Instant) : Prop where
  lt_iff : t.format < u.format ↔ t.nanoseconds < u.nanoseconds
  eq_iff : t.format = u.format ↔ t.nanoseconds = u.nanoseconds
  gt_iff : u.format < t.format ↔ u.nanoseconds < t.nanoseconds

theorem sameOrder_iff (t u : Instant) : SameOrder t u ↔ ¬ BeginsFraction t u ∧ ¬ BeginsFraction u t := by
  constructor
  · intro h
    refine ⟨fun htu => ?_, fun hut => ?_⟩
    · exact absurd (h.lt_iff.2 htu.spec.1) (lt_asymm htu.spec.2)
    · exact absurd (h.gt_iff.2 hut.spec.1) (lt_asymm hut.spec.2)
  · rintro ⟨htu, hut⟩
    have hlt := format_lt_iff htu hut
    have hgt := format_lt_iff hut htu
    refine ⟨hlt, ?_, hgt⟩
    rw [eq_iff_le_not_lt, eq_iff_le_not_lt, ← not_lt, ← not_lt, hlt, hgt]

end GoEtl.Text
