import Mathlib.Algebra.Order.Group.Int
import Mathlib.Data.List.Basic
import Mathlib.Tactic.IntervalCases
import Mathlib.Tactic.Ring

/-!
# Days of the Gregorian calendar

`Date` is a day of the proleptic Gregorian calendar, and `Date.dayNumber` counts days without a
gap, so that the days between two dates are the difference of their numbers.  The count respects
the order of dates (`number_le_iff`), also for the anniversaries of a leap day.

`Date.Reached n` says that the `n`-th anniversary of a date has come.  From a date to that
anniversary there are `n` Februaries, and as many days beyond `365 * n` as are leap among them
(`anniversary_eq`).
-/

namespace Foundation

/-! ## Years -/

/-- A year with a 29th of February. -/
def isLeap (y : ℤ) : Bool := 4 ∣ y && (!decide (100 ∣ y) || 400 ∣ y)

/-- The leap years from year 1 to this one. -/
def leapYears (y : ℤ) : ℤ := y / 4 - y / 100 + y / 400

/-- The number of the day before the first of a year. -/
def yearStart (y : ℤ) : ℤ := 365 * (y - 1) + leapYears (y - 1)

lemma leapYears_succ (y : ℤ) :
    leapYears (y + 1) = leapYears y + if isLeap (y + 1) then 1 else 0 := by
  unfold leapYears
  by_cases h : isLeap (y + 1) = true
  · have hleap := h
    rw [if_pos h]
    simp only [isLeap, Bool.and_eq_true, decide_eq_true_eq, Bool.or_eq_true, Bool.not_eq_true',
      decide_eq_false_iff_not] at hleap
    omega
  · have hleap := h
    rw [if_neg h]
    simp only [isLeap, Bool.and_eq_true, decide_eq_true_eq, Bool.or_eq_true, Bool.not_eq_true',
      decide_eq_false_iff_not] at hleap
    omega

/-- The days of a year. -/
lemma yearStart_succ (y : ℤ) :
    yearStart (y + 1) = yearStart y + 365 + if isLeap y then 1 else 0 := by
  have h := leapYears_succ (y - 1)
  rw [sub_add_cancel] at h
  unfold yearStart
  rw [add_sub_cancel_right, h]
  ring

lemma yearStart_le {y y' : ℤ} (h : y < y') : yearStart (y + 1) ≤ yearStart y' := by
  unfold yearStart leapYears
  omega

/-- The leap years among `n` years in a row. -/
def leapsFrom (y : ℤ) : ℕ → ℤ
  | 0 => 0
  | n + 1 => leapsFrom y n + if isLeap (y + n) then 1 else 0

lemma yearStart_add (y : ℤ) (n : ℕ) :
    yearStart (y + n) = yearStart y + 365 * n + leapsFrom y n := by
  induction n with
  | zero => simp [leapsFrom]
  | succ n ih =>
      have h := yearStart_succ (y + n)
      have hcast : y + (n + 1 : ℕ) = y + n + 1 := by
        push_cast
        ring
      rw [hcast, h, ih, leapsFrom]
      push_cast
      ring

lemma leapsFrom_eq (y : ℤ) (n : ℕ) : leapsFrom y n = leapYears (y + n - 1) - leapYears (y - 1) := by
  have h := yearStart_add y n
  unfold yearStart at h
  omega

/-! ## Dates -/

/-- The days before the first of a month, in a year that is not leap. -/
def daysBefore (month : ℕ) : ℤ :=
  match month with
  | 1 => 0
  | 2 => 31
  | 3 => 59
  | 4 => 90
  | 5 => 120
  | 6 => 151
  | 7 => 181
  | 8 => 212
  | 9 => 243
  | 10 => 273
  | 11 => 304
  | _ => 334

/-- The days a month can have. -/
def longestMonth (month : ℕ) : ℕ :=
  if month = 2 then 29 else if month = 4 ∨ month = 6 ∨ month = 9 ∨ month = 11 then 30 else 31

/-- The days of a month. -/
def monthLength (year : ℤ) (month : ℕ) : ℕ :=
  if month = 2 && !isLeap year then 28 else longestMonth month

/-- A day of the calendar. -/
structure Date where
  year : ℤ
  month : ℕ
  day : ℕ
  month_mem : 1 ≤ month ∧ month ≤ 12
  day_mem : 1 ≤ day ∧ day ≤ monthLength year month
  deriving DecidableEq

/-- The leap day that a day of this month has behind it. -/
def leapDay (year : ℤ) (month : ℕ) : ℤ := if 2 < month && isLeap year then 1 else 0

/-- The number of a day of a year.  The 29th of February of a year without one is the 1st of
March. -/
def dayNumberOf (year : ℤ) (month day : ℕ) : ℤ :=
  yearStart year + daysBefore month + leapDay year month + day

namespace Date

/-- The number of a day: one more for each day. -/
def dayNumber (d : Date) : ℤ := dayNumberOf d.year d.month d.day

/-- The day of the `n`-th anniversary of a date. -/
def anniversary (n : ℕ) (d : Date) : ℤ := dayNumberOf (d.year + n) d.month d.day

/-- The `n`-th anniversary of a date has come: the year says so, or the month in that year, or the
day in that month. -/
def Reached (n : ℕ) (birth today : Date) : Prop :=
  birth.year + n < today.year ∨ (birth.year + n = today.year ∧
    (birth.month < today.month ∨ (birth.month = today.month ∧ birth.day ≤ today.day)))

instance (n : ℕ) (birth today : Date) : Decidable (Reached n birth today) := by
  unfold Reached
  infer_instance

lemma day_le (d : Date) : d.day ≤ longestMonth d.month := by
  have h := d.day_mem.2
  unfold monthLength at h
  split at h
  · rename_i hfeb
    have hmonth : d.month = 2 := by
      rw [Bool.and_eq_true, decide_eq_true_eq] at hfeb
      exact hfeb.1
    rw [hmonth]
    exact h.trans (by decide)
  · exact h

end Date

/-! ## The order of the days -/

lemma leapDay_of_le {month : ℕ} (year : ℤ) (h : month ≤ 2) : leapDay year month = 0 := by
  have hnot : ¬ 2 < month := by omega
  simp [leapDay, hnot]

lemma leapDay_of_lt {month : ℕ} (year : ℤ) (h : 2 < month) :
    leapDay year month = if isLeap year then 1 else 0 := by
  simp [leapDay, h]

lemma leapDay_mem (year : ℤ) (month : ℕ) :
    0 ≤ leapDay year month ∧ leapDay year month ≤ if isLeap year then 1 else 0 := by
  by_cases h : 2 < month
  · rw [leapDay_of_lt year h]
    split <;> omega
  · rw [leapDay_of_le year (by omega)]
    split <;> omega

/-- A month and those before it fit before the next. -/
lemma daysBefore_add_le {m m' : ℕ} (hm : 1 ≤ m) (hlt : m < m') (hm' : m' ≤ 12) :
    daysBefore m + longestMonth m ≤ daysBefore m' + if m = 2 then 1 else 0 := by
  have hm'' : m ≤ 11 := by omega
  interval_cases m <;> interval_cases m' <;> decide

lemma daysBefore_mem {m : ℕ} (hm : 1 ≤ m ∧ m ≤ 12) :
    0 ≤ daysBefore m ∧ daysBefore m + longestMonth m ≤ 365 := by
  obtain ⟨h₁, h₂⟩ := hm
  interval_cases m <;> decide

/-- A day of a year comes before those of the next. -/
lemma dayNumberOf_lt_of_year {y y' : ℤ} {m m' d d' : ℕ} (hy : y < y') (hm : 1 ≤ m ∧ m ≤ 12)
    (hd : d ≤ longestMonth m) (hm' : 1 ≤ m' ∧ m' ≤ 12) (hd' : 1 ≤ d') :
    dayNumberOf y m d < dayNumberOf y' m' d' := by
  have hstart := yearStart_le hy
  have hyear := yearStart_succ y
  have hbefore := daysBefore_mem hm
  have hbefore' := daysBefore_mem hm'
  have hleap := leapDay_mem y m
  have hleap' := leapDay_mem y' m'
  unfold dayNumberOf
  omega

/-- A day of a month comes before those of a later month of the year. -/
lemma dayNumberOf_le_of_month {y : ℤ} {m m' d d' : ℕ} (hm : 1 ≤ m) (hlt : m < m')
    (hm' : m' ≤ 12) (hd : d ≤ longestMonth m) (hd' : 1 ≤ d') :
    dayNumberOf y m d ≤ dayNumberOf y m' d' := by
  have hbefore := daysBefore_add_le hm hlt hm'
  have hleap := leapDay_mem y m
  have hleap' := leapDay_mem y m'
  unfold dayNumberOf
  by_cases hlate : 2 < m
  · rw [leapDay_of_lt y hlate, leapDay_of_lt y (hlate.trans hlt)]
    rw [if_neg (by omega)] at hbefore
    omega
  · rw [leapDay_of_le y (by omega)]
    split at hbefore <;> omega

namespace Date

/-- A date comes before every day of a later month of its year. -/
lemma lt_of_month {t : Date} {m d : ℕ} (hlt : t.month < m) (hm : m ≤ 12) (hd : 1 ≤ d) :
    t.dayNumber < dayNumberOf t.year m d := by
  have hbefore := daysBefore_add_le t.month_mem.1 hlt hm
  have hday := t.day_mem.2
  unfold dayNumber dayNumberOf
  by_cases hfeb : t.month = 2
  · have hlong : longestMonth 2 = 29 := rfl
    rw [if_pos hfeb, hfeb, hlong] at hbefore
    rw [hfeb] at hday hlt ⊢
    rw [leapDay_of_le _ (le_refl 2), leapDay_of_lt _ hlt]
    unfold monthLength at hday
    rw [hlong] at hday
    by_cases hleap : isLeap t.year = true
    · rw [if_pos hleap]
      rw [if_neg (by simp [hleap])] at hday
      omega
    · rw [if_neg hleap]
      rw [if_pos (by simp [hleap])] at hday
      omega
  · rw [if_neg hfeb] at hbefore
    have hlong := t.day_le
    by_cases hlate : 2 < t.month
    · rw [leapDay_of_lt _ hlate, leapDay_of_lt _ (hlate.trans hlt)]
      omega
    · have hleap := leapDay_mem t.year m
      rw [leapDay_of_le _ (by omega)]
      omega

/-- **Numbers keep the order of the days**, the anniversaries of leap days included. -/
lemma number_le_iff {t : Date} {y : ℤ} {m d : ℕ} (hm : 1 ≤ m ∧ m ≤ 12)
    (hd : 1 ≤ d ∧ d ≤ longestMonth m) :
    dayNumberOf y m d ≤ t.dayNumber ↔
      y < t.year ∨ (y = t.year ∧ (m < t.month ∨ (m = t.month ∧ d ≤ t.day))) := by
  rcases lt_trichotomy y t.year with hy | hy | hy
  · have hlt := dayNumberOf_lt_of_year hy hm hd.2 t.month_mem t.day_mem.1
    exact iff_of_true hlt.le (.inl hy)
  · subst hy
    rcases lt_trichotomy m t.month with hmonth | hmonth | hmonth
    · have hle := dayNumberOf_le_of_month (y := t.year) hm.1 hmonth t.month_mem.2 hd.2 t.day_mem.1
      exact iff_of_true hle (.inr ⟨rfl, .inl hmonth⟩)
    · subst hmonth
      unfold dayNumber dayNumberOf
      omega
    · have hlt := lt_of_month hmonth hm.2 hd.1
      refine iff_of_false (by omega) ?_
      omega
  · have hlt := dayNumberOf_lt_of_year hy t.month_mem t.day_le hm hd.1
    refine iff_of_false (not_le.mpr hlt) ?_
    omega

/-- An anniversary has come when its day has. -/
lemma reached_iff (n : ℕ) (birth today : Date) :
    Reached n birth today ↔ birth.anniversary n ≤ today.dayNumber :=
  (number_le_iff birth.month_mem ⟨birth.day_mem.1, birth.day_le⟩).symm

/-! ## The days up to an anniversary -/

/-- The year of the first end of February from a date on. -/
def februaryYear (d : Date) : ℤ := if d.month ≤ 2 then d.year else d.year + 1

/-- The leap days on the way to the `n`-th anniversary: those of the `n` Februaries that end
from the date on. -/
def leapDaysTo (n : ℕ) (d : Date) : ℤ := leapsFrom d.februaryYear n

/-- **The days up to an anniversary.** -/
lemma anniversary_eq (n : ℕ) (d : Date) :
    d.anniversary n = d.dayNumber + 365 * n + d.leapDaysTo n := by
  unfold anniversary dayNumber dayNumberOf leapDaysTo februaryYear
  by_cases hearly : d.month ≤ 2
  · have hstart := yearStart_add d.year n
    rw [if_pos hearly, leapDay_of_le _ hearly, leapDay_of_le _ hearly]
    omega
  · have hstart := yearStart_add (d.year + 1) n
    have hnext := yearStart_succ d.year
    have hnext' := yearStart_succ (d.year + n)
    have hcast : d.year + 1 + n = d.year + n + 1 := by ring
    rw [hcast] at hstart
    rw [if_neg hearly, leapDay_of_lt _ (by omega), leapDay_of_lt _ (by omega)]
    omega

end Date

/-! ## The date of a day -/

/-- The year of the day with this number, looked for from a year on. -/
def yearFrom (n : ℤ) (y : ℤ) : ℕ → ℤ
  | 0 => y
  | fuel + 1 => if n ≤ yearStart (y + 1) then y else yearFrom n (y + 1) fuel

/-- The month of a day of a year, looked for from a month back. -/
def monthFrom (year ordinal : ℤ) : ℕ → ℕ
  | 0 => 1
  | m + 1 =>
    if daysBefore (m + 1) + leapDay year (m + 1) < ordinal then m + 1
    else monthFrom year ordinal m

lemma yearFrom_spec {n : ℤ} {fuel : ℕ} {y : ℤ} (hlow : yearStart y < n)
    (hhigh : n ≤ yearStart (y + fuel + 1)) :
    yearStart (yearFrom n y fuel) < n ∧ n ≤ yearStart (yearFrom n y fuel + 1) := by
  induction fuel generalizing y with
  | zero => exact ⟨hlow, by simpa [yearFrom] using hhigh⟩
  | succ fuel ih =>
      unfold yearFrom
      split
      · exact ⟨hlow, ‹_›⟩
      · refine ih (by omega) ?_
        rwa [show y + 1 + (fuel : ℤ) + 1 = y + (fuel + 1 : ℕ) + 1 by push_cast; ring]

/-- The days before the first of the next month. -/
lemma monthLength_eq (year : ℤ) {m : ℕ} (hm : 1 ≤ m ∧ m ≤ 11) :
    daysBefore (m + 1) + leapDay year (m + 1) = daysBefore m + leapDay year m +
      monthLength year m := by
  obtain ⟨h₁, h₂⟩ := hm
  unfold monthLength leapDay
  interval_cases m <;> cases isLeap year <;> decide

lemma monthFrom_spec {year ordinal : ℤ} (hlow : 1 ≤ ordinal) {top : ℕ} (htop : 1 ≤ top) :
    1 ≤ monthFrom year ordinal top ∧ monthFrom year ordinal top ≤ top ∧
      daysBefore (monthFrom year ordinal top) + leapDay year (monthFrom year ordinal top) <
        ordinal ∧
      (monthFrom year ordinal top = top ∨ ordinal ≤
        daysBefore (monthFrom year ordinal top + 1) +
          leapDay year (monthFrom year ordinal top + 1)) := by
  induction top with
  | zero => omega
  | succ top ih =>
      unfold monthFrom
      split
      · exact ⟨htop, le_rfl, ‹_›, .inl rfl⟩
      · rename_i hge
        rcases Nat.eq_zero_or_pos top with rfl | hpos
        · exfalso
          exact hge (by
            rw [leapDay_of_le _ (by decide)]
            show (0 : ℤ) + 0 < ordinal
            omega)
        · obtain ⟨h₁, h₂, h₃, h₄⟩ := ih hpos
          refine ⟨h₁, h₂.trans (Nat.le_succ _), h₃, .inr ?_⟩
          rcases h₄ with heq | hle
          · rw [heq]
            exact not_lt.mp hge
          · exact hle

/-- A day of a year has a month, and a day in it. -/
lemma monthFrom_day {year ordinal : ℤ} (hlow : 1 ≤ ordinal)
    (hhigh : ordinal ≤ 365 + if isLeap year then 1 else 0) :
    (1 ≤ monthFrom year ordinal 12 ∧ monthFrom year ordinal 12 ≤ 12) ∧
      1 ≤ ordinal - daysBefore (monthFrom year ordinal 12) -
        leapDay year (monthFrom year ordinal 12) ∧
      ordinal - daysBefore (monthFrom year ordinal 12) -
        leapDay year (monthFrom year ordinal 12) ≤
          monthLength year (monthFrom year ordinal 12) := by
  obtain ⟨h₁, h₂, h₃, h₄⟩ := monthFrom_spec hlow (show 1 ≤ 12 by decide)
  refine ⟨⟨h₁, h₂⟩, by omega, ?_⟩
  rcases h₄ with heq | hle
  · rw [heq, leapDay_of_lt year (by decide)]
    have hlong : (monthLength year 12 : ℤ) = 31 := by
      unfold monthLength
      rfl
    have hbefore : daysBefore 12 = 334 := rfl
    omega
  · rcases lt_or_eq_of_le h₂ with hlt | heq
    · have hlength := monthLength_eq year ⟨h₁, Nat.le_of_lt_succ hlt⟩
      omega
    · rw [heq] at hle ⊢
      rw [leapDay_of_lt year (by decide)] at hle ⊢
      have hlong : (monthLength year 12 : ℤ) = 31 := by
        unfold monthLength
        rfl
      have hbefore : daysBefore 12 = 334 := rfl
      omega

namespace Date

/-- The day with this number of a year. -/
def ofOrdinal (year ordinal : ℤ) (hlow : 1 ≤ ordinal)
    (hhigh : ordinal ≤ 365 + if isLeap year then 1 else 0) : Date where
  year := year
  month := monthFrom year ordinal 12
  day := (ordinal - daysBefore (monthFrom year ordinal 12) -
    leapDay year (monthFrom year ordinal 12)).toNat
  month_mem := (monthFrom_day hlow hhigh).1
  day_mem := by
    have h := (monthFrom_day hlow hhigh).2
    omega

lemma dayNumber_ofOrdinal {year ordinal : ℤ} (hlow : 1 ≤ ordinal)
    (hhigh : ordinal ≤ 365 + if isLeap year then 1 else 0) :
    (ofOrdinal year ordinal hlow hhigh).dayNumber = yearStart year + ordinal := by
  have h := (monthFrom_day hlow hhigh).2.1
  unfold dayNumber dayNumberOf ofOrdinal
  simp only
  omega

/-- The year so many days after the first of January of a year. -/
def yearOfDays (base : ℤ) (days : ℕ) : ℤ :=
  yearFrom (yearStart base + 1 + days) base (days / 365)

lemma yearOfDays_spec (base : ℤ) (days : ℕ) :
    yearStart (yearOfDays base days) < yearStart base + 1 + days ∧
      yearStart base + 1 + days ≤ yearStart (yearOfDays base days + 1) := by
  refine yearFrom_spec (by omega) ?_
  have hadd := yearStart_add base (days / 365 + 1)
  have hleaps : 0 ≤ leapsFrom base (days / 365 + 1) := by
    rw [leapsFrom_eq]
    unfold leapYears
    omega
  rw [show base + ((days / 365 : ℕ) : ℤ) + 1 = base + ((days / 365 + 1 : ℕ) : ℤ) by
    push_cast
    ring]
  omega

/-- The date so many days after the first of January of a year. -/
def ofDays (base : ℤ) (days : ℕ) : Date :=
  ofOrdinal (yearOfDays base days) (yearStart base + 1 + days - yearStart (yearOfDays base days))
    (by
      have h := (yearOfDays_spec base days).1
      omega)
    (by
      have h := (yearOfDays_spec base days).2
      rw [yearStart_succ] at h
      omega)

@[simp] lemma dayNumber_ofDays (base : ℤ) (days : ℕ) :
    (ofDays base days).dayNumber = yearStart base + 1 + days := by
  unfold ofDays
  rw [dayNumber_ofOrdinal]
  ring

/-- **Dates compare as their numbers do.** -/
lemma lt_iff {d d' : Date} : d.dayNumber < d'.dayNumber ↔
    d.year < d'.year ∨ (d.year = d'.year ∧
      (d.month < d'.month ∨ (d.month = d'.month ∧ d.day < d'.day))) := by
  have h := number_le_iff (t := d) (y := d'.year) d'.month_mem ⟨d'.day_mem.1, d'.day_le⟩
  have hdef : dayNumberOf d'.year d'.month d'.day = d'.dayNumber := rfl
  rw [hdef] at h
  rw [← not_le, h]
  omega

end Date

end Foundation
