import Mathlib

/-!
# OrbitFit.Proofs.Time.Calendar — dates of the Gregorian calendar

The calendar is continued backward to its first year.  A date is a year, a month and a day that the month has, so no
other date can be written.  Its ordinal number counts the days from the first of January of the year one.

* `daysBeforeYear_succ`: the days of whole years in closed form.
* `CalendarDate.ordinal_next`: the ordinal number counts the days one by one, over the ends of months and years.
* `CalendarDate.ordinal_lt_of_key_lt`: it follows the order of year, month and day.
-/

namespace OrbitFit

/-! ## Months and years -/

namespace Gregorian

/-- Every fourth year is a leap year, but among those that end a century only every fourth. -/
def IsLeap (year : ℕ) : Prop := 4 ∣ year ∧ (100 ∣ year → 400 ∣ year)

instance : DecidablePred IsLeap := fun year => inferInstanceAs (Decidable (4 ∣ year ∧ (100 ∣ year → 400 ∣ year)))

def monthLength (year month : ℕ) : ℕ :=
  if month = 2 then (if IsLeap year then 29 else 28)
  else if month = 4 ∨ month = 6 ∨ month = 9 ∨ month = 11 then 30
  else 31

def yearLength (year : ℕ) : ℕ := ∑ month ∈ Finset.Icc 1 12, monthLength year month

/-- The days of all years before a year. -/
def daysBeforeYear (year : ℕ) : ℕ := ∑ y ∈ Finset.Ico 1 year, yearLength y

/-- The days of a year before one of its months. -/
def daysBeforeMonth (year month : ℕ) : ℕ := ∑ m ∈ Finset.Ico 1 month, monthLength year m

section Lengths

variable {year month : ℕ}

theorem daysBeforeYear_add_one (h : 1 ≤ year) : daysBeforeYear (year + 1) = daysBeforeYear year + yearLength year :=
  Finset.sum_Ico_succ_top h _

theorem daysBeforeMonth_add_one (h : 1 ≤ month) :
    daysBeforeMonth year (month + 1) = daysBeforeMonth year month + monthLength year month :=
  Finset.sum_Ico_succ_top h _

theorem daysBeforeYear_mono {year' : ℕ} (h : year ≤ year') : daysBeforeYear year ≤ daysBeforeYear year' :=
  Finset.sum_le_sum_of_subset (Finset.Ico_subset_Ico_right h)

theorem daysBeforeMonth_mono (year : ℕ) {month' : ℕ} (h : month ≤ month') :
    daysBeforeMonth year month ≤ daysBeforeMonth year month' :=
  Finset.sum_le_sum_of_subset (Finset.Ico_subset_Ico_right h)

theorem daysBeforeMonth_one (year : ℕ) : daysBeforeMonth year 1 = 0 := rfl

/-- Behind the last month the days of the year are complete. -/
theorem daysBeforeMonth_thirteen (year : ℕ) : daysBeforeMonth year 13 = yearLength year := rfl

theorem yearLength_eq (year : ℕ) : yearLength year = 365 + if IsLeap year then 1 else 0 := by
  rw [← daysBeforeMonth_thirteen, daysBeforeMonth_add_one (by omega)]
  by_cases h : IsLeap year
  · simp [daysBeforeMonth, Finset.sum_Ico_succ_top, monthLength, h]
  · simp [daysBeforeMonth, Finset.sum_Ico_succ_top, monthLength, h]

example : yearLength 1900 = 365 ∧ yearLength 2000 = 366 := by decide

/-- **The days of whole years**: each has 365, and the leap days are counted by the fourth years, the centuries and the
fourth centuries. -/
theorem daysBeforeYear_succ (n : ℕ) : daysBeforeYear (n + 1) + n / 100 = 365 * n + n / 4 + n / 400 := by
  induction n with
  | zero => rfl
  | succ n ih =>
    rw [daysBeforeYear_add_one (by omega), yearLength_eq]
    by_cases h : IsLeap (n + 1)
    · rw [if_pos h]
      unfold IsLeap at h
      omega
    · rw [if_neg h]
      unfold IsLeap at h
      omega

end Lengths

end Gregorian

open Gregorian

/-! ## Dates -/

structure CalendarDate where
  year : ℕ
  month : ℕ
  day : ℕ
  one_le_year : 1 ≤ year
  one_le_month : 1 ≤ month
  month_le : month ≤ 12
  one_le_day : 1 ≤ day
  day_le : day ≤ monthLength year month

namespace CalendarDate

/-- The first of January of the year one. -/
def first : CalendarDate := ⟨1, 1, 1, le_rfl, le_rfl, by decide, le_rfl, by decide⟩

/-- The number of a day, the first of January of the year one being day one. -/
def ordinal (d : CalendarDate) : ℕ := daysBeforeYear d.year + daysBeforeMonth d.year d.month + d.day

theorem one_le_monthLength (year month : ℕ) : 1 ≤ monthLength year month := by
  unfold monthLength
  split_ifs <;> omega

/-- The day after a date: in the same month, else the first of the next month, else the first of January. -/
def next (d : CalendarDate) : CalendarDate :=
  if h : d.day < monthLength d.year d.month then
    ⟨d.year, d.month, d.day + 1, d.one_le_year, d.one_le_month, d.month_le, by omega, h⟩
  else if h : d.month < 12 then
    ⟨d.year, d.month + 1, 1, d.one_le_year, by omega, h, le_rfl, one_le_monthLength _ _⟩
  else ⟨d.year + 1, 1, 1, by omega, le_rfl, by omega, le_rfl, one_le_monthLength _ _⟩

@[simp] theorem ordinal_first : first.ordinal = 1 := rfl

/-- **The ordinal number counts the days one by one.** -/
theorem ordinal_next (d : CalendarDate) : d.next.ordinal = d.ordinal + 1 := by
  have hday := d.day_le
  unfold next
  by_cases h : d.day < monthLength d.year d.month
  · rw [dif_pos h]
    unfold ordinal
    dsimp only
    omega
  · have hlast : d.day = monthLength d.year d.month := by omega
    rw [dif_neg h]
    by_cases h' : d.month < 12
    · rw [dif_pos h']
      unfold ordinal
      dsimp only
      rw [daysBeforeMonth_add_one d.one_le_month, hlast]
      omega
    · have hmonth : d.month = 12 := by
        have := d.month_le
        omega
      rw [dif_neg h']
      unfold ordinal
      dsimp only
      rw [daysBeforeYear_add_one d.one_le_year, ← daysBeforeMonth_thirteen, daysBeforeMonth_add_one (by omega),
        daysBeforeMonth_one, hlast, hmonth]
      omega

/-- Year, month and day, in the order in which dates are compared. -/
def key (d : CalendarDate) : ℕ ×ₗ ℕ ×ₗ ℕ := toLex (d.year, toLex (d.month, d.day))

theorem ordinal_le_of_month (d : CalendarDate) :
    daysBeforeYear d.year + daysBeforeMonth d.year d.month < d.ordinal ∧
      d.ordinal ≤ daysBeforeYear d.year + daysBeforeMonth d.year (d.month + 1) := by
  rw [daysBeforeMonth_add_one d.one_le_month]
  have hfirst := d.one_le_day
  have hlast := d.day_le
  unfold ordinal
  omega

theorem ordinal_le_of_year (d : CalendarDate) :
    daysBeforeYear d.year < d.ordinal ∧ d.ordinal ≤ daysBeforeYear (d.year + 1) := by
  rw [daysBeforeYear_add_one d.one_le_year, ← daysBeforeMonth_thirteen]
  obtain ⟨hlow, hhigh⟩ := d.ordinal_le_of_month
  have hmonth : d.month + 1 ≤ 13 := by
    have := d.month_le
    omega
  have := daysBeforeMonth_mono d.year hmonth
  omega

/-- **Later dates have greater ordinal numbers.** -/
theorem ordinal_lt_of_key_lt {d d' : CalendarDate} (h : d.key < d'.key) : d.ordinal < d'.ordinal := by
  obtain ⟨-, hyear⟩ := d.ordinal_le_of_year
  obtain ⟨hyear', -⟩ := d'.ordinal_le_of_year
  obtain ⟨-, hmonth⟩ := d.ordinal_le_of_month
  obtain ⟨hmonth', -⟩ := d'.ordinal_le_of_month
  unfold key at h
  rw [Prod.Lex.toLex_lt_toLex, Prod.Lex.toLex_lt_toLex] at h
  dsimp only at h
  rcases h with h | ⟨h, h' | ⟨h', h''⟩⟩
  · have := daysBeforeYear_mono (show d.year + 1 ≤ d'.year from h)
    omega
  · rw [← h] at hmonth'
    have := daysBeforeMonth_mono d.year (show d.month + 1 ≤ d'.month from h')
    omega
  · unfold ordinal
    rw [h, h']
    omega

end CalendarDate

end OrbitFit
