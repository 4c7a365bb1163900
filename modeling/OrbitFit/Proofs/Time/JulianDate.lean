import OrbitFit.Time
import OrbitFit.Proofs.ExactScalar
import OrbitFit.Proofs.Time.Calendar

/-!
# OrbitFit.Proofs.Time.JulianDate — Julian Dates count days

The integers of a Julian Date are three truncations.  January and February are counted as months 13 and 14 of the year
before, so that the leap day is the last day of a year.  From March on the months have the lengths of the truncated
multiples of 30.6001, and the years those of the multiples of 365.25, less the centuries that have no leap day.

* `julianDate_of_march`, `julianDate_of_january`: the truncations in integers.
* `wholeDays_eq_of_march`, `wholeDays_eq_of_january`: together they are the ordinal number of the day, up to a constant.
* `julianDate_counts_days`: the Julian Dates of a day, of the day after it, and of moments in their order.
-/

namespace OrbitFit

open Gregorian

/-! ## The truncations -/

section Truncations

theorem truncChecked_quotient {x : ℝ} {n d : ℤ} (hx : x = n / d) (hn : 0 ≤ n) (hd : 0 < d) :
    (truncChecked x : Except (Fault ℝ) ℤ) = .ok (n / d) := by
  have hpos : 0 ≤ x := by
    rw [hx]
    exact div_nonneg (Int.cast_nonneg hn) (Int.cast_nonneg hd.le)
  have htrunc : Scalar.trunc x = n / d := by
    show (if 0 ≤ x then ⌊x⌋ else ⌈x⌉) = n / d
    rw [if_pos hpos, hx, Int.floor_div_cast_of_nonneg hd.le, Int.floor_intCast]
  rw [truncChecked, Scalar.isFinite_real, if_pos rfl, htrunc]

/-- The days of a date in a year that starts in March, from a day long before. -/
def wholeDays (year month day : ℤ) : ℤ :=
  1461 * (year + 4716) / 4 + 306001 * (month + 1) / 10000 + day + (2 - year / 100 + year / 100 / 4)

/-- The part of a day that has passed. -/
noncomputable def dayFraction (hour minute second : ℝ) : ℝ := (hour + minute / 60 + second / 3600) / 24

variable {year month : ℤ} (day : ℤ) (hour minute second : ℝ)

/-- **The truncations in integers.** -/
theorem julianDate_of_march (hyear : 0 ≤ year) (hmonth : 2 < month) : julianDate year month day hour minute second =
    .ok (wholeDays year month day - 1524.5 + dayFraction hour minute second) := by
  have hcentury := truncChecked_quotient (x := (year : ℝ) / (100 : ℤ)) rfl hyear (by norm_num)
  have hleap := truncChecked_quotient (x := ((year / 100 : ℤ) : ℝ) / (4 : ℤ)) rfl (by omega) (by norm_num)
  have hyears := truncChecked_quotient (x := 365.25 * (((year + 4716 : ℤ) : ℝ) / (1 : ℤ)))
    (n := 1461 * (year + 4716)) (d := 4) (by push_cast; ring) (by omega) (by norm_num)
  have hmonths := truncChecked_quotient (x := 30.6001 * (((month + 1 : ℤ) : ℝ) / (1 : ℤ)))
    (n := 306001 * (month + 1)) (d := 10000) (by push_cast; ring) (by omega) (by norm_num)
  have hlate : ¬ month ≤ 2 := by omega
  unfold julianDate dayFraction wholeDays
  simp only [if_neg hlate, ratioChecked_real, bind, Except.bind, pure, Except.pure, hcentury, hleap, hyears, hmonths]
  norm_num

/-- January and February belong to the year before. -/
theorem julianDate_of_january (hmonth : 1 ≤ month) (hearly : month ≤ 2) :
    julianDate year month day hour minute second = julianDate (year - 1) (month + 12) day hour minute second := by
  have hlate : ¬ month + 12 ≤ 2 := by omega
  unfold julianDate
  simp only [if_pos hearly, if_neg hlate]

end Truncations

/-! ## Days -/

section Days

/-- The truncated multiples of 365.25 have a leap day in every fourth year. -/
theorem fourth_years (year : ℤ) : 1461 * (year + 4716) / 4 = 365 * year + year / 4 + 1722519 := by
  omega

/-- **From March on** the days before a month are a truncated multiple of 30.6001, with the leap day behind February. -/
theorem daysBeforeMonth_of_march (year : ℕ) {month : ℕ} (h : 3 ≤ month) (h' : month ≤ 12) :
    daysBeforeMonth year month + 63 = 306001 * (month + 1) / 10000 + if IsLeap year then 1 else 0 := by
  by_cases hleap : IsLeap year
  · interval_cases month <;> simp [daysBeforeMonth, Finset.sum_Ico_succ_top, monthLength, hleap]
  · interval_cases month <;> simp [daysBeforeMonth, Finset.sum_Ico_succ_top, monthLength, hleap]

theorem daysBeforeMonth_two (year : ℕ) : daysBeforeMonth year 2 = 31 := rfl

/-- A year from March to February ends with its leap day. -/
theorem wholeDays_eq_of_march (d : CalendarDate) (h : 2 < d.month) :
    wholeDays d.year d.month d.day = d.ordinal + 1722949 := by
  obtain ⟨n, hn⟩ := Nat.exists_eq_add_of_le' d.one_le_year
  have hyears := daysBeforeYear_succ n
  have hmonths := daysBeforeMonth_of_march d.year (show 3 ≤ d.month by omega) d.month_le
  unfold wholeDays CalendarDate.ordinal
  rw [hn] at hmonths ⊢
  rw [fourth_years, Int.ediv_ediv_of_nonneg (by norm_num)]
  push_cast at hmonths ⊢
  by_cases hleap : IsLeap (n + 1)
  · rw [if_pos hleap] at hmonths
    unfold IsLeap at hleap
    omega
  · rw [if_neg hleap] at hmonths
    unfold IsLeap at hleap
    omega

theorem wholeDays_eq_of_january (d : CalendarDate) (h : d.month ≤ 2) :
    wholeDays (d.year - 1) (d.month + 12) d.day = d.ordinal + 1722949 := by
  obtain ⟨n, hn⟩ := Nat.exists_eq_add_of_le' d.one_le_year
  have hyears := daysBeforeYear_succ n
  have hmonth : d.month = 1 ∨ d.month = 2 := by
    have := d.one_le_month
    omega
  unfold wholeDays CalendarDate.ordinal
  rw [hn]
  rcases hmonth with hmonth | hmonth
  · rw [hmonth, daysBeforeMonth_one]
    omega
  · rw [hmonth, daysBeforeMonth_two]
    omega

/-- **The Julian Date of a moment of a day** by the ordinal number of the day. -/
theorem julianDate_eq (d : CalendarDate) (hour minute second : ℝ) :
    julianDate d.year d.month d.day hour minute second =
      .ok (1721424.5 + d.ordinal + dayFraction hour minute second) := by
  have hyear := d.one_le_year
  have hmonth := d.one_le_month
  have hconstant : ((d.ordinal + 1722949 : ℤ) : ℝ) - 1524.5 = 1721424.5 + d.ordinal := by
    push_cast
    ring
  by_cases h : d.month ≤ 2
  · rw [julianDate_of_january _ _ _ _ (by omega) (by omega), julianDate_of_march _ _ _ _ (by omega) (by omega),
      wholeDays_eq_of_january d h, hconstant]
  · rw [julianDate_of_march _ _ _ _ (by omega) (by omega), wholeDays_eq_of_march d (by omega), hconstant]

end Days

/-! ## Moments -/

/-- A moment of a day, on a clock that shows hours and minutes. -/
structure CalendarTime where
  date : CalendarDate
  hour : ℕ
  minute : ℕ
  second : ℝ
  hour_lt : hour < 24
  minute_lt : minute < 60
  second_mem : second ∈ Set.Ico 0 60

namespace CalendarTime

/-- Year, month, day, hour, minute and second, in the order in which moments are compared. -/
def key (t : CalendarTime) : ℕ ×ₗ ℕ ×ₗ ℕ ×ₗ ℕ ×ₗ ℕ ×ₗ ℝ :=
  toLex (t.date.year, toLex (t.date.month, toLex (t.date.day, toLex (t.hour, toLex (t.minute, t.second)))))

noncomputable def fraction (t : CalendarTime) : ℝ := dayFraction t.hour t.minute t.second

theorem fraction_mem (t : CalendarTime) : t.fraction ∈ Set.Ico 0 1 := by
  have hhour : (t.hour : ℝ) ≤ 23 := by exact_mod_cast Nat.le_of_lt_succ t.hour_lt
  have hminute : (t.minute : ℝ) ≤ 59 := by exact_mod_cast Nat.le_of_lt_succ t.minute_lt
  obtain ⟨hsecond, hsecond'⟩ := t.second_mem
  unfold fraction dayFraction
  constructor
  · positivity
  · linarith

/-- Within a day, the clock shows more and more. -/
theorem fraction_lt {t t' : CalendarTime} (h : t.hour < t'.hour ∨ t.hour = t'.hour ∧
    (t.minute < t'.minute ∨ t.minute = t'.minute ∧ t.second < t'.second)) : t.fraction < t'.fraction := by
  have hminute : (t.minute : ℝ) ≤ 59 := by exact_mod_cast Nat.le_of_lt_succ t.minute_lt
  have hminute' : (0 : ℝ) ≤ t'.minute := Nat.cast_nonneg _
  have hsecond := t.second_mem.2
  have hsecond' := t'.second_mem.1
  unfold fraction dayFraction
  rcases h with hhour | ⟨hhour, hminutes | ⟨hminutes, hseconds⟩⟩
  · have hnext : (t.hour : ℝ) + 1 ≤ t'.hour := by exact_mod_cast hhour
    linarith
  · have hnext : (t.minute : ℝ) + 1 ≤ t'.minute := by exact_mod_cast hminutes
    rw [hhour]
    linarith
  · rw [hhour, hminutes]
    linarith

/-- The days of a moment, the day of its date included by its number. -/
noncomputable def days (t : CalendarTime) : ℝ := t.date.ordinal + t.fraction

theorem days_lt_of_ordinal_lt {t t' : CalendarTime} (h : t.date.ordinal < t'.date.ordinal) : t.days < t'.days := by
  have hordinal : (t.date.ordinal : ℝ) + 1 ≤ t'.date.ordinal := by exact_mod_cast h
  have hfraction := t.fraction_mem.2
  have hfraction' := t'.fraction_mem.1
  unfold days
  linarith

/-- **Later moments have more days behind them.** -/
theorem days_lt_of_key_lt {t t' : CalendarTime} (h : t.key < t'.key) : t.days < t'.days := by
  unfold key at h
  simp only [Prod.Lex.toLex_lt_toLex] at h
  by_cases hdate : t.date.key < t'.date.key
  · exact days_lt_of_ordinal_lt (CalendarDate.ordinal_lt_of_key_lt hdate)
  · unfold CalendarDate.key at hdate
    simp only [Prod.Lex.toLex_lt_toLex] at hdate
    rcases h with h | ⟨hyear, h | ⟨hmonth, h | ⟨hday, h⟩⟩⟩
    · exact absurd (.inl h) hdate
    · exact absurd (.inr ⟨hyear, .inl h⟩) hdate
    · exact absurd (.inr ⟨hyear, .inr ⟨hmonth, h⟩⟩) hdate
    · have hordinal : t.date.ordinal = t'.date.ordinal := by
        unfold CalendarDate.ordinal
        rw [hyear, hmonth, hday]
      have := fraction_lt h
      unfold days
      rw [hordinal]
      linarith

theorem days_eq_of_key_eq {t t' : CalendarTime} (h : t.key = t'.key) : t.days = t'.days := by
  simp only [key, toLex_inj, Prod.mk.injEq] at h
  obtain ⟨hyear, hmonth, hday, hhour, hminute, hsecond⟩ := h
  unfold days fraction CalendarDate.ordinal
  rw [hyear, hmonth, hday, hhour, hminute, hsecond]

theorem days_lt_iff (t t' : CalendarTime) : t.days < t'.days ↔ t.key < t'.key := by
  constructor
  · intro h
    by_contra hkey
    rcases (not_lt.mp hkey).eq_or_lt with heq | hlt
    · exact absurd h (days_eq_of_key_eq heq.symm).not_lt
    · exact absurd h (days_lt_of_key_lt hlt).not_gt
  · exact days_lt_of_key_lt

end CalendarTime

/-! ## Julian Dates -/

/-- **Julian Dates count days**: a day has the Julian Date of its ordinal number, the day after it one more, at any time
of the day, and moments have Julian Dates in their order. -/
theorem julianDate_counts_days :
    (∀ d : CalendarDate, julianDate d.year d.month d.day 0 0 0 = .ok (1721424.5 + d.ordinal : ℝ)) ∧
    CalendarDate.first.ordinal = 1 ∧
    (∀ (d : CalendarDate) (hour minute second : ℝ), ∃ jd, julianDate d.year d.month d.day hour minute second = .ok jd ∧
      julianDate d.next.year d.next.month d.next.day hour minute second = .ok (jd + 1)) ∧
    ∀ t t' : CalendarTime, ∃ jd jd' : ℝ,
      julianDate t.date.year t.date.month t.date.day (t.hour : ℝ) t.minute t.second = .ok jd ∧
      julianDate t'.date.year t'.date.month t'.date.day (t'.hour : ℝ) t'.minute t'.second = .ok jd' ∧
      (jd < jd' ↔ t.key < t'.key) := by
  refine ⟨fun d => ?_, CalendarDate.ordinal_first, fun d hour minute second => ?_, fun t t' => ?_⟩
  · rw [julianDate_eq]
    norm_num [dayFraction]
  · refine ⟨_, julianDate_eq d hour minute second, ?_⟩
    rw [julianDate_eq, CalendarDate.ordinal_next]
    push_cast
    congr 1
    ring
  · refine ⟨_, _, julianDate_eq t.date _ _ _, julianDate_eq t'.date _ _ _, ?_⟩
    rw [← CalendarTime.days_lt_iff, add_assoc, add_assoc, add_lt_add_iff_left]
    rfl

end OrbitFit
