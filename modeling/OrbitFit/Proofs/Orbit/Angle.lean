import OrbitFit.Orbit.Motion
import OrbitFit.Proofs.ExactScalar

/-!
# OrbitFit.Proofs.Orbit.Angle — angles and anomalies in exact arithmetic

* `cos_angleOf`, `sin_angleOf`: an angle read off its cosine and the sign of its sine.
* `cos_trueOfEccentric`, `cos_eccentricOfTrue` and their sines: the half-angle formulas as rational relations
  between the two anomalies.  One formula with `e` and `-e` serves both directions.
* `keplerRoot`: the exact solution of Kepler's equation, and that it is the only one.
* `angleOf_mem`, `eccentricOfTrue_mem`, `mean_mem`: what is read off a turn stays in it.
-/

open Real

namespace OrbitFit

open Osculating (angleOf)

/-! ## Angles from a cosine and a sign -/

section AngleOf

variable {c s : ℝ} {reflex : Bool}

theorem angleOf_eq (h1 : -1 ≤ c) (h2 : c ≤ 1) (reflex : Bool) :
    angleOf c reflex = if reflex then 2 * π - arccos c else arccos c := by
  unfold angleOf
  simp only [Scalar.one_real, Scalar.two_real, Scalar.acos_real, Scalar.pi_real]
  rw [Scalar.clamp_eq_self h1 h2]

theorem cos_angleOf (h : c ^ 2 + s ^ 2 = 1) (reflex : Bool) : cos (angleOf c reflex) = c := by
  have h1 : -1 ≤ c := by nlinarith [sq_nonneg s]
  have h2 : c ≤ 1 := by nlinarith [sq_nonneg s]
  have hc : cos (arccos c) = c := cos_arccos h1 h2
  rw [angleOf_eq h1 h2]
  split_ifs
  · rw [cos_two_pi_sub, hc]
  · exact hc

theorem sin_angleOf (h : c ^ 2 + s ^ 2 = 1) (hr : reflex = true ↔ s < 0) : sin (angleOf c reflex) = s := by
  have hs : sin (arccos c) = |s| := by
    rw [sin_arccos, ← sqrt_sq_eq_abs]
    congr 1
    linarith
  rw [angleOf_eq (by nlinarith [sq_nonneg s]) (by nlinarith [sq_nonneg s])]
  split_ifs with hreflex
  · rw [sin_two_pi_sub, hs, abs_of_neg (hr.mp hreflex), neg_neg]
  · rw [hs, abs_of_nonneg (not_lt.mp (fun hlt => hreflex (hr.mpr hlt)))]

/-- An angle is within the turn unless its cosine is one and it is put at the end of it. -/
theorem angleOf_mem (h1 : -1 ≤ c) (h2 : c ≤ 1) (hr : reflex = true → c < 1) :
    angleOf c reflex ∈ Set.Ico 0 (2 * π) := by
  have hlow := arccos_nonneg c
  have hhigh := arccos_le_pi c
  have hπ := pi_pos
  rw [angleOf_eq h1 h2]
  split_ifs with hreflex
  · have hpos : 0 < arccos c := arccos_pos.mpr (hr hreflex)
    exact ⟨by linarith, by linarith⟩
  · exact ⟨hlow, by linarith⟩

/-- The angle of a point, read off one coordinate and the sign of the other. -/
theorem cos_sin_angleOf {x y d : ℝ} (hd : 0 < d) (h : x ^ 2 + y ^ 2 = d ^ 2) (hr : reflex = true ↔ y < 0) :
    cos (angleOf (x / d) reflex) = x / d ∧ sin (angleOf (x / d) reflex) = y / d := by
  have hone : (x / d) ^ 2 + (y / d) ^ 2 = 1 := by
    rw [div_pow, div_pow, ← add_div, h, div_self (pow_ne_zero 2 hd.ne')]
  have hsign : reflex = true ↔ y / d < 0 := by
    rw [hr, div_lt_iff₀ hd, zero_mul]
  exact ⟨cos_angleOf hone reflex, sin_angleOf hone hsign⟩

end AngleOf

/-! ## Angles up to whole turns -/

section Turns

theorem cos_eq_of_coe_eq {x y : ℝ} (h : (x : Angle) = y) : cos x = cos y := by
  rw [← Angle.cos_coe, h, Angle.cos_coe]

theorem sin_eq_of_coe_eq {x y : ℝ} (h : (x : Angle) = y) : sin x = sin y := by
  rw [← Angle.sin_coe, h, Angle.sin_coe]

/-- Two angles of one turn are equal if they are up to whole turns. -/
theorem eq_of_coe_eq {x y : ℝ} (hx : x ∈ Set.Ico 0 (2 * π)) (hy : y ∈ Set.Ico 0 (2 * π))
    (h : (x : Angle) = y) : x = y := by
  obtain ⟨k, hk⟩ := Angle.angle_eq_iff_two_pi_dvd_sub.mp h
  have hπ := two_pi_pos
  have hlow : (-1 : ℝ) < k := by nlinarith [hx.1, hy.2]
  have hhigh : (k : ℝ) < 1 := by nlinarith [hx.2, hy.1]
  have hzero : k = 0 := by
    have h1 : -1 < k := by exact_mod_cast hlow
    have h2 : k < 1 := by exact_mod_cast hhigh
    omega
  rw [hzero, Int.cast_zero, mul_zero] at hk
  exact sub_eq_zero.mp hk

/-- The remainder after whole turns. -/
theorem coe_floorMod (x : ℝ) : ((Scalar.floorMod x (2 * π) : ℝ) : Angle) = x := by
  rw [Angle.angle_eq_iff_two_pi_dvd_sub]
  refine ⟨-⌊x / (2 * π)⌋, ?_⟩
  rw [Scalar.floorMod_real]
  push_cast
  ring

theorem floorMod_eq_of_coe_eq {x y : ℝ} (h : (x : Angle) = y) :
    Scalar.floorMod x (2 * π) = Scalar.floorMod y (2 * π) := by
  obtain ⟨k, hk⟩ := Angle.angle_eq_iff_two_pi_dvd_sub.mp h
  have hx : x = y + k * (2 * π) := by linarith
  have hdiv : x / (2 * π) = y / (2 * π) + k := by
    rw [hx, add_div, mul_div_cancel_right₀ _ two_pi_pos.ne']
  rw [Scalar.floorMod_real, Scalar.floorMod_real, hdiv, Int.floor_add_intCast, hx]
  push_cast
  ring

end Turns

/-! ## True and eccentric anomaly -/

section Anomaly

/-- Twice the angle of a point. -/
theorem cos_two_mul_arg {x y : ℝ} (h : 0 < x ^ 2 + y ^ 2) :
    (x ^ 2 + y ^ 2) * cos (2 * Complex.arg ⟨x, y⟩) = x ^ 2 - y ^ 2 ∧
      (x ^ 2 + y ^ 2) * sin (2 * Complex.arg ⟨x, y⟩) = 2 * (x * y) := by
  set z : ℂ := ⟨x, y⟩ with hz
  -- the square of the point has twice its angle
  have hn : ‖z‖ ^ 2 = x ^ 2 + y ^ 2 := by
    rw [Complex.sq_norm, Complex.normSq_apply]
    simp only [hz]
    ring
  have hz0 : z ≠ 0 := by
    rintro h0
    rw [h0, norm_zero] at hn
    nlinarith
  have hc : ‖z‖ * cos (Complex.arg z) = x := Complex.norm_mul_cos_arg z
  have hs : ‖z‖ * sin (Complex.arg z) = y := Complex.norm_mul_sin_arg z
  constructor
  · rw [cos_two_mul', ← hn]
    linear_combination (‖z‖ * cos (Complex.arg z) + x) * hc - (‖z‖ * sin (Complex.arg z) + y) * hs
  · rw [sin_two_mul, ← hn]
    linear_combination 2 * (‖z‖ * sin (Complex.arg z)) * hc + 2 * x * hs

theorem one_sub_mul_cos_pos {e : ℝ} (h1 : -1 < e) (h2 : e < 1) (x : ℝ) : 0 < 1 - e * cos x := by
  have h : |e * cos x| ≤ |e| := by
    rw [abs_mul]
    exact mul_le_of_le_one_right (abs_nonneg e) (abs_cos_le_one x)
  linarith [le_abs_self (e * cos x), abs_lt.mpr ⟨h1, h2⟩]

theorem one_add_mul_cos_pos {e : ℝ} (h1 : -1 < e) (h2 : e < 1) (x : ℝ) : 0 < 1 + e * cos x := by
  have h := one_sub_mul_cos_pos (e := -e) (by linarith) (by linarith) x
  linarith

/-- **The true anomaly**, as the ratios that the ellipse gives. -/
theorem trueOfEccentric_ratios {e : ℝ} (h1 : -1 < e) (h2 : e < 1) (E : ℝ) :
    (1 - e * cos E) * cos (trueOfEccentric E e) = cos E - e ∧
      (1 - e * cos E) * sin (trueOfEccentric E e) = √(1 - e ^ 2) * sin E := by
  have hE : cos E = 1 - 2 * sin (E / 2) ^ 2 := by
    rw [← cos_two_mul_eq_one_sub, mul_div_cancel₀ E two_ne_zero]
  have hS : sin E = 2 * sin (E / 2) * cos (E / 2) := by
    rw [← sin_two_mul, mul_div_cancel₀ E two_ne_zero]
  have hp : √(1 + e) ^ 2 = 1 + e := sq_sqrt (by linarith)
  have hm : √(1 - e) ^ 2 = 1 - e := sq_sqrt (by linarith)
  have hpm : √(1 - e) * √(1 + e) = √(1 - e ^ 2) := by
    rw [← sqrt_mul (by linarith)]
    congr 1
    ring
  have hcs := sin_sq_add_cos_sq (E / 2)
  have hsum : (√(1 - e) * cos (E / 2)) ^ 2 + (√(1 + e) * sin (E / 2)) ^ 2 = 1 - e * cos E := by
    rw [hE]
    linear_combination cos (E / 2) ^ 2 * hm + sin (E / 2) ^ 2 * hp + (1 - e) * hcs
  have harg := cos_two_mul_arg (x := √(1 - e) * cos (E / 2)) (y := √(1 + e) * sin (E / 2))
    (hsum ▸ one_sub_mul_cos_pos h1 h2 E)
  rw [hsum] at harg
  unfold trueOfEccentric
  simp only [Scalar.one_real, Scalar.two_real, Scalar.sqrt_real, Scalar.sin_real, Scalar.cos_real,
    Scalar.atan2_real]
  constructor
  · rw [harg.1, hE]
    linear_combination cos (E / 2) ^ 2 * hm - sin (E / 2) ^ 2 * hp + (1 - e) * hcs
  · rw [harg.2, hS, ← hpm]
    ring

theorem eccentricOfTrue_eq (nu e : ℝ) : eccentricOfTrue nu e = trueOfEccentric nu (-e) := by
  unfold eccentricOfTrue trueOfEccentric
  rw [sub_neg_eq_add, ← sub_eq_add_neg]

/-- **The eccentric anomaly**, as the ratios that the ellipse gives. -/
theorem eccentricOfTrue_ratios {e : ℝ} (h1 : -1 < e) (h2 : e < 1) (nu : ℝ) :
    (1 + e * cos nu) * cos (eccentricOfTrue nu e) = cos nu + e ∧
      (1 + e * cos nu) * sin (eccentricOfTrue nu e) = √(1 - e ^ 2) * sin nu := by
  have h := trueOfEccentric_ratios (e := -e) (by linarith) (by linarith) nu
  rw [← eccentricOfTrue_eq, neg_sq] at h
  constructor
  · linear_combination h.1
  · linear_combination h.2

/-- The half-angle formulas keep the turn. -/
theorem trueOfEccentric_mem {e E : ℝ} (h1 : -1 < e) (h2 : e < 1) (hE : E ∈ Set.Ico 0 (2 * π)) :
    trueOfEccentric E e ∈ Set.Ico 0 (2 * π) := by
  obtain ⟨hlow, hhigh⟩ := hE
  have hp : 0 < √(1 + e) := sqrt_pos.mpr (by linarith)
  have hm : 0 < √(1 - e) := sqrt_pos.mpr (by linarith)
  have hs : 0 ≤ sin (E / 2) := sin_nonneg_of_nonneg_of_le_pi (by linarith) (by linarith)
  have harg : 0 ≤ Complex.arg ⟨√(1 - e) * cos (E / 2), √(1 + e) * sin (E / 2)⟩ :=
    Complex.arg_nonneg_iff.mpr (mul_nonneg hp.le hs)
  have hlt : Complex.arg ⟨√(1 - e) * cos (E / 2), √(1 + e) * sin (E / 2)⟩ < π := by
    rw [Complex.arg_lt_pi_iff]
    rcases hlow.eq_or_lt with h0 | hpos
    · left
      rw [← h0, zero_div, cos_zero, mul_one]
      exact hm.le
    · right
      exact (mul_pos hp (sin_pos_of_pos_of_lt_pi (by linarith) (by linarith))).ne'
  unfold trueOfEccentric
  simp only [Scalar.one_real, Scalar.two_real, Scalar.sqrt_real, Scalar.sin_real, Scalar.cos_real,
    Scalar.atan2_real]
  exact ⟨by linarith, by linarith⟩

theorem eccentricOfTrue_mem {e nu : ℝ} (h1 : -1 < e) (h2 : e < 1) (hnu : nu ∈ Set.Ico 0 (2 * π)) :
    eccentricOfTrue nu e ∈ Set.Ico 0 (2 * π) := by
  rw [eccentricOfTrue_eq]
  exact trueOfEccentric_mem (by linarith) (by linarith) hnu

/-- The half-angle formulas depend on the angle up to whole turns only. -/
theorem coe_trueOfEccentric_congr {e : ℝ} (h1 : -1 < e) (h2 : e < 1) {E E' : ℝ} (h : (E : Angle) = E') :
    ((trueOfEccentric E e : ℝ) : Angle) = (trueOfEccentric E' e : ℝ) := by
  obtain ⟨hc, hs⟩ := trueOfEccentric_ratios h1 h2 E
  obtain ⟨hc', hs'⟩ := trueOfEccentric_ratios h1 h2 E'
  have hpos := (one_sub_mul_cos_pos h1 h2 E').ne'
  rw [cos_eq_of_coe_eq h] at hc hs
  rw [sin_eq_of_coe_eq h] at hs
  exact Angle.cos_sin_inj (mul_left_cancel₀ hpos (hc.trans hc'.symm)) (mul_left_cancel₀ hpos (hs.trans hs'.symm))

/-- **The half-angle formulas undo each other**, up to whole turns. -/
theorem coe_trueOfEccentric_eccentricOfTrue {e : ℝ} (h1 : -1 < e) (h2 : e < 1) (nu : ℝ) :
    ((trueOfEccentric (eccentricOfTrue nu e) e : ℝ) : Angle) = nu := by
  set E := eccentricOfTrue nu e
  obtain ⟨hc, hs⟩ : _ ∧ (1 + e * cos nu) * sin E = _ := eccentricOfTrue_ratios h1 h2 nu
  obtain ⟨hc', hs'⟩ := trueOfEccentric_ratios h1 h2 E
  have hnu := one_add_mul_cos_pos h1 h2 nu
  have hp : √(1 - e ^ 2) ^ 2 = 1 - e ^ 2 := sq_sqrt (by nlinarith)
  have hp0 : 1 - e ^ 2 ≠ 0 := by nlinarith
  have hprod : (1 + e * cos nu) * (1 - e * cos E) = 1 - e ^ 2 := by linear_combination -e * hc
  refine Angle.cos_sin_inj (mul_left_cancel₀ hp0 ?_) (mul_left_cancel₀ hp0 ?_)
  · linear_combination (1 + e * cos nu) * hc' - cos (trueOfEccentric E e) * hprod + hc
  · linear_combination
      (1 + e * cos nu) * hs' - sin (trueOfEccentric E e) * hprod + √(1 - e ^ 2) * hs + sin nu * hp

theorem coe_eccentricOfTrue_trueOfEccentric {e : ℝ} (h1 : -1 < e) (h2 : e < 1) (E : ℝ) :
    ((eccentricOfTrue (trueOfEccentric E e) e : ℝ) : Angle) = E := by
  have h := coe_trueOfEccentric_eccentricOfTrue (e := -e) (by linarith) (by linarith) E
  rwa [eccentricOfTrue_eq, neg_neg, ← eccentricOfTrue_eq] at h

end Anomaly

/-! ## Kepler's equation -/

section Kepler

theorem exists_kepler (m e : ℝ) : ∃ E, E - e * sin E = m := by
  have hcont : ContinuousOn (fun E => E - e * sin E) (Set.Icc (m - |e|) (m + |e|)) := by
    fun_prop
  have hle : ∀ E, |e * sin E| ≤ |e| := fun E => by
    rw [abs_mul]
    exact mul_le_of_le_one_right (abs_nonneg e) (abs_sin_le_one E)
  have hlow : m - |e| - e * sin (m - |e|) ≤ m := by
    linarith [neg_le_abs (e * sin (m - |e|)), hle (m - |e|)]
  have hhigh : m ≤ m + |e| - e * sin (m + |e|) := by
    linarith [le_abs_self (e * sin (m + |e|)), hle (m + |e|)]
  obtain ⟨E, -, hE⟩ := intermediate_value_Icc (by linarith [abs_nonneg e]) hcont ⟨hlow, hhigh⟩
  exact ⟨E, hE⟩

/-- The exact solution of Kepler's equation. -/
noncomputable def keplerRoot (m e : ℝ) : ℝ := Classical.choose (exists_kepler m e)

theorem keplerRoot_spec (m e : ℝ) : keplerRoot m e - e * sin (keplerRoot m e) = m :=
  Classical.choose_spec (exists_kepler m e)

/-- On an ellipse the equation has no second solution. -/
theorem keplerRoot_unique {m e E : ℝ} (h1 : -1 < e) (h2 : e < 1) (h : E - e * sin E = m) :
    keplerRoot m e = E := by
  set D := keplerRoot m e
  have hD : D - e * sin D = m := keplerRoot_spec m e
  have hdiff : D - E = e * (sin D - sin E) := by linarith
  -- the sine does not stretch, so two solutions would be nearer to each other than they are
  have habs : |D - E| ≤ |e| * |D - E| := by
    conv_lhs => rw [hdiff, abs_mul]
    exact mul_le_mul_of_nonneg_left (abs_sin_sub_sin_le D E) (abs_nonneg e)
  have hzero : |D - E| = 0 := by
    nlinarith [abs_nonneg (D - E), abs_lt.mpr ⟨h1, h2⟩]
  linarith [abs_eq_zero.mp hzero]

theorem keplerRoot_zero {e : ℝ} (h1 : -1 < e) (h2 : e < 1) : keplerRoot 0 e = 0 :=
  keplerRoot_unique h1 h2 (by rw [sin_zero, mul_zero, sub_zero])

/-- A whole turn of the mean anomaly is a whole turn of the eccentric one. -/
theorem coe_keplerRoot_congr {e m m' : ℝ} (h1 : -1 < e) (h2 : e < 1) (h : (m : Angle) = m') :
    (keplerRoot m e : Angle) = keplerRoot m' e := by
  obtain ⟨k, hk⟩ := Angle.angle_eq_iff_two_pi_dvd_sub.mp h
  have hroot : keplerRoot m e = keplerRoot m' e + k * (2 * π) := by
    apply keplerRoot_unique h1 h2
    rw [sin_add_int_mul_two_pi]
    linarith [keplerRoot_spec m' e]
  rw [Angle.angle_eq_iff_two_pi_dvd_sub]
  exact ⟨k, by rw [hroot]; ring⟩

/-- The mean anomaly is in the turn of the eccentric one. -/
theorem mean_mem {e E : ℝ} (h0 : 0 ≤ e) (h1 : e < 1) (hE : E ∈ Set.Ico 0 (2 * π)) :
    E - e * sin E ∈ Set.Ico 0 (2 * π) := by
  obtain ⟨hlow, hhigh⟩ := hE
  have hsin : e * sin E ≤ e * E := mul_le_mul_of_nonneg_left (sin_le hlow) h0
  have hsin' : e * sin (2 * π - E) ≤ e * (2 * π - E) :=
    mul_le_mul_of_nonneg_left (sin_le (by linarith)) h0
  rw [sin_two_pi_sub] at hsin'
  exact ⟨by nlinarith, by nlinarith⟩

/-- The mean anomaly depends on the eccentric one up to whole turns only. -/
theorem coe_mean_congr (e : ℝ) {E E' : ℝ} (h : (E : Angle) = E') :
    ((E - e * sin E : ℝ) : Angle) = ((E' - e * sin E' : ℝ) : Angle) := by
  rw [Angle.coe_sub, Angle.coe_sub, h, sin_eq_of_coe_eq h]

end Kepler

end OrbitFit
