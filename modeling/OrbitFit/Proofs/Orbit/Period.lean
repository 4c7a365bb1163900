import OrbitFit.Proofs.Orbit.Parabola

/-!
# OrbitFit.Proofs.Orbit.Period — whole revolutions

The mean motion and the time of one revolution are two roots, of a quotient and of its inverse.  Their product is a
turn, so whole revolutions add whole turns to the mean anomaly, and the mean anomaly is reduced to one turn before
Kepler's equation is solved.  A motion therefore repeats itself whatever the solver makes of the equation.

* `exists_orbitalPeriod`: the mean motion advances a turn in one revolution.
* `meanAfter_mem`, `meanAfter_add_revolutions`: the mean anomaly that the equation is solved at.
* `keplerMotion_periodic`: motion along an ellipse repeats itself.
-/

open Real

namespace OrbitFit

/-! ## Turns -/

section Turns

theorem Scalar.floorMod_mem (x : ℝ) {y : ℝ} (hy : 0 < y) : Scalar.floorMod x y ∈ Set.Ico 0 y := by
  rw [Scalar.floorMod_real, mul_comm]
  exact ⟨Int.sub_floor_div_mul_nonneg x hy, Int.sub_floor_div_mul_lt x hy⟩

theorem coe_add_turns (x : ℝ) (k : ℤ) : ((x + k * (2 * π) : ℝ) : Angle) = x :=
  Angle.angle_eq_iff_two_pi_dvd_sub.mpr ⟨k, by ring⟩

end Turns

/-! ## One revolution -/

section Revolution

variable {a mu : ℝ}

theorem orbitalPeriod_eq (hmu : 0 < mu) (a : ℝ) : orbitalPeriod a mu = .ok (2 * π * √(a ^ 3 / mu)) := by
  unfold orbitalPeriod
  simp only [powChecked_real, bind, Except.bind, divChecked_real _ hmu.ne', pure, Except.pure, Scalar.two_real,
    Scalar.pi_real, Scalar.sqrt_real]

/-- The two roots are inverse to each other. -/
theorem meanMotion_mul_root (ha : 0 < a) (hmu : 0 < mu) : meanMotion a mu * √(a ^ 3 / mu) = 1 := by
  have hrate : 0 ≤ mu / a ^ 3 := by positivity
  have hone : mu / a ^ 3 * (a ^ 3 / mu) = 1 := by field_simp
  unfold meanMotion
  rw [Scalar.sqrt_real, Scalar.pow_real, ← sqrt_mul hrate, hone, sqrt_one]

/-- **The mean motion advances a turn in one revolution.** -/
theorem exists_orbitalPeriod (ha : 0 < a) (hmu : 0 < mu) :
    ∃ T, orbitalPeriod a mu = .ok T ∧ 0 < T ∧ meanMotion a mu * T = 2 * π := by
  refine ⟨_, orbitalPeriod_eq hmu a, by positivity, ?_⟩
  rw [mul_left_comm, meanMotion_mul_root ha hmu, mul_one]

end Revolution

/-! ## Motion over whole revolutions -/

section Motion

variable {r v : Vec3 ℝ} {mu T : ℝ} {o : Osculating ℝ}

/-- The mean anomaly `dt` seconds later, within one turn: what Kepler's equation is solved at. -/
def meanAfter {α : Type} [Scalar α] (o : Osculating α) (dt mu : α) : α :=
  Scalar.floorMod (o.meanAnomaly + meanMotion o.axis.toScalar mu * dt) (2.0 * Scalar.pi)

theorem anomalyAfter_eq {α : Type} [Scalar α] (solve : α → α → α) (o : Osculating α) (dt mu : α) :
    anomalyAfter solve o dt mu = trueOfEccentric (solve (meanAfter o dt mu) o.eccentricity) o.eccentricity :=
  rfl

theorem meanAfter_real (o : Osculating ℝ) (dt mu : ℝ) : meanAfter o dt mu =
    Scalar.floorMod (o.meanAnomaly + meanMotion o.axis.toScalar mu * dt) (2 * π) := by
  unfold meanAfter
  rw [Scalar.two_real, Scalar.pi_real]

theorem meanAfter_mem (o : Osculating ℝ) (dt mu : ℝ) : meanAfter o dt mu ∈ Set.Ico 0 (2 * π) := by
  rw [meanAfter_real]
  exact Scalar.floorMod_mem _ two_pi_pos

/-- Whole revolutions are whole turns, backward as well. -/
theorem meanAfter_add_revolutions (hT : meanMotion o.axis.toScalar mu * T = 2 * π) (dt : ℝ) (k : ℤ) :
    meanAfter o (dt + k * T) mu = meanAfter o dt mu := by
  rw [meanAfter_real, meanAfter_real]
  refine floorMod_eq_of_coe_eq ?_
  rw [mul_add, mul_left_comm, hT, ← add_assoc]
  exact coe_add_turns _ k

/-- **Motion along an ellipse repeats itself** after whole revolutions, forward and backward, whatever the solver of
Kepler's equation answers: the solver is asked at the same mean anomaly. -/
theorem keplerMotion_periodic :
    (∀ a mu : ℝ, 0 < a → 0 < mu → ∃ T, orbitalPeriod a mu = .ok T ∧ meanMotion a mu * T = 2 * π) ∧
      ∀ (r v : Vec3 ℝ) (mu : ℝ) (o : Osculating ℝ), boundElements r v mu = .ok o → o.eccentricity < 1 - 1e-10 →
        ∃ a T, o.axis = .finite a ∧ 0 < a ∧ orbitalPeriod a mu = .ok T ∧ ∀ (dt : ℝ) (k : ℤ),
          meanAfter o dt mu ∈ Set.Ico 0 (2 * π) ∧ meanAfter o (dt + k * T) mu = meanAfter o dt mu ∧
          ∀ solve : ℝ → ℝ → ℝ, ∃ s, keplerMotionWith solve r v dt mu = .ok s ∧
            keplerMotionWith solve r v (dt + k * T) mu = .ok s := by
  refine ⟨fun a mu ha hmu => ?_, fun r v mu o hb hfar => ?_⟩
  · obtain ⟨T, hok, -, hturn⟩ := exists_orbitalPeriod ha hmu
    exact ⟨T, hok, hturn⟩
  obtain ⟨a, haxis, -, ha, -⟩ := exists_axis_elliptic hb hfar
  obtain ⟨T, hok, -, hturn⟩ := exists_orbitalPeriod ha (boundElements_eq_ok_iff.mp hb).1
  have hturn' : meanMotion o.axis.toScalar mu * T = 2 * π := by rwa [haxis]
  refine ⟨a, T, haxis, ha, hok, fun dt k => ?_⟩
  have hmean := meanAfter_add_revolutions hturn' dt k
  refine ⟨meanAfter_mem o dt mu, hmean, fun solve => ⟨_, keplerMotionWith_of_ok hb solve dt, ?_⟩⟩
  rw [keplerMotionWith_of_ok hb solve (dt + k * T), anomalyAfter_eq, anomalyAfter_eq, hmean]

/-- An ellipse over the poles, run by the solver in use. -/
theorem keplerMotion_periodic_polar : ∃ (o : Osculating ℝ) (a T : ℝ),
    boundElements ⟨1, 0, 0⟩ ⟨0, 0, 5 / 4⟩ 1 = .ok o ∧ o.eccentricity = 9 / 16 ∧
    o.axis = .finite a ∧ orbitalPeriod a 1 = .ok T ∧
    ∀ (dt : ℝ) (k : ℤ), ∃ s, keplerMotion ⟨1, 0, 0⟩ ⟨0, 0, 5 / 4⟩ dt 1 = .ok s ∧
      keplerMotion ⟨1, 0, 0⟩ ⟨0, 0, 5 / 4⟩ (dt + k * T) 1 = .ok s := by
  obtain ⟨hr, -, hh, -⟩ := norms_of_upward zero_lt_one (show (0 : ℝ) < 5 / 4 by norm_num)
  obtain ⟨hok, -, he⟩ := boundElements_at_apsis (r := ⟨1, 0, 0⟩) (v := ⟨0, 0, 5 / 4⟩) (k := 9 / 16)
    zero_lt_one (by norm_num [Vec3.dot_def]) (by rw [hr]; norm_num [Vec3.dot_def]) (by rw [hh]; norm_num)
    (by rw [hr]; norm_num) (by rw [hr]; norm_num)
  rw [hr] at he
  obtain ⟨a, T, haxis, -, hT, hmotion⟩ := keplerMotion_periodic.2 _ _ _ _ hok (by rw [he]; norm_num)
  exact ⟨_, a, T, hok, by rw [he]; norm_num, haxis, hT, fun dt k => (hmotion dt k).2.2 eccentricAnomaly⟩

end Motion

end OrbitFit
