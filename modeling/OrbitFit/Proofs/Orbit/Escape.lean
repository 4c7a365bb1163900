import OrbitFit.Proofs.Orbit.Motion

/-!
# OrbitFit.Proofs.Orbit.Escape — states that are turned away as unbound

A motion looks at the length of the eccentricity vector, while the semi-major axis comes from the energy.  The two
agree on which states are bound, in whatever direction a body moves.

* `one_le_eccentricity_iff`: an eccentricity of one or more is an energy of zero or more.
* `boundElements_eq_error_iff`: off the focus a state is turned away for its energy only.
* `unbound_iff_energy_nonneg`: off the focus, the states that a motion turns away.
-/

namespace OrbitFit

open Osculating (eccentricityVector energy readOff)

section Unbound

variable {r v : Vec3 ℝ} {mu : ℝ}

/-- The eccentricity by the energy and the angular momentum. -/
theorem sq_eccentricity_eq (hmu : 0 < mu) (hr : 0 < r.norm) : (eccentricityVector r v mu).norm ^ 2 =
    1 + 2 * energy r v mu * (r.cross v).norm ^ 2 / mu ^ 2 := by
  have hmu2 : mu ^ 2 ≠ 0 := (pow_pos hmu 2).ne'
  rw [← mul_right_inj' hmu2, sq_eccentricity hmu hr, mul_add, mul_one, mul_div_cancel₀ _ hmu2]

theorem one_le_eccentricity_iff (hmu : 0 < mu) (hr : 0 < r.norm) (hh : 0 < (r.cross v).norm) :
    1 ≤ (eccentricityVector r v mu).norm ↔ 0 ≤ energy r v mu := by
  have hshare : 0 < (r.cross v).norm ^ 2 / mu ^ 2 := div_pos (pow_pos hh 2) (pow_pos hmu 2)
  rw [← one_le_sq_iff₀ (Vec3.norm_nonneg _), sq_eccentricity_eq hmu hr, mul_div_assoc, le_add_iff_nonneg_right,
    mul_nonneg_iff_of_pos_right hshare]
  exact mul_nonneg_iff_of_pos_left two_pos

/-- The checks of a state that is off the focus and spans a plane. -/
theorem boundElements_eq_error_iff (hmu : 0 < mu) (hr : 1e-12 ≤ r.norm) (hh : 1e-12 ≤ (r.cross v).norm)
    (fault : Fault ℝ) : boundElements r v mu = .error fault ↔
      0 ≤ energy r v mu ∧ fault = .unboundOrbit (eccentricityVector r v mu).norm := by
  have hbound := one_le_eccentricity_iff hmu (pos_of_tolerance_le hr) (pos_of_tolerance_le hh)
  rw [boundElements_eq, if_neg (not_not.mpr hmu), if_neg (not_or.mpr ⟨not_lt.mpr hh, not_lt.mpr hr⟩), ← hbound]
  split_ifs with he
  · rw [Except.error.injEq, eq_comm, and_iff_right he]
  · exact iff_of_false nofun fun h => he h.1

/-- **A motion turns a state away as unbound if and only if its energy is not negative**, in whatever direction it
moves.  Off the focus and in a plane of its own it is not turned away for another cause. -/
theorem unbound_iff_energy_nonneg (hmu : 0 < mu) (hr : 1e-12 ≤ r.norm) (hh : 1e-12 ≤ (r.cross v).norm) :
    ∃ o, Osculating.ofCartesian r v mu = .ok o ∧
      o.eccentricity ^ 2 = 1 + 2 * (v.norm ^ 2 / 2 - mu / r.norm) * (r.cross v).norm ^ 2 / mu ^ 2 ∧
      ∀ (solve : ℝ → ℝ → ℝ) (dt j2 : ℝ) (fault : Fault ℝ),
        (keplerMotionWith solve r v dt mu = .error fault ↔
          0 ≤ v.norm ^ 2 / 2 - mu / r.norm ∧ fault = .unboundOrbit o.eccentricity) ∧
        (j2MotionWith solve r v dt mu j2 = .error fault ↔
          0 ≤ v.norm ^ 2 / 2 - mu / r.norm ∧ fault = .unboundOrbit o.eccentricity) := by
  refine ⟨readOff r v mu, ?_, ?_, fun solve dt j2 fault => ?_⟩
  · unfold Osculating.ofCartesian
    rw [if_neg]
    simp only [Bool.or_eq_true, decide_eq_true_eq, not_or, not_lt]
    exact ⟨hh, hr⟩
  · rw [← energy_eq]
    exact sq_eccentricity_eq hmu (pos_of_tolerance_le hr)
  · rw [← energy_eq]
    have hchecks := boundElements_eq_error_iff hmu hr hh fault
    obtain ⟨hkepler, hj2⟩ := motion_eq_error_iff solve r v dt mu j2 fault
    exact ⟨hkepler.trans hchecks, hj2.trans hchecks⟩

/-- A body crossing the first axis upward, faster than the speed of escape and slower. -/
theorem unbound_iff_energy_nonneg_upward :
    (∃ e, keplerMotion ⟨1, 0, 0⟩ ⟨0, 0, 3 / 2⟩ (60 : ℝ) 1 = .error (.unboundOrbit e)) ∧
      ∃ p, keplerMotion ⟨1, 0, 0⟩ ⟨0, 0, 5 / 4⟩ (60 : ℝ) 1 = .ok p := by
  constructor
  · obtain ⟨hr, hv, hh, -⟩ := norms_of_upward zero_lt_one (show (0 : ℝ) < 3 / 2 by norm_num)
    obtain ⟨o, -, -, hfault⟩ := unbound_iff_energy_nonneg (r := ⟨1, 0, 0⟩) (v := ⟨0, 0, 3 / 2⟩) zero_lt_one
      (by rw [hr]; norm_num) (by rw [hh]; norm_num)
    rw [hv, hr] at hfault
    exact ⟨o.eccentricity, (hfault eccentricAnomaly 60 0 _).1.mpr ⟨by norm_num, rfl⟩⟩
  · obtain ⟨hr, hv, hh, -⟩ := norms_of_upward zero_lt_one (show (0 : ℝ) < 5 / 4 by norm_num)
    obtain ⟨o, -, -, hfault⟩ := unbound_iff_energy_nonneg (r := ⟨1, 0, 0⟩) (v := ⟨0, 0, 5 / 4⟩) zero_lt_one
      (by rw [hr]; norm_num) (by rw [hh]; norm_num)
    rw [hv, hr] at hfault
    cases hk : keplerMotion ⟨1, 0, 0⟩ ⟨0, 0, 5 / 4⟩ (60 : ℝ) 1 with
    | ok p => exact ⟨p, rfl⟩
    | error fault =>
      have henergy := ((hfault eccentricAnomaly 60 0 fault).1.mp hk).1
      norm_num at henergy

end Unbound

end OrbitFit
