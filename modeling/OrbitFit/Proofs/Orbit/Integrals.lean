import OrbitFit.Proofs.Orbit.Motion

/-!
# OrbitFit.Proofs.Orbit.Integrals — what motion along an ellipse keeps

A state goes into its elements and comes back from some of them.  The semi-major axis holds its energy, the
inclination and the node hold the direction of its angular momentum, and the semi-latus rectum the length of it; so
both are those of the state again wherever on the ellipse the body is put, by whatever solver of Kepler's equation.
Where the periapsis is read off the eccentricity vector comes back too.

* `Bound.energy_moved`, `Bound.cross_moved`, `Bound.eccentricityVector_moved`: the integrals of a state made of the
  semi-major axis, the eccentricity and the inclination of another.
* `keplerMotion_conserves`: motion along an ellipse keeps its integrals.
-/

open Real

namespace OrbitFit

open Osculating (eccentricityVector energy readOff)
open Vec3 (scale)

/-! ## The ends of an ellipse -/

/-- **The distance from the focus** is least at the periapsis and greatest half a turn after it. -/
theorem Elements.Elliptic.distance_mem {o : Elements ℝ} (h : o.Elliptic) :
    o.axis * (1 - o.eccentricity) ≤ o.distance ∧ o.distance ≤ o.axis * (1 + o.eccentricity) := by
  have ha := h.axis_pos
  have h0 := h.eccentricity_nonneg
  have h1 := h.eccentricity_lt
  have hfar : 0 ≤ o.axis * (1 - o.eccentricity) * o.eccentricity :=
    mul_nonneg (mul_nonneg ha.le (by linarith)) h0
  have hnear : 0 ≤ o.axis * (1 + o.eccentricity) * o.eccentricity :=
    mul_nonneg (mul_nonneg ha.le (by linarith)) h0
  rw [distance, semiLatus_real, le_div_iff₀ h.focal_pos, div_le_iff₀ h.focal_pos]
  constructor
  · nlinarith [mul_nonneg hfar (sub_nonneg.mpr (cos_le_one o.trueAnomaly))]
  · nlinarith [mul_nonneg hnear (neg_le_iff_add_nonneg.mp (neg_one_le_cos o.trueAnomaly))]

/-! ## States made of the elements of another -/

namespace Bound

variable {r v : Vec3 ℝ} {mu : ℝ} (hB : Bound r v mu) (node periapsis trueAnomaly : ℝ)
include hB

theorem elliptic_moved : ((readOff r v mu).moved node periapsis trueAnomaly).Elliptic :=
  OrbitFit.elliptic_moved hB.elliptic_elements node periapsis trueAnomaly

theorem semiLatus_moved :
    ((readOff r v mu).moved node periapsis trueAnomaly).semiLatus = (r.cross v).norm ^ 2 / mu := by
  have he : (eccentricityVector r v mu).norm ^ 2 < 1 := by
    nlinarith [hB.elliptic, Vec3.norm_nonneg (eccentricityVector r v mu)]
  have ha : ((readOff r v mu).moved node periapsis trueAnomaly).axis = -mu / (2 * energy r v mu) := hB.axis_eq
  rw [Elements.semiLatus_real, ha]
  exact axis_mul_eq hB.mu_pos hB.distance_pos he

/-- **The energy** is kept with the semi-major axis. -/
theorem energy_moved :
    energy (((readOff r v mu).moved node periapsis trueAnomaly).toCartesian mu).1
      (((readOff r v mu).moved node periapsis trueAnomaly).toCartesian mu).2 mu = energy r v mu := by
  have ha : ((readOff r v mu).moved node periapsis trueAnomaly).axis = -mu / (2 * energy r v mu) := hB.axis_eq
  have hmu := hB.mu_pos.ne'
  have hξ := hB.energy_neg.ne
  rw [(hB.elliptic_moved node periapsis trueAnomaly).energy_toCartesian hB.mu_pos, ha]
  field_simp

/-- **The angular momentum** is kept in length, and lies along the normal of the elements. -/
theorem cross_moved :
    (((readOff r v mu).moved node periapsis trueAnomaly).toCartesian mu).1.cross
      (((readOff r v mu).moved node periapsis trueAnomaly).toCartesian mu).2 =
        scale (r.cross v).norm ((readOff r v mu).moved node periapsis trueAnomaly).normal := by
  rw [(hB.elliptic_moved node periapsis trueAnomaly).cross_toCartesian hB.mu_pos, hB.semiLatus_moved,
    mul_div_cancel₀ _ hB.mu_pos.ne', sqrt_sq hB.momentum_pos.le]

/-- **The eccentricity vector** is kept in length, and points to the periapsis of the elements. -/
theorem eccentricityVector_moved :
    eccentricityVector (((readOff r v mu).moved node periapsis trueAnomaly).toCartesian mu).1
      (((readOff r v mu).moved node periapsis trueAnomaly).toCartesian mu).2 mu =
        scale (eccentricityVector r v mu).norm ((readOff r v mu).moved node periapsis trueAnomaly).apse :=
  (hB.elliptic_moved node periapsis trueAnomaly).eccentricityVector_toCartesian hB.mu_pos

theorem norm_moved :
    (readOff r v mu).axis.toScalar * (1 - (readOff r v mu).eccentricity) ≤
        (((readOff r v mu).moved node periapsis trueAnomaly).toCartesian mu).1.norm ∧
      (((readOff r v mu).moved node periapsis trueAnomaly).toCartesian mu).1.norm ≤
        (readOff r v mu).axis.toScalar * (1 + (readOff r v mu).eccentricity) := by
  rw [(hB.elliptic_moved node periapsis trueAnomaly).norm_toCartesian mu]
  exact (hB.elliptic_moved node periapsis trueAnomaly).distance_mem

end Bound

/-! ## Motion along an ellipse -/

section Motion

variable {r v : Vec3 ℝ} {mu : ℝ}

/-- **Motion along an ellipse keeps its integrals**, whatever the solver of Kepler's equation answers: the energy and
the angular momentum, and for an inclined ellipse the eccentricity vector; and it stays between the ends of the
ellipse. -/
theorem keplerMotion_conserves {o : Osculating ℝ} (h : boundElements r v mu = .ok o)
    (hell : o.eccentricity < 1 - 1e-10) (hnode : nodeVector r v = 0 ∨ 1e-12 < (nodeVector r v).norm)
    (solve : ℝ → ℝ → ℝ) (dt : ℝ) :
    ∃ r₁ v₁, keplerMotionWith solve r v dt mu = .ok (r₁, v₁) ∧
      energy r₁ v₁ mu = energy r v mu ∧ r₁.cross v₁ = r.cross v ∧
      (1e-12 < o.eccentricity → 1e-12 < (nodeVector r v).norm →
        eccentricityVector r₁ v₁ mu = eccentricityVector r v mu) ∧
      o.axis.toScalar * (1 - o.eccentricity) ≤ r₁.norm ∧ r₁.norm ≤ o.axis.toScalar * (1 + o.eccentricity) := by
  have hmotion : keplerMotionWith solve r v dt mu =
      .ok ((o.moved o.node o.periapsis (anomalyAfter solve o dt mu)).toCartesian mu) := by
    unfold keplerMotionWith
    rw [h]
    rfl
  obtain ⟨hmu, hh, hr, -, rfl⟩ := boundElements_eq_ok_iff.mp h
  have hB : Bound r v mu :=
    ⟨hmu, lt_of_lt_of_le (by norm_num) hr, lt_of_lt_of_le (by norm_num) hh, hell,
      hnode.imp_left Vec3.norm_eq_zero.mpr⟩
  refine ⟨_, _, hmotion, hB.energy_moved _ _ _, ?_, fun hapse hincl => ?_, hB.norm_moved _ _ _⟩
  · exact (hB.cross_moved _ _ _).trans hB.normal.symm
  · have hR : Regular r v mu :=
      ⟨hB.mu_pos, hB.distance_pos, hB.momentum_pos, hell, Or.inr hapse, Or.inr hincl⟩
    exact (hB.eccentricityVector_moved _ _ _).trans (hR.apse_of_node hincl hapse).symm

/-- An ellipse over the poles, left by the solver in use for a unit of time. -/
theorem keplerMotion_conserves_polar : ∃ o : Osculating ℝ, ∃ r₁ v₁,
    boundElements ⟨1, 0, 0⟩ ⟨0, 0, 5 / 4⟩ 1 = .ok o ∧
    keplerMotion ⟨1, 0, 0⟩ ⟨0, 0, 5 / 4⟩ 1 1 = .ok (r₁, v₁) ∧
    energy r₁ v₁ 1 = energy ⟨1, 0, 0⟩ ⟨0, 0, 5 / 4⟩ 1 ∧ r₁.cross v₁ = Vec3.cross ⟨1, 0, 0⟩ ⟨0, 0, 5 / 4⟩ ∧
    eccentricityVector r₁ v₁ 1 = eccentricityVector ⟨1, 0, 0⟩ ⟨0, 0, 5 / 4⟩ 1 ∧
    o.axis.toScalar * (1 - o.eccentricity) ≤ r₁.norm ∧ r₁.norm ≤ o.axis.toScalar * (1 + o.eccentricity) := by
  obtain ⟨hr, -, hh, hn⟩ := norms_of_upward zero_lt_one (show (0 : ℝ) < 5 / 4 by norm_num)
  obtain ⟨hok, -, he⟩ := boundElements_at_apsis (r := ⟨1, 0, 0⟩) (v := ⟨0, 0, 5 / 4⟩) (k := 9 / 16)
    zero_lt_one (by norm_num [Vec3.dot_def]) (by rw [hr]; norm_num [Vec3.dot_def]) (by rw [hh]; norm_num)
    (by rw [hr]; norm_num) (by rw [hr]; norm_num)
  rw [hr] at he
  have hnode : 1e-12 < (nodeVector ⟨1, 0, 0⟩ ⟨0, 0, 5 / 4⟩).norm := by
    rw [hn]
    norm_num
  obtain ⟨r₁, v₁, hmotion, henergy, hcross, hapse, hnorm⟩ :=
    keplerMotion_conserves hok (by rw [he]; norm_num) (Or.inr hnode) eccentricAnomaly 1
  exact ⟨_, r₁, v₁, hok, hmotion, henergy, hcross, hapse (by rw [he]; norm_num) hnode, hnorm⟩

end Motion

end OrbitFit
