import OrbitFit.Proofs.Orbit.Integrals

/-!
# OrbitFit.Proofs.Orbit.Flow — closed-form motion as a flow

With the exact solution of Kepler's equation two motions one after the other are one, as long as the state
between them is accepted: the elements read off it are those that were advanced, up to whole turns, so the drift
rates found at it are the same and its mean anomaly is the one reached.

* `Inclined.reached`: what a motion from an inclined ellipse reaches.
* `motion_flow`: motion from an inclined ellipse, in any two steps.
-/

open Real

namespace OrbitFit

open Osculating (eccentricityVector readOff)

variable {r v : Vec3 ℝ} {mu : ℝ}

/-! ## Inclined ellipses -/

section Inclined

/-- An accepted state on an inclined ellipse, clear of the tolerances. -/
structure Inclined (r v : Vec3 ℝ) (mu : ℝ) : Prop where
  mu_pos : 0 < mu
  momentum : 1e-12 ≤ (r.cross v).norm
  distance : 1e-12 ≤ r.norm
  node : 1e-12 < (nodeVector r v).norm
  apse : 1e-12 < (eccentricityVector r v mu).norm
  elliptic : (eccentricityVector r v mu).norm < 1 - 1e-10

/-- The rates depend on the shape and the tilt of the ellipse only. -/
theorem rates_congr {o o' : Osculating ℝ} (ha : o.axis.toScalar = o'.axis.toScalar)
    (he : o.eccentricity = o'.eccentricity) (hi : (o.inclination : Angle) = o'.inclination) (mu j2 : ℝ) :
    nodeRate o mu j2 = nodeRate o' mu j2 ∧ periapsisRate o mu j2 = periapsisRate o' mu j2 := by
  have hfactor : j2Factor o mu j2 = j2Factor o' mu j2 := by
    simp only [j2Factor, ha, he]
  simp only [nodeRate, periapsisRate, hfactor, Scalar.cos_real, Scalar.sin_real, cos_eq_of_coe_eq hi,
    sin_eq_of_coe_eq hi, and_self]

namespace Inclined

variable (h : Inclined r v mu)
include h

theorem regular : Regular r v mu :=
  ⟨h.mu_pos, lt_of_lt_of_le (by norm_num) h.distance, lt_of_lt_of_le (by norm_num) h.momentum, h.elliptic,
    Or.inr h.apse, Or.inr h.node⟩

theorem boundElements_eq_readOff : boundElements r v mu = .ok (readOff r v mu) :=
  boundElements_eq_ok_iff.mpr ⟨h.mu_pos, h.momentum, h.distance, by linarith [h.elliptic], rfl⟩

theorem describes : (readOff r v mu).elements.Describes r v mu :=
  h.regular.describes_iff.mpr (Or.inl (ne_zero_of_tolerance h.node))

theorem advanced_elliptic (dt j2 : ℝ) : (advanced (readOff r v mu) dt mu j2).Elliptic :=
  h.regular.bound.elliptic_moved _ _ _

/-- A motion keeps the angular momentum up to direction. -/
theorem norm_cross_advanced (dt j2 : ℝ) {r₁ v₁ : Vec3 ℝ}
    (hm : (advanced (readOff r v mu) dt mu j2).toCartesian mu = (r₁, v₁)) :
    (r₁.cross v₁).norm = (r.cross v).norm := by
  have hc : ((advanced (readOff r v mu) dt mu j2).toCartesian mu).1.cross
      ((advanced (readOff r v mu) dt mu j2).toCartesian mu).2 =
        Vec3.scale (r.cross v).norm (advanced (readOff r v mu) dt mu j2).normal :=
    h.regular.bound.cross_moved _ _ _
  rw [hm] at hc
  dsimp only at hc
  rw [hc, Vec3.norm_scale h.regular.momentum_pos.le, (Elements.triad _).norm_normal, mul_one]

/-- How far from the focus a motion ends. -/
theorem norm_advanced (dt j2 : ℝ) :
    ((advanced (readOff r v mu) dt mu j2).toCartesian mu).1.norm = (readOff r v mu).axis.toScalar *
      (1 - (readOff r v mu).eccentricity * cos (keplerRoot ((readOff r v mu).meanAnomaly
        + meanMotion (readOff r v mu).axis.toScalar mu * dt) (readOff r v mu).eccentricity)) := by
  have hE := h.advanced_elliptic dt j2
  have hν := coe_anomalyAfter hE.eccentricity_nonneg hE.eccentricity_lt dt mu
  set o := readOff r v mu
  set E := keplerRoot (o.meanAnomaly + meanMotion o.axis.toScalar mu * dt) o.eccentricity
  have hlow : -1 < o.eccentricity := by linarith [show 0 ≤ o.eccentricity from hE.eccentricity_nonneg]
  have hc := (trueOfEccentric_ratios hlow hE.eccentricity_lt E).1
  rw [← cos_eq_of_coe_eq hν] at hc
  rw [hE.norm_toCartesian mu]
  refine mul_right_cancel₀ hE.focal_pos.ne' (hE.distance_mul.trans ?_)
  rw [Elements.semiLatus_real]
  show o.axis.toScalar * (1 - o.eccentricity ^ 2) = o.axis.toScalar * (1 - o.eccentricity * cos E) *
    (1 + o.eccentricity * cos (anomalyAfter keplerRoot o dt mu))
  linear_combination -o.axis.toScalar * o.eccentricity * hc

/-- At the far end of the ellipse the mean anomaly is half a turn. -/
theorem coe_meanAnomaly_of_far {k : ℝ} (hk : eccentricityVector r v mu = Vec3.scale k r) (hneg : k < 0) :
    ((readOff r v mu).meanAnomaly : Angle) = π := by
  have hd := h.describes
  have hR := h.regular
  have he : (eccentricityVector r v mu).norm = -k * r.norm := by
    rw [hk, Vec3.norm_scale_abs, abs_of_neg hneg]
  have hlt : (eccentricityVector r v mu).norm < 1 := by linarith [h.elliptic]
  have hlow : -1 < (eccentricityVector r v mu).norm := by
    linarith [Vec3.norm_nonneg (eccentricityVector r v mu)]
  -- the eccentricity vector points away from the body, so the body is half a turn from the periapsis
  have hν : cos (readOff r v mu).trueAnomaly = -1 := by
    have hdot := congrArg (Vec3.dot · r) (hk.symm.trans hd.apse)
    simp only [Vec3.scale_dot, hd.apse_dot_position, ← Vec3.norm_sq] at hdot
    rw [show (readOff r v mu).elements.eccentricity = -k * r.norm from he,
      show (readOff r v mu).elements.trueAnomaly = (readOff r v mu).trueAnomaly from rfl] at hdot
    have hne : k * r.norm ^ 2 ≠ 0 := mul_ne_zero hneg.ne (pow_ne_zero 2 hR.distance_pos.ne')
    exact mul_left_cancel₀ hne (by linear_combination hdot)
  have hν' : sin (readOff r v mu).trueAnomaly = 0 := by
    rw [← sq_eq_zero_iff, sin_sq, hν]
    norm_num
  obtain ⟨hc, hs⟩ := eccentricOfTrue_ratios hlow hlt (readOff r v mu).trueAnomaly
  rw [hν] at hc hs
  rw [hν', mul_zero] at hs
  have hf : 1 + (eccentricityVector r v mu).norm * -1 ≠ 0 := by linarith
  have hE : ((eccentricOfTrue (readOff r v mu).trueAnomaly (eccentricityVector r v mu).norm : ℝ) : Angle) =
      (π : ℝ) := by
    refine Angle.cos_sin_inj (mul_left_cancel₀ hf ?_) (mul_left_cancel₀ hf ?_)
    · rw [hc, cos_pi]
      ring
    · rw [hs, sin_pi, mul_zero]
  rw [meanAnomaly_readOff hlt, coe_mean_congr _ hE, sin_pi, mul_zero, sub_zero]

/-- From the far end of the ellipse half a revolution leads to the near one. -/
theorem norm_half_revolution {k dt : ℝ} (hk : eccentricityVector r v mu = Vec3.scale k r) (hneg : k < 0)
    (hdt : meanMotion (readOff r v mu).axis.toScalar mu * dt = π) (j2 : ℝ) :
    ((advanced (readOff r v mu) dt mu j2).toCartesian mu).1.norm =
      (readOff r v mu).axis.toScalar * (1 - (readOff r v mu).eccentricity) := by
  have hE := h.regular.elliptic_elements
  have h0 : 0 ≤ (readOff r v mu).eccentricity := hE.eccentricity_nonneg
  have h1 : (readOff r v mu).eccentricity < 1 := hE.eccentricity_lt
  -- half a turn and half a turn make a whole one, which the solver takes for none
  have hM : (((readOff r v mu).meanAnomaly + π : ℝ) : Angle) = (0 : ℝ) := by
    rw [Angle.coe_add, h.coe_meanAnomaly_of_far hk hneg, Angle.coe_pi_add_coe_pi, Angle.coe_zero]
  have hroot := cos_eq_of_coe_eq (coe_keplerRoot_congr (by linarith) h1 hM)
  rw [keplerRoot_zero (by linarith) h1, cos_zero] at hroot
  rw [h.norm_advanced, hdt, hroot, mul_one]

/-- **What a motion reaches** is on an inclined ellipse again, and the elements read off it are those advanced. -/
theorem reached (dt j2 : ℝ) {r₁ v₁ : Vec3 ℝ}
    (hm : (advanced (readOff r v mu) dt mu j2).toCartesian mu = (r₁, v₁)) (hr : 1e-12 ≤ r₁.norm) :
    Inclined r₁ v₁ mu ∧ (readOff r₁ v₁ mu).elements.SameUpToTurns (advanced (readOff r v mu) dt mu j2) := by
  have hR := h.regular
  have hE := h.advanced_elliptic dt j2
  have hd := hE.describes_toCartesian hR.mu_pos
  rw [hm] at hd
  have hh := h.norm_cross_advanced dt j2 hm
  have he : (eccentricityVector r₁ v₁ mu).norm = (eccentricityVector r v mu).norm :=
    hd.norm_eccentricityVector hE.eccentricity_nonneg
  have hz : (r₁.cross v₁).z = (r.cross v).z := by
    have h1 := congrArg Vec3.z hd.normal
    have h2 := congrArg Vec3.z hR.normal
    rw [hh] at h1
    exact h1.trans h2.symm
  have hn : (nodeVector r₁ v₁).norm = (nodeVector r v).norm := by
    rw [← sq_eq_sq₀ (Vec3.norm_nonneg _) (Vec3.norm_nonneg _), norm_nodeVector_sq, norm_nodeVector_sq, hh, hz]
  have hI : Inclined r₁ v₁ mu := by
    refine ⟨hR.mu_pos, ?_, hr, ?_, ?_, ?_⟩
    · rw [hh]
      exact h.momentum
    · rw [hn]
      exact h.node
    · rw [he]
      exact h.apse
    · rw [he]
      exact h.elliptic
  refine ⟨hI, hI.describes.unique hd hI.regular.distance_pos hI.regular.momentum_pos ?_ ?_ ?_ ?_⟩
  · exact pos_of_tolerance hI.apse
  · exact pos_of_tolerance h.apse
  · exact hI.regular.sin_inclination_pos hI.node
  · exact hR.sin_inclination_pos h.node

/-- **Advancing what was reached** is advancing for both times. -/
theorem advanced_reached (dt dt' j2 : ℝ) {r₁ v₁ : Vec3 ℝ}
    (hm : (advanced (readOff r v mu) dt mu j2).toCartesian mu = (r₁, v₁)) (hr : 1e-12 ≤ r₁.norm) :
    (advanced (readOff r₁ v₁ mu) dt' mu j2).SameUpToTurns (advanced (readOff r v mu) (dt + dt') mu j2) := by
  obtain ⟨hI, hs⟩ := h.reached dt j2 hm hr
  have haxis : (readOff r₁ v₁ mu).axis.toScalar = (readOff r v mu).axis.toScalar := hs.axis
  have hecc : (readOff r₁ v₁ mu).eccentricity = (readOff r v mu).eccentricity := hs.eccentricity
  have hrates := rates_congr haxis hecc hs.inclination mu j2
  -- the two times add up in the node, in the periapsis and in the mean anomaly, each up to whole turns
  refine ⟨haxis, hecc, hs.inclination, ?_, ?_, ?_⟩
  · have hnode : ((readOff r₁ v₁ mu).node : Angle) =
      ((readOff r v mu).node + nodeRate (readOff r v mu) mu j2 * dt : ℝ) := hs.node
    show ((_ + nodeRate _ mu j2 * dt' : ℝ) : Angle) = (_ + nodeRate _ mu j2 * (dt + dt') : ℝ)
    rw [hrates.1, Angle.coe_add, hnode, ← Angle.coe_add, mul_add, add_assoc]
  · have hperi : ((readOff r₁ v₁ mu).periapsis : Angle) =
      ((readOff r v mu).periapsis + periapsisRate (readOff r v mu) mu j2 * dt : ℝ) := hs.periapsis
    show ((_ + periapsisRate _ mu j2 * dt' : ℝ) : Angle) = (_ + periapsisRate _ mu j2 * (dt + dt') : ℝ)
    rw [hrates.2, Angle.coe_add, hperi, ← Angle.coe_add, mul_add, add_assoc]
  · have hlt : (readOff r v mu).eccentricity < 1 := h.regular.elliptic_elements.eccentricity_lt
    have hν := hs.trueAnomaly.trans (coe_anomalyAfter (Vec3.norm_nonneg _) hlt dt mu)
    have hM := coe_meanAnomaly_readOff hecc hlt hν
    exact congrArg _ (anomalyAfter_congr hecc (by
      rw [haxis, Angle.coe_add, hM, ← Angle.coe_add, mul_add, add_assoc]))

end Inclined

end Inclined

/-! ## One motion after another -/

section TwoMotions

/-- No time leaves a state where it is, and a second motion adds its time to that of the first, unless the state
between them is too close to the focus to be accepted. -/
def FlowsFrom (motion : Vec3 ℝ → Vec3 ℝ → ℝ → Except (Fault ℝ) (Vec3 ℝ × Vec3 ℝ)) (r v : Vec3 ℝ) : Prop :=
  motion r v 0 = .ok (r, v) ∧
    ∀ dt, ∃ r₁ v₁, motion r v dt = .ok (r₁, v₁) ∧ ∀ dt', motion r₁ v₁ dt' =
      if r₁.norm < 1e-12 then .error .degenerateState else motion r v (dt + dt')

theorem Inclined.flowsFrom (h : Inclined r v mu) (j2 : ℝ) :
    FlowsFrom (fun r v dt => j2MotionWith keplerRoot r v dt mu j2) r v := by
  have hok := h.boundElements_eq_readOff
  refine ⟨?_, fun dt => ?_⟩
  · show j2MotionWith keplerRoot r v 0 mu j2 = _
    rw [motion_zero hok, h.describes.toCartesian_eq h.mu_pos h.regular.distance_pos h.regular.momentum_pos
      h.regular.elliptic_elements]
  obtain ⟨⟨r₁, v₁⟩, hm⟩ : ∃ x, (advanced (readOff r v mu) dt mu j2).toCartesian mu = x := ⟨_, rfl⟩
  refine ⟨r₁, v₁, (j2Motion_of_ok hok dt j2).trans (congrArg _ hm), fun dt' => ?_⟩
  show j2MotionWith keplerRoot r₁ v₁ dt' mu j2 =
    if r₁.norm < 1e-12 then .error .degenerateState else j2MotionWith keplerRoot r v (dt + dt') mu j2
  split_ifs with hr
  · unfold j2MotionWith
    rw [boundElements_degenerate h.mu_pos hr]
    rfl
  · have hr' := not_lt.mp hr
    obtain ⟨hI, -⟩ := h.reached dt j2 hm hr'
    rw [j2Motion_of_ok hI.boundElements_eq_readOff, j2Motion_of_ok hok,
      (h.advanced_reached dt dt' j2 hm hr').toCartesian_eq mu]

/-- **Motion from an inclined ellipse is a flow**, with and without oblateness, as long as it does not stop
within the tolerance around the focus. -/
theorem motion_flow {o : Osculating ℝ} (h : boundElements r v mu = .ok o)
    (hnode : 1e-12 < (nodeVector r v).norm) (hapse : 1e-12 < o.eccentricity)
    (hell : o.eccentricity < 1 - 1e-10) :
    FlowsFrom (fun r v dt => keplerMotionWith keplerRoot r v dt mu) r v ∧
      ∀ j2, FlowsFrom (fun r v dt => j2MotionWith keplerRoot r v dt mu j2) r v := by
  obtain ⟨hmu, hh, hr, -, rfl⟩ := boundElements_eq_ok_iff.mp h
  have hI : Inclined r v mu := ⟨hmu, hh, hr, hnode, hapse, hell⟩
  refine ⟨?_, hI.flowsFrom⟩
  simp only [keplerMotion_eq_j2Motion]
  exact hI.flowsFrom 0

/-- An ellipse over the poles of the first axis. -/
theorem motion_flow_polar : ∃ o : Osculating ℝ, boundElements ⟨1, 0, 0⟩ ⟨0, 0, 5 / 4⟩ 1 = .ok o ∧
    FlowsFrom (fun r v dt => keplerMotionWith keplerRoot r v dt 1) ⟨1, 0, 0⟩ ⟨0, 0, 5 / 4⟩ ∧
    ∀ j2, FlowsFrom (fun r v dt => j2MotionWith keplerRoot r v dt 1 j2) ⟨1, 0, 0⟩ ⟨0, 0, 5 / 4⟩ := by
  obtain ⟨hr, -, hh, hn⟩ := norms_of_upward zero_lt_one (show (0 : ℝ) < 5 / 4 by norm_num)
  obtain ⟨hok, -, he⟩ := boundElements_at_apsis (r := ⟨1, 0, 0⟩) (v := ⟨0, 0, 5 / 4⟩) (k := 9 / 16)
    zero_lt_one (by norm_num [Vec3.dot_def]) (by rw [hr]; norm_num [Vec3.dot_def]) (by rw [hh]; norm_num)
    (by rw [hr]; norm_num) (by rw [hr]; norm_num)
  rw [hr] at he
  exact ⟨_, hok, motion_flow hok (by rw [hn]; norm_num) (by rw [he]; norm_num) (by rw [he]; norm_num)⟩

/-- From the far end of an ellipse that reaches within the tolerance, half a revolution leads to a state that is
not accepted. -/
theorem not_motion_flow_near_focus : ∃ o : Osculating ℝ, ∃ r₁ v₁,
    boundElements ⟨1.6e-12, 0, 0⟩ ⟨0, 0, 500000⟩ 1 = .ok o ∧
    1e-12 < (nodeVector ⟨1.6e-12, 0, 0⟩ ⟨0, 0, 500000⟩).norm ∧ o.eccentricity = 3 / 5 ∧
    keplerMotionWith keplerRoot ⟨1.6e-12, 0, 0⟩ ⟨0, 0, 500000⟩ (π * 1e-18) 1 = .ok (r₁, v₁) ∧
    keplerMotionWith keplerRoot r₁ v₁ (-(π * 1e-18)) 1 = .error .degenerateState ∧
    keplerMotionWith keplerRoot ⟨1.6e-12, 0, 0⟩ ⟨0, 0, 500000⟩ (π * 1e-18 + -(π * 1e-18)) 1 =
      .ok (⟨1.6e-12, 0, 0⟩, ⟨0, 0, 500000⟩) := by
  obtain ⟨hr, hv, hh, hn⟩ :=
    norms_of_upward (show (0 : ℝ) < 1.6e-12 by norm_num) (show (0 : ℝ) < 500000 by norm_num)
  obtain ⟨hok, hvec, he⟩ := boundElements_at_apsis (r := ⟨1.6e-12, 0, 0⟩) (v := ⟨0, 0, 500000⟩)
    (k := -375000000000) zero_lt_one (by norm_num [Vec3.dot_def]) (by rw [hr]; norm_num [Vec3.dot_def])
    (by rw [hh]; norm_num) (by rw [hr]; norm_num) (by rw [hr]; norm_num)
  rw [hr] at he
  have he' : (readOff ⟨1.6e-12, 0, 0⟩ ⟨0, 0, 500000⟩ (1 : ℝ)).eccentricity = 3 / 5 := by
    rw [he]
    norm_num
  have hI : Inclined ⟨1.6e-12, 0, 0⟩ ⟨0, 0, 500000⟩ (1 : ℝ) :=
    ⟨zero_lt_one, by rw [hh]; norm_num, by rw [hr]; norm_num, by rw [hn]; norm_num,
      lt_of_lt_of_eq (by norm_num) he'.symm, he'.trans_lt (by norm_num)⟩
  have ha : (readOff ⟨1.6e-12, 0, 0⟩ ⟨0, 0, 500000⟩ (1 : ℝ)).axis.toScalar = 1e-12 := by
    refine hI.regular.axis_eq.trans ?_
    rw [energy_eq, hr, hv]
    norm_num
  have hturn : meanMotion (readOff ⟨1.6e-12, 0, 0⟩ ⟨0, 0, 500000⟩ (1 : ℝ)).axis.toScalar 1 * (π * 1e-18) = π := by
    rw [ha]
    unfold meanMotion
    rw [Scalar.sqrt_real, Scalar.pow_real, show (1 : ℝ) / 1e-12 ^ 3 = 1e18 ^ 2 by norm_num, sqrt_sq (by norm_num)]
    norm_num
    ring
  have hnear := hI.norm_half_revolution hvec (by norm_num) hturn 0
  rw [ha, he'] at hnear
  obtain ⟨⟨r₁, v₁⟩, hm⟩ : ∃ x, (advanced (readOff ⟨1.6e-12, 0, 0⟩ ⟨0, 0, 500000⟩ (1 : ℝ))
    (π * 1e-18) 1 0).toCartesian 1 = x := ⟨_, rfl⟩
  rw [hm] at hnear
  obtain ⟨h0, -⟩ := hI.flowsFrom 0
  refine ⟨_, r₁, v₁, hok, by rw [hn]; norm_num, he', ?_, ?_, ?_⟩
  · rw [keplerMotion_eq_j2Motion, j2Motion_of_ok hok, hm]
  · unfold keplerMotionWith
    rw [boundElements_degenerate zero_lt_one (hnear.trans_lt (by norm_num))]
    rfl
  · rw [keplerMotion_eq_j2Motion, add_neg_cancel]
    exact h0

end TwoMotions

end OrbitFit
