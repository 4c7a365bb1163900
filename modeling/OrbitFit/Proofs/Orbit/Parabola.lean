import OrbitFit.Proofs.Orbit.Extended

/-!
# OrbitFit.Proofs.Orbit.Parabola — motion next to the parabola

Elements give up the semi-major axis within `1e-10` of the parabola, while a motion turns a state away on the
parabola and beyond it.  A bound state in between is accepted, and its motion goes on with an infinite axis.

* `boundElements_lift`: the states that are accepted, in arithmetic with infinities.
* `keplerMotion_lift`, `j2Motion_lift`: off the parabola a motion is that of exact arithmetic.
* `toCartesian_of_infinite`: on an axis without a size there is no position, and no velocity.
* `usable_iff_not_nextToParabola`: so the motions that can be used are those off the parabola.
-/

open Real

namespace OrbitFit

open Extended Osculating

/-! ## The states that are accepted -/

section Accepted

variable {r v : Vec3 ℝ} {mu : ℝ}

theorem boundElements_lift (r v : Vec3 ℝ) (mu : ℝ) : boundElements r.lift v.lift (finite mu) =
    if ¬ 0 < mu then .error (.gravitation (finite mu))
    else if (r.cross v).norm < 1e-12 ∨ r.norm < 1e-12 then .error .degenerateState
    else if 1 ≤ (eccentricityVector r v mu).norm then
      .error (.unboundOrbit (finite (eccentricityVector r v mu).norm))
    else .ok (readOff r v mu).lift := by
  by_cases hmu : 0 < mu
  swap
  · simp [boundElements, hmu]
  by_cases hdeg : (r.cross v).norm < 1e-12 ∨ r.norm < 1e-12
  · simp [boundElements, Osculating.ofCartesian, Vec3.cross_lift, Vec3.norm_lift, Vec3.isFinite_lift, hmu, hdeg, bind,
      Except.bind]
  have hh : 0 < (r.cross v).norm := pos_of_tolerance_le (not_lt.mp (not_or.mp hdeg).1)
  have hr : 0 < r.norm := pos_of_tolerance_le (not_lt.mp (not_or.mp hdeg).2)
  have hecc : (readOff r.lift v.lift (finite mu)).eccentricity = finite (eccentricityVector r v mu).norm :=
    (congrArg Vec3.norm (eccentricityVector_lift hmu.ne' hr.ne')).trans (Vec3.norm_lift _)
  have hchecks : boundElements r.lift v.lift (finite mu) =
      if 1 ≤ (eccentricityVector r v mu).norm then .error (.unboundOrbit (finite (eccentricityVector r v mu).norm))
      else .ok (readOff r.lift v.lift (finite mu)) := by
    simp [boundElements, Osculating.ofCartesian, Vec3.cross_lift, Vec3.norm_lift, Vec3.isFinite_lift, hmu, hdeg, bind,
      Except.bind, hecc, Scalar.one_real]
    rfl
  rw [hchecks, if_neg (not_not.mpr hmu), if_neg hdeg]
  split_ifs with he
  · rfl
  · rw [readOff_lift hmu hr hh (not_le.mp he)]

theorem boundElements_lift_of_ok {o : Osculating ℝ} (hb : boundElements r v mu = .ok o) :
    boundElements r.lift v.lift (finite mu) = .ok o.lift := by
  obtain ⟨hmu, hh, hr, he, rfl⟩ := boundElements_eq_ok_iff.mp hb
  rw [boundElements_lift, if_neg (not_not.mpr hmu), if_neg (not_or.mpr ⟨not_lt.mpr hh, not_lt.mpr hr⟩),
    if_neg (not_le.mpr he)]

end Accepted

/-! ## Motion by a rate and a factor -/

section Rates

variable {o : Osculating ℝ} {mu j2 a n k : ℝ}

theorem meanMotion_finite (ha : 0 < a) (hmu : 0 ≤ mu) : meanMotion (finite a) (finite mu) = finite (meanMotion a mu) := by
  unfold meanMotion
  rw [pow_finite, div_finite (pow_pos ha 3).ne', sqrt_finite (div_nonneg hmu (pow_pos ha 3).le)]
  rfl

theorem meanMotion_infinite (mu : ℝ) : meanMotion (infinite false) (finite mu) = finite 0 := by
  unfold meanMotion
  rw [pow_infinity three_ne_zero, div_infinite, sqrt_finite le_rfl, sqrt_zero]

/-- The true anomaly reached at a finite rate. -/
theorem anomalyAfter_finite (h1 : -1 < o.eccentricity) (h2 : o.eccentricity < 1)
    (hn : meanMotion o.lift.axis.toScalar (finite mu) = finite n) (dt : ℝ) :
    anomalyAfter eccentricAnomaly o.lift (finite dt) (finite mu) =
      finite (trueOfEccentric (eccentricAnomaly (Scalar.floorMod (o.meanAnomaly + n * dt) (2.0 * Scalar.pi))
        o.eccentricity) o.eccentricity) := by
  unfold anomalyAfter
  rw [hn, mul_finite]
  exact anomalyAt_finite h1 h2

/-- The node and the periapsis reached by a finite factor. -/
theorem turned_finite (hk : j2Factor o.lift (finite mu) (finite j2) = finite k) (dt : ℝ) :
    o.lift.node + nodeRate o.lift (finite mu) (finite j2) * finite dt =
        finite (o.node + k * Scalar.cos o.inclination * dt) ∧
      o.lift.periapsis + periapsisRate o.lift (finite mu) (finite j2) * finite dt =
        finite (o.periapsis + -k * (2.0 - 2.5 * Scalar.pow (Scalar.sin o.inclination) 2) * dt) := by
  unfold nodeRate periapsisRate
  rw [hk]
  simp only [Osculating.lift, cos_finite, sin_finite, pow_finite, ofScientific_eq, neg_finite, mul_finite, sub_finite,
    add_finite, Scalar.cos_real, Scalar.sin_real, Scalar.pow_real, and_self]

end Rates

/-! ## Off the parabola -/

section Far

variable {o : Osculating ℝ} {r v : Vec3 ℝ} {mu a : ℝ}

theorem j2Factor_lift (ho : o.axis = .finite a) (h : o.elements.Elliptic) (hmu : 0 ≤ mu) (j2 : ℝ) :
    j2Factor o.lift (finite mu) (finite j2) = finite (j2Factor o mu j2) := by
  have haxis : o.elements.axis = a := congrArg SemiMajorAxis.toScalar ho
  have ha : 0 < a := haxis ▸ h.axis_pos
  have hlatus : a * (1.0 - o.eccentricity ^ 2) ≠ 0 := by
    have hp : o.elements.axis * (1.0 - o.eccentricity ^ 2) ≠ 0 := h.semiLatus_pos.ne'
    rwa [haxis] at hp
  unfold j2Factor
  simp only [Osculating.lift, ho, SemiMajorAxis.lift, SemiMajorAxis.toScalar, earthRadius, ofScientific_eq, pow_finite,
    sub_finite, mul_finite, div_finite hlatus, meanMotion_finite ha hmu, neg_finite]
  rfl

variable (hb : boundElements r v mu = .ok o) (hfar : o.eccentricity < 1 - 1e-10)
include hb hfar

theorem exists_axis_elliptic :
    ∃ a, o.axis = .finite a ∧ a = -mu / (2 * energy r v mu) ∧ 0 < a ∧ o.elements.Elliptic := by
  obtain ⟨hmu, -, hr, -, rfl⟩ := boundElements_eq_ok_iff.mp hb
  have haxis := axis_readOff_finite hfar
  have hell := elliptic_readOff hmu (pos_of_tolerance_le hr) hfar
  exact ⟨_, haxis, rfl, axis_readOff hfar ▸ hell.axis_pos, hell⟩

theorem anomalyAfter_lift (dt : ℝ) : anomalyAfter eccentricAnomaly o.lift (finite dt) (finite mu) =
    finite (anomalyAfter eccentricAnomaly o dt mu) := by
  obtain ⟨a, ho, -, ha, hell⟩ := exists_axis_elliptic hb hfar
  have hmu := (boundElements_eq_ok_iff.mp hb).1
  have h0 := hell.eccentricity_nonneg
  have hn : meanMotion o.lift.axis.toScalar (finite mu) = finite (meanMotion o.axis.toScalar mu) := by
    simp only [Osculating.lift, ho, SemiMajorAxis.lift, SemiMajorAxis.toScalar, meanMotion_finite ha hmu.le]
  exact anomalyAfter_finite (lt_of_lt_of_le neg_one_lt_zero h0) hell.eccentricity_lt hn dt

/-- **Off the parabola a motion is that of exact arithmetic.** -/
theorem keplerMotion_lift (dt : ℝ) : ∃ p, keplerMotion r v dt mu = .ok p ∧
    keplerMotion r.lift v.lift (finite dt) (finite mu) = .ok (p.1.lift, p.2.lift) := by
  obtain ⟨a, ho, -, -, hell⟩ := exists_axis_elliptic hb hfar
  have hmu := (boundElements_eq_ok_iff.mp hb).1
  refine ⟨_, keplerMotionWith_of_ok hb eccentricAnomaly dt, ?_⟩
  unfold keplerMotion
  rw [keplerMotionWith_of_ok (boundElements_lift_of_ok hb), anomalyAfter_lift hb hfar]
  exact congrArg _ (toCartesian_lift o _ _ _ ho (elliptic_moved hell _ _ _) hmu.le)

theorem j2Motion_lift (dt j2 : ℝ) : ∃ p, j2Motion r v dt mu j2 = .ok p ∧
    j2Motion r.lift v.lift (finite dt) (finite mu) (finite j2) = .ok (p.1.lift, p.2.lift) := by
  obtain ⟨a, ho, -, -, hell⟩ := exists_axis_elliptic hb hfar
  have hmu := (boundElements_eq_ok_iff.mp hb).1
  obtain ⟨hnode, hperiapsis⟩ := turned_finite (j2Factor_lift ho hell hmu.le j2) dt
  refine ⟨_, j2MotionWith_of_ok hb eccentricAnomaly dt j2, ?_⟩
  unfold j2Motion
  rw [j2MotionWith_of_ok (boundElements_lift_of_ok hb), anomalyAfter_lift hb hfar, hnode, hperiapsis]
  exact congrArg _ (toCartesian_lift o _ _ _ ho (elliptic_moved hell _ _ _) hmu.le)

end Far

/-! ## Next to the parabola -/

section Near

variable {o : Osculating ℝ} {r v : Vec3 ℝ} {mu : ℝ}

theorem latus_of_infinite {e : ℝ} (h0 : 0 ≤ e) (h1 : e < 1) :
    infinite false * ((1.0 : Extended) - Scalar.pow (finite e) 2) = infinite false := by
  have hshare : (0 : ℝ) < 1.0 - e ^ 2 := by
    rw [Scalar.one_real]
    nlinarith
  exact infinite_mul hshare false

theorem dot_undefined (a : Vec3 Extended) (x y : Extended) : a.dot ⟨x, y, undefined⟩ = undefined := by
  unfold Vec3.dot
  rw [mul_undefined, add_undefined]

/-- **On an axis without a size** there is no position, and no velocity. -/
theorem toCartesian_of_infinite (ho : o.axis = .infinite) (h0 : 0 ≤ o.eccentricity) (h1 : o.eccentricity < 1)
    (node periapsis trueAnomaly mu : ℝ) :
    (o.lift.moved (finite node) (finite periapsis) (finite trueAnomaly)).toCartesian (finite mu) =
      (⟨undefined, undefined, undefined⟩, 0) := by
  have hlatus : (o.lift.moved (finite node) (finite periapsis) (finite trueAnomaly)).semiLatus = infinite false := by
    unfold Elements.semiLatus Osculating.moved Osculating.lift
    simp only [ho, SemiMajorAxis.lift, SemiMajorAxis.toScalar, infinity_eq, latus_of_infinite h0 h1]
  have hdistance : infinite false /
      (1.0 + (o.lift.moved (finite node) (finite periapsis) (finite trueAnomaly)).eccentricity *
        Scalar.cos (o.lift.moved (finite node) (finite periapsis) (finite trueAnomaly)).trueAnomaly) =
        infinite false := by
    have hfocal := one_add_mul_cos_pos (by linarith) h1 trueAnomaly
    rw [← Scalar.one_real] at hfocal
    exact infinite_div hfocal false
  unfold Elements.toCartesian Elements.vectors
  rw [hlatus, div_infinite, sqrt_finite le_rfl, sqrt_zero]
  simp only [hdistance]
  refine Prod.ext ?position ?velocity
  case position =>
    -- the third component of the place in the plane is zero times infinite
    unfold Vec3.scale Mat3.apply
    simp only [zero_eq, infinite_mul_zero, dot_undefined]
  case velocity =>
    refine (apply_perifocal_lift o node periapsis trueAnomaly
      (Vec3.scale 0 ⟨-sin trueAnomaly, o.eccentricity + cos trueAnomaly, 0⟩)).trans ?_
    simp only [Vec3.scale_def, zero_mul, Mat3.apply, Vec3.dot_def, mul_zero, add_zero]
    rfl

/-- **Next to the parabola** a motion goes nowhere. -/
theorem motion_near (hb : boundElements r v mu = .ok o) (hnear : 1 - 1e-10 ≤ o.eccentricity) (dt j2 : ℝ) :
    keplerMotion r.lift v.lift (finite dt) (finite mu) = .ok (⟨undefined, undefined, undefined⟩, 0) ∧
      j2Motion r.lift v.lift (finite dt) (finite mu) (finite j2) = .ok (⟨undefined, undefined, undefined⟩, 0) := by
  have hb' := boundElements_lift_of_ok hb
  obtain ⟨ho, h1⟩ : o.axis = .infinite ∧ o.eccentricity < 1 := by
    obtain ⟨-, -, -, he, rfl⟩ := boundElements_eq_ok_iff.mp hb
    exact ⟨axis_readOff_infinite hnear he, he⟩
  have h0 : 0 ≤ o.eccentricity := by linarith
  have hrate : meanMotion o.lift.axis.toScalar (finite mu) = finite 0 := by
    simp only [Osculating.lift, ho, SemiMajorAxis.lift, SemiMajorAxis.toScalar, infinity_eq, meanMotion_infinite]
  have hanomaly := anomalyAfter_finite (by linarith) h1 hrate dt
  have hfactor : j2Factor o.lift (finite mu) (finite j2) = finite 0 := by
    unfold j2Factor
    simp only [Osculating.lift, ho, SemiMajorAxis.lift, SemiMajorAxis.toScalar, infinity_eq, latus_of_infinite h0 h1,
      meanMotion_infinite]
    simp only [earthRadius, ofScientific_eq, div_infinite, pow_finite, neg_finite, mul_finite, mul_zero, zero_mul]
  obtain ⟨hnode, hperiapsis⟩ := turned_finite hfactor dt
  unfold keplerMotion j2Motion
  rw [keplerMotionWith_of_ok hb', j2MotionWith_of_ok hb', hanomaly, hnode, hperiapsis]
  exact ⟨congrArg _ (toCartesian_of_infinite ho h0 h1 _ _ _ _), congrArg _ (toCartesian_of_infinite ho h0 h1 _ _ _ _)⟩

end Near

/-! ## The motions that can be used -/

section Main

/-- A finite position and velocity, on an ellipse with the size by its energy and a semi-latus rectum. -/
structure OnEllipse (r v : Vec3 ℝ) (mu : ℝ) (p : Vec3 Extended × Vec3 Extended) : Prop where
  position_finite : p.1.isFinite = true
  velocity_finite : p.2.isFinite = true
  sized : ∃ o a latus, boundElements r.lift v.lift (finite mu) = .ok o ∧
    o.axis = .finite (finite a) ∧ a = -mu / (2 * (v.norm ^ 2 / 2 - mu / r.norm)) ∧ 0 < a ∧
    o.elements.semiLatus = finite latus ∧ 0 < latus

/-- A motion is turned away for its initial state, or leads to a place on its ellipse. -/
def Usable (r v : Vec3 ℝ) (mu : ℝ) : Except (Fault Extended) (Vec3 Extended × Vec3 Extended) → Prop
  | .error fault => fault.kind = .propagation
  | .ok p => OnEllipse r v mu p

/-- A state is accepted, with an eccentricity at which the semi-major axis is given up. -/
def NextToParabola (r v : Vec3 ℝ) (mu : ℝ) : Prop :=
  0 < mu ∧ 1e-12 ≤ r.norm ∧ 1e-12 ≤ (r.cross v).norm ∧
    1 - 1e-10 ≤ (eccentricityVector r v mu).norm ∧ (eccentricityVector r v mu).norm < 1

variable {r v : Vec3 ℝ} {mu : ℝ}

theorem nextToParabola_iff :
    NextToParabola r v mu ↔ ∃ o, boundElements r v mu = .ok o ∧ 1 - 1e-10 ≤ o.eccentricity := by
  constructor
  · rintro ⟨hmu, hr, hh, hnear, he⟩
    exact ⟨_, boundElements_eq_ok_iff.mpr ⟨hmu, hh, hr, he, rfl⟩, hnear⟩
  · rintro ⟨o, hb, hnear⟩
    obtain ⟨hmu, hh, hr, he, rfl⟩ := boundElements_eq_ok_iff.mp hb
    exact ⟨hmu, hr, hh, hnear, he⟩

/-- What is turned away is turned away in arithmetic with infinities. -/
theorem exists_error_lift {fault : Fault ℝ} (hb : boundElements r v mu = .error fault) :
    ∃ cause, boundElements r.lift v.lift (finite mu) = .error cause ∧ cause.kind = .propagation := by
  rw [boundElements_eq] at hb
  rw [boundElements_lift]
  split_ifs at hb ⊢ <;> exact ⟨_, rfl, rfl⟩

theorem not_usable_undefined (r v : Vec3 ℝ) (mu : ℝ) :
    ¬ Usable r v mu (.ok (⟨undefined, undefined, undefined⟩, 0)) := fun h => Bool.false_ne_true h.position_finite

theorem usable_of_far {o : Osculating ℝ} (hb : boundElements r v mu = .ok o) (hfar : o.eccentricity < 1 - 1e-10)
    (p : Vec3 ℝ × Vec3 ℝ) : Usable r v mu (.ok (p.1.lift, p.2.lift)) := by
  obtain ⟨a, ho, ha, hpos, hell⟩ := exists_axis_elliptic hb hfar
  rw [energy_eq] at ha
  exact ⟨rfl, rfl, o.lift, a, _, boundElements_lift_of_ok hb, congrArg SemiMajorAxis.lift ho, ha, hpos,
    semiLatus_lift o _ _ _ ho, hell.semiLatus_pos⟩

/-- **The motions of finite states that can be used** are those that do not start next to the parabola.  Next to it
the answer has an undefined position and no velocity. -/
theorem usable_iff_not_nextToParabola (r v : Vec3 ℝ) (dt mu j2 : ℝ) :
    (Usable r v mu (keplerMotion r.lift v.lift (finite dt) (finite mu)) ↔ ¬ NextToParabola r v mu) ∧
      (Usable r v mu (j2Motion r.lift v.lift (finite dt) (finite mu) (finite j2)) ↔ ¬ NextToParabola r v mu) ∧
      (NextToParabola r v mu →
        keplerMotion r.lift v.lift (finite dt) (finite mu) = .ok (⟨undefined, undefined, undefined⟩, 0) ∧
        j2Motion r.lift v.lift (finite dt) (finite mu) (finite j2) = .ok (⟨undefined, undefined, undefined⟩, 0)) := by
  rw [nextToParabola_iff]
  cases hb : boundElements r v mu with
  | error fault =>
    obtain ⟨cause, hcause, hkind⟩ := exists_error_lift hb
    obtain ⟨hkepler, hj2⟩ := motion_eq_error_iff eccentricAnomaly r.lift v.lift (finite dt) (finite mu) (finite j2) cause
    have hnot : ¬ ∃ o : Osculating ℝ, Except.error fault = Except.ok o ∧ 1 - 1e-10 ≤ o.eccentricity := nofun
    unfold keplerMotion j2Motion
    rw [hkepler.mpr hcause, hj2.mpr hcause]
    exact ⟨iff_of_true hkind hnot, iff_of_true hkind hnot, fun h => absurd h hnot⟩
  | ok o =>
    simp only [Except.ok.injEq, exists_eq_left']
    rcases lt_or_ge o.eccentricity (1 - 1e-10) with hfar | hnear
    · obtain ⟨p, -, hkepler⟩ := keplerMotion_lift hb hfar dt
      obtain ⟨q, -, hj2⟩ := j2Motion_lift hb hfar dt j2
      rw [hkepler, hj2]
      exact ⟨iff_of_true (usable_of_far hb hfar p) hfar.not_ge, iff_of_true (usable_of_far hb hfar q) hfar.not_ge,
        fun h => absurd h hfar.not_ge⟩
    · obtain ⟨hkepler, hj2⟩ := motion_near hb hnear dt j2
      have hnot := not_usable_undefined r v mu
      rw [hkepler, hj2]
      exact ⟨iff_of_false hnot (not_not.mpr hnear), iff_of_false hnot (not_not.mpr hnear), fun _ => ⟨rfl, rfl⟩⟩

/-- A body that crosses the first axis upward, just below the speed of escape, is on an ellipse; asked where it is in
no time, either motion loses it. -/
theorem not_usable_belowEscape :
    0 < -1 / (2 * (Vec3.norm ⟨0, 0, 1⟩ ^ 2 / 2 - 1 / Vec3.norm ⟨1.99999999996, 0, 0⟩ : ℝ)) ∧
      ¬ Usable ⟨1.99999999996, 0, 0⟩ ⟨0, 0, 1⟩ 1
        (keplerMotion (Vec3.lift ⟨1.99999999996, 0, 0⟩) (Vec3.lift ⟨0, 0, 1⟩) (finite 0) (finite 1)) ∧
      ¬ Usable ⟨1.99999999996, 0, 0⟩ ⟨0, 0, 1⟩ 1
        (j2Motion (Vec3.lift ⟨1.99999999996, 0, 0⟩) (Vec3.lift ⟨0, 0, 1⟩) (finite 0) (finite 1) (finite 0)) := by
  obtain ⟨hr, hv, hh, -⟩ := norms_of_upward (show (0 : ℝ) < 1.99999999996 by norm_num) zero_lt_one
  obtain ⟨hb, -, he⟩ := boundElements_at_apsis (r := ⟨1.99999999996, 0, 0⟩) (v := ⟨0, 0, 1⟩)
    (k := 1 - 1 / 1.99999999996) zero_lt_one (by norm_num [Vec3.dot_def]) (by rw [hr]; norm_num [Vec3.dot_def])
    (by rw [hh]; norm_num) (by rw [hr]; norm_num) (by rw [hr]; norm_num [abs_of_pos])
  have hnear : 1 - 1e-10 ≤ (readOff ⟨1.99999999996, 0, 0⟩ ⟨0, 0, 1⟩ (1 : ℝ)).eccentricity := by
    rw [he, hr]
    norm_num [abs_of_pos]
  obtain ⟨hkepler, hj2⟩ := motion_near hb hnear 0 0
  rw [hkepler, hj2, hv, hr]
  exact ⟨by norm_num, not_usable_undefined _ _ _, not_usable_undefined _ _ _⟩

end Main

end OrbitFit
