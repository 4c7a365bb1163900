import OrbitFit.Proofs.Orbit.Ellipse

/-!
# OrbitFit.Proofs.Orbit.ReadOff — what the elements read off a state describe

The elements read off a state have its plane in every case.  They have its eccentricity vector wherever the
periapsis is counted from a node, and its place on the orbit wherever the true anomaly is counted in the
direction of motion.  An orbit in the equator has no node: its periapsis is set to zero, and on a circle its
true anomaly is counted eastward whichever way the body moves.

* `Bound`: the states on ellipses with a plane that is read off right; `Regular`: those outside all tolerance bands.
* `Regular.describes_iff`: on these the elements describe the state if and only if it is `Recoverable`.
* `Regular.toCartesian_eq_iff`: so the state comes back from its elements exactly then.
-/

open Real

namespace OrbitFit

open Osculating (eccentricityVector energy angleOf readOff)
open Vec3 (scale)

/-- The vector toward the ascending node that is as long as the equatorial angular momentum. -/
noncomputable def nodeVector (r v : Vec3 ℝ) : Vec3 ℝ := Vec3.cross ⟨0, 0, 1⟩ (r.cross v)

/-! ## States off the tolerance bands -/

/-- A state on an ellipse, with a node vector that is zero or clear of the tolerance. -/
structure Bound (r v : Vec3 ℝ) (mu : ℝ) : Prop where
  mu_pos : 0 < mu
  distance_pos : 0 < r.norm
  momentum_pos : 0 < (r.cross v).norm
  elliptic : (eccentricityVector r v mu).norm < 1 - 1e-10
  node_band : (nodeVector r v).norm = 0 ∨ 1e-12 < (nodeVector r v).norm

/-- A state on an ellipse, with a node vector and an eccentricity vector that are zero or clear of the
tolerances. -/
structure Regular (r v : Vec3 ℝ) (mu : ℝ) : Prop where
  mu_pos : 0 < mu
  distance_pos : 0 < r.norm
  momentum_pos : 0 < (r.cross v).norm
  elliptic : (eccentricityVector r v mu).norm < 1 - 1e-10
  apse_band : (eccentricityVector r v mu).norm = 0 ∨ 1e-12 < (eccentricityVector r v mu).norm
  node_band : (nodeVector r v).norm = 0 ∨ 1e-12 < (nodeVector r v).norm

theorem Regular.bound {r v : Vec3 ℝ} {mu : ℝ} (hR : Regular r v mu) : Bound r v mu :=
  ⟨hR.mu_pos, hR.distance_pos, hR.momentum_pos, hR.elliptic, hR.node_band⟩

theorem pos_of_tolerance {x : ℝ} (h : 1e-12 < x) : 0 < x := lt_trans (by norm_num) h

theorem pos_of_tolerance_le {x : ℝ} (h : 1e-12 ≤ x) : 0 < x := lt_of_lt_of_le (by norm_num) h

theorem not_tolerance {x : ℝ} (h : x = 0) : ¬ 1e-12 < x := by
  rw [h]
  norm_num

theorem ne_zero_of_tolerance {a : Vec3 ℝ} (h : 1e-12 < a.norm) : a ≠ 0 :=
  Vec3.norm_pos_iff.mp (pos_of_tolerance h)

/-! ## The plane of the orbit -/

section Plane

variable (r v : Vec3 ℝ)

theorem nodeVector_eq : nodeVector r v = ⟨-(r.cross v).y, (r.cross v).x, 0⟩ := by
  simp [nodeVector, Vec3.cross_def]

theorem norm_nodeVector_sq : (nodeVector r v).norm ^ 2 = (r.cross v).norm ^ 2 - (r.cross v).z ^ 2 := by
  rw [Vec3.norm_sq, Vec3.norm_sq, nodeVector_eq, Vec3.dot_def, Vec3.dot_def]
  ring

variable {r v} {mu : ℝ}

theorem cos_sin_inclination (mu : ℝ) (hh : 0 < (r.cross v).norm) :
    cos (readOff r v mu).elements.inclination = (r.cross v).z / (r.cross v).norm ∧
      sin (readOff r v mu).elements.inclination = (nodeVector r v).norm / (r.cross v).norm := by
  have hsq : (r.cross v).z ^ 2 + (nodeVector r v).norm ^ 2 = (r.cross v).norm ^ 2 := by
    rw [norm_nodeVector_sq]
    ring
  have hsign : false = true ↔ (nodeVector r v).norm < 0 := by
    simp [Vec3.norm_nonneg]
  have hi : (readOff r v mu).elements.inclination = angleOf ((r.cross v).z / (r.cross v).norm) false := rfl
  rw [hi]
  exact cos_sin_angleOf hh hsq hsign

theorem cos_sin_node (mu : ℝ) (hn : 1e-12 < (nodeVector r v).norm) :
    cos (readOff r v mu).elements.node = (nodeVector r v).x / (nodeVector r v).norm ∧
      sin (readOff r v mu).elements.node = (nodeVector r v).y / (nodeVector r v).norm := by
  have hsq : (nodeVector r v).x ^ 2 + (nodeVector r v).y ^ 2 = (nodeVector r v).norm ^ 2 := by
    rw [Vec3.norm_sq, Vec3.dot_def, nodeVector_eq]
    ring
  have hnode : (readOff r v mu).elements.node =
      angleOf ((nodeVector r v).x / (nodeVector r v).norm) (decide ((nodeVector r v).y < 0)) := if_pos hn
  rw [hnode]
  exact cos_sin_angleOf (pos_of_tolerance hn) hsq decide_eq_true_iff

theorem node_eq_zero (mu : ℝ) (hn : (nodeVector r v).norm = 0) : (readOff r v mu).elements.node = 0 :=
  if_neg (not_tolerance hn)

/-- **The elements have the plane of the state.** -/
theorem Bound.normal (hB : Bound r v mu) :
    r.cross v = scale (r.cross v).norm (readOff r v mu).elements.normal := by
  have hh := hB.momentum_pos
  obtain ⟨hci, hsi⟩ := cos_sin_inclination mu hh
  rw [Elements.normal_def, hci, hsi]
  rcases hB.node_band with hn | hn
  · have h0 := Vec3.norm_eq_zero.mp hn
    rw [nodeVector_eq, Vec3.zero_def, Vec3.mk.injEq] at h0
    rw [node_eq_zero mu hn, hn, Vec3.scale_def]
    ext
    · simpa using h0.2.1
    · simpa using h0.1
    · exact (mul_div_cancel₀ _ hh.ne').symm
  · have hpos := pos_of_tolerance hn
    obtain ⟨hc, hs⟩ := cos_sin_node mu hn
    have hx : (nodeVector r v).x = -(r.cross v).y := by rw [nodeVector_eq]
    have hy : (nodeVector r v).y = (r.cross v).x := by rw [nodeVector_eq]
    rw [hc, hs, hx, hy, Vec3.scale_def]
    ext
    · field_simp
    · field_simp
    · exact (mul_div_cancel₀ _ hh.ne').symm

theorem Regular.normal (hR : Regular r v mu) :
    r.cross v = scale (r.cross v).norm (readOff r v mu).elements.normal := hR.bound.normal

/-- The node vector points along the direction of the node. -/
theorem nodeVector_eq_scale (mu : ℝ) (hn : 1e-12 < (nodeVector r v).norm) :
    nodeVector r v = scale (nodeVector r v).norm (readOff r v mu).elements.ascending := by
  have hpos := pos_of_tolerance hn
  obtain ⟨hc, hs⟩ := cos_sin_node mu hn
  rw [Elements.ascending, hc, hs, Vec3.scale_def, mul_div_cancel₀ _ hpos.ne', mul_div_cancel₀ _ hpos.ne',
    mul_zero]
  ext
  · rfl
  · rfl
  · rw [nodeVector_eq]

/-- A vector in the plane of an orbit rises as its part a quarter of a turn after the node does. -/
theorem Elements.z_eq (o : Elements ℝ) {u : Vec3 ℝ} (hu : o.normal.dot u = 0) :
    u.z = sin o.inclination * o.culminating.dot u := by
  have h := congrArg Vec3.z (o.triad_node.eq_inPlane hu)
  rw [Triad.inPlane_def] at h
  rw [h]
  simp only [Elements.ascending, Elements.culminating]
  ring

end Plane

/-! ## The periapsis -/

section Apse

variable {r v : Vec3 ℝ} {mu : ℝ}

theorem dot_eccentricityVector (r v : Vec3 ℝ) (mu : ℝ) :
    (r.cross v).dot (eccentricityVector r v mu) = 0 := by
  simp only [eccentricityVector, Vec3.dot_def, Vec3.cross_def, Vec3.divide_def, Vec3.sub_def, Vec3.scale_def]
  ring

theorem periapsis_eq_zero (h : (nodeVector r v).norm = 0 ∨ (eccentricityVector r v mu).norm = 0) :
    (readOff r v mu).elements.periapsis = 0 := by
  refine if_neg (fun hboth : 1e-12 < (nodeVector r v).norm ∧ 1e-12 < (eccentricityVector r v mu).norm => ?_)
  rcases h with h | h
  · exact not_tolerance h hboth.1
  · exact not_tolerance h hboth.2

theorem apse_of_no_node (mu : ℝ) (hn : (nodeVector r v).norm = 0) :
    (readOff r v mu).elements.apse = ⟨1, 0, 0⟩ := by
  rw [Elements.apse_eq, periapsis_eq_zero (Or.inl hn), cos_zero, sin_zero, Triad.inPlane_one_zero,
    Elements.ascending, node_eq_zero mu hn, cos_zero, sin_zero]

namespace Regular

variable (hR : Regular r v mu)
include hR

theorem normal_dot_eccentricityVector :
    (readOff r v mu).elements.normal.dot (eccentricityVector r v mu) = 0 := by
  have h := dot_eccentricityVector r v mu
  rw [hR.normal, Vec3.scale_dot] at h
  exact (mul_eq_zero.mp h).resolve_left hR.momentum_pos.ne'

theorem sin_inclination_pos (hn : 1e-12 < (nodeVector r v).norm) :
    0 < sin (readOff r v mu).elements.inclination := by
  rw [(cos_sin_inclination mu hR.momentum_pos).2]
  exact div_pos (pos_of_tolerance hn) hR.momentum_pos

theorem sin_inclination_eq_zero (hn : (nodeVector r v).norm = 0) :
    sin (readOff r v mu).elements.inclination = 0 := by
  rw [(cos_sin_inclination mu hR.momentum_pos).2, hn, zero_div]

/-- **Off the equator the elements have the eccentricity vector of the state.** -/
theorem apse_of_node (hn : 1e-12 < (nodeVector r v).norm) (he : 1e-12 < (eccentricityVector r v mu).norm) :
    eccentricityVector r v mu =
      scale (eccentricityVector r v mu).norm (readOff r v mu).elements.apse := by
  have hnode := nodeVector_eq_scale mu hn
  set o := (readOff r v mu).elements
  set u := eccentricityVector r v mu
  have hw : o.normal.dot u = 0 := hR.normal_dot_eccentricityVector
  -- off the equator a vector of the plane climbs in the half turn behind the node
  have hsign : decide (u.z < 0) = true ↔ o.culminating.dot u < 0 := by
    rw [decide_eq_true_iff, o.z_eq hw, ← not_le, ← not_le, mul_nonneg_iff_of_pos_left (hR.sin_inclination_pos hn)]
  have hω : o.periapsis = angleOf (o.ascending.dot u / u.norm) (decide (u.z < 0)) := by
    have hif : o.periapsis =
        angleOf ((nodeVector r v).dot u / ((nodeVector r v).norm * u.norm)) (decide (u.z < 0)) :=
      if_pos ⟨hn, he⟩
    rw [hif, Vec3.dot_div_of_eq_scale hnode (pos_of_tolerance hn).ne']
  have h := o.triad_node.eq_of_angleOf hw (pos_of_tolerance he) hsign
  rwa [← hω, ← Triad.scale_inPlane, ← Elements.apse_eq] at h

theorem lateral_of_no_node (hn : (nodeVector r v).norm = 0) :
    (readOff r v mu).elements.lateral = ⟨0, (r.cross v).z / (r.cross v).norm, 0⟩ := by
  rw [Elements.lateral_eq, periapsis_eq_zero (Or.inl hn), cos_zero, sin_zero, neg_zero,
    Triad.inPlane_zero_one, Elements.culminating, node_eq_zero mu hn,
    (cos_sin_inclination mu hR.momentum_pos).1, hR.sin_inclination_eq_zero hn, cos_zero, sin_zero, neg_zero,
    zero_mul, one_mul]

/-- In the equator the periapsis is taken to lie on the first axis. -/
theorem apse_iff_of_equatorial (hn : (nodeVector r v).norm = 0) :
    eccentricityVector r v mu = scale (eccentricityVector r v mu).norm (readOff r v mu).elements.apse ↔
      eccentricityVector r v mu = 0 ∨
        (eccentricityVector r v mu).y = 0 ∧ 0 < (eccentricityVector r v mu).x := by
  have hz : (eccentricityVector r v mu).z = 0 := by
    rw [Elements.z_eq _ hR.normal_dot_eccentricityVector, hR.sin_inclination_eq_zero hn, zero_mul]
  rw [apse_of_no_node mu hn]
  set u := eccentricityVector r v mu
  constructor
  · intro h
    rw [Vec3.scale_def] at h
    have hx : u.x = u.norm := (congrArg Vec3.x h).trans (mul_one _)
    have hy : u.y = 0 := (congrArg Vec3.y h).trans (mul_zero _)
    rcases (Vec3.norm_nonneg u).lt_or_eq with hpos | h0
    · exact Or.inr ⟨hy, hx ▸ hpos⟩
    · exact Or.inl (Vec3.norm_eq_zero.mp h0.symm)
  · rintro (h0 | ⟨hy, hx⟩)
    · rw [Vec3.norm_eq_zero.mpr h0, Vec3.scale_def, h0]
      simp [Vec3.zero_def]
    · have hnorm : u.norm = u.x := Vec3.norm_eq_of_sq hx.le (by
        rw [Vec3.dot_def, hy, hz]
        ring)
      rw [hnorm, Vec3.scale_def]
      ext
      · exact (mul_one _).symm
      · exact hy.trans (mul_zero _).symm
      · exact hz.trans (mul_zero _).symm

end Regular

end Apse

/-! ## The place on the orbit -/

section Place

variable {r v : Vec3 ℝ} {mu : ℝ}

namespace Regular

variable (hR : Regular r v mu)
include hR

theorem normal_dot_position : (readOff r v mu).elements.normal.dot r = 0 :=
  (Vec3.dot_eq_zero_of_cross hR.normal hR.momentum_pos.ne').1

/-- A body climbs away from the focus in the half of the orbit that follows the periapsis. -/
theorem momentum_mul_dot
    (hP : eccentricityVector r v mu = scale (eccentricityVector r v mu).norm (readOff r v mu).elements.apse) :
    (r.cross v).norm * r.dot v =
      mu * (eccentricityVector r v mu).norm * (readOff r v mu).elements.lateral.dot r := by
  set o := (readOff r v mu).elements
  obtain ⟨h1, h2, -⟩ := o.triad.momentum_mul_velocity hR.mu_pos hR.momentum_pos hR.normal hP
  have hdot := o.triad.dot_inPlane (o.apse.dot r) (o.lateral.dot r) (o.apse.dot v) (o.lateral.dot v)
  rw [← o.triad.eq_inPlane hR.normal_dot_position,
    ← o.triad.eq_inPlane (Vec3.dot_eq_zero_of_cross hR.normal hR.momentum_pos.ne').2] at hdot
  rw [hdot]
  linear_combination o.apse.dot r * h1 + o.lateral.dot r * h2

/-- **Where the periapsis is right the place on the orbit is.** -/
theorem position_of_apse (he : 1e-12 < (eccentricityVector r v mu).norm)
    (hP : eccentricityVector r v mu = scale (eccentricityVector r v mu).norm (readOff r v mu).elements.apse) :
    r = inPlane (readOff r v mu).elements.apse (readOff r v mu).elements.lateral
      (r.norm * cos (readOff r v mu).elements.trueAnomaly)
      (r.norm * sin (readOff r v mu).elements.trueAnomaly) := by
  have hclimb := hR.momentum_mul_dot hP
  set o := (readOff r v mu).elements
  have hpos := pos_of_tolerance he
  -- the sign of the radial speed tells the two halves of the orbit apart
  have hsign : decide (r.dot v < 0) = true ↔ o.lateral.dot r < 0 := by
    rw [decide_eq_true_iff, ← not_le, ← not_le, ← mul_nonneg_iff_of_pos_left hR.momentum_pos, hclimb,
      mul_nonneg_iff_of_pos_left (mul_pos hR.mu_pos hpos)]
  have hν : o.trueAnomaly = angleOf (o.apse.dot r / r.norm) (decide (r.dot v < 0)) := by
    have hif : o.trueAnomaly = angleOf ((eccentricityVector r v mu).dot r /
        ((eccentricityVector r v mu).norm * r.norm)) (decide (r.dot v < 0)) := if_pos he
    rw [hif, Vec3.dot_div_of_eq_scale hP hpos.ne']
  rw [hν]
  exact o.triad.eq_of_angleOf hR.normal_dot_position hR.distance_pos hsign

/-- On an inclined circle the place is counted from the node. -/
theorem position_of_node (hn : 1e-12 < (nodeVector r v).norm) (he : (eccentricityVector r v mu).norm = 0) :
    r = inPlane (readOff r v mu).elements.apse (readOff r v mu).elements.lateral
      (r.norm * cos (readOff r v mu).elements.trueAnomaly)
      (r.norm * sin (readOff r v mu).elements.trueAnomaly) := by
  have hω := periapsis_eq_zero (Or.inr he : (nodeVector r v).norm = 0 ∨ _)
  have hrise := hR.sin_inclination_pos hn
  have hnode := nodeVector_eq_scale mu hn
  have hW := hR.normal_dot_position
  set o := (readOff r v mu).elements
  have hsign : decide (r.z < 0) = true ↔ o.culminating.dot r < 0 := by
    rw [decide_eq_true_iff, o.z_eq hW, ← not_le, ← not_le, mul_nonneg_iff_of_pos_left hrise]
  have hν : o.trueAnomaly = angleOf (o.ascending.dot r / r.norm) (decide (r.z < 0)) := by
    have hif : o.trueAnomaly = angleOf ((nodeVector r v).dot r / ((nodeVector r v).norm * r.norm))
        (decide (r.z < 0)) := (if_neg (not_tolerance he)).trans (if_pos hn)
    rw [hif, Vec3.dot_div_of_eq_scale hnode (pos_of_tolerance hn).ne']
  rw [Elements.apse_eq, Elements.lateral_eq, hω, cos_zero, sin_zero, neg_zero, Triad.inPlane_one_zero,
    Triad.inPlane_zero_one, hν]
  exact o.triad_node.eq_of_angleOf hW hR.distance_pos hsign

/-- On a circle in the equator the place is counted eastward, also when the body moves westward. -/
theorem position_iff_of_circle (hn : (nodeVector r v).norm = 0) (he : (eccentricityVector r v mu).norm = 0) :
    r = inPlane (readOff r v mu).elements.apse (readOff r v mu).elements.lateral
        (r.norm * cos (readOff r v mu).elements.trueAnomaly)
        (r.norm * sin (readOff r v mu).elements.trueAnomaly) ↔ 0 < (r.cross v).z ∨ r.y = 0 := by
  have hz : r.z = 0 := by
    rw [Elements.z_eq _ hR.normal_dot_position, hR.sin_inclination_eq_zero hn, zero_mul]
  have hQ := hR.lateral_of_no_node hn
  have hP := apse_of_no_node mu hn
  have hR0 := hR.distance_pos
  have hh := hR.momentum_pos
  set o := (readOff r v mu).elements
  have hν : o.trueAnomaly = angleOf (r.x / r.norm) (decide (r.y < 0)) :=
    (if_neg (not_tolerance he)).trans (if_neg (not_tolerance hn))
  have hplane : r.x ^ 2 + r.y ^ 2 = r.norm ^ 2 := by
    rw [Vec3.norm_sq, Vec3.dot_def, hz]
    ring
  obtain ⟨hc, hs⟩ := cos_sin_angleOf hR0 hplane (decide_eq_true_iff (p := r.y < 0))
  rw [hν, hc, hs, mul_div_cancel₀ _ hR0.ne', mul_div_cancel₀ _ hR0.ne', hP, hQ]
  have hsq := norm_nodeVector_sq r v
  rw [hn] at hsq
  have hvec : r = inPlane ⟨1, 0, 0⟩ ⟨0, (r.cross v).z / (r.cross v).norm, 0⟩ r.x r.y ↔
      r.y = r.y * ((r.cross v).z / (r.cross v).norm) := by
    rw [Triad.inPlane_def, Vec3.ext_iff]
    simp [hz]
  rw [hvec]
  constructor
  · intro h
    by_contra hnot
    push Not at hnot
    rw [← mul_div_assoc, eq_div_iff hh.ne'] at h
    have heq := mul_left_cancel₀ hnot.2 h
    linarith
  · rintro (hpos | h0)
    · have hone : (r.cross v).z = (r.cross v).norm := by nlinarith
      rw [hone, div_self hh.ne', mul_one]
    · rw [h0, zero_mul]

end Regular

end Place

/-! ## The states that come back -/

section Recoverable

/-- The orbit has a node, or its periapsis lies on the first axis, or it is a circle run eastward or left at a
point of the first axis. -/
def Recoverable (r v : Vec3 ℝ) (mu : ℝ) : Prop :=
  nodeVector r v ≠ 0 ∨
    ((eccentricityVector r v mu).y = 0 ∧ 0 < (eccentricityVector r v mu).x) ∨
    (eccentricityVector r v mu = 0 ∧ (0 < (r.cross v).z ∨ r.y = 0))

variable {r v : Vec3 ℝ} {mu : ℝ}

/-- The semi-major axis is read off the energy. -/
theorem axis_readOff_finite (he : (eccentricityVector r v mu).norm < 1 - 1e-10) :
    (readOff r v mu).axis = .finite (-mu / (2 * energy r v mu)) := by
  show Osculating.axisOf _ _ _ = _
  unfold Osculating.axisOf
  rw [if_pos, Scalar.two_real]
  rw [Scalar.one_real, Scalar.abs_real, lt_abs]
  exact Or.inl (by linarith)

/-- Next to the parabola it is given up. -/
theorem axis_readOff_infinite (hnear : 1 - 1e-10 ≤ (eccentricityVector r v mu).norm)
    (he : (eccentricityVector r v mu).norm < 1) : (readOff r v mu).axis = .infinite := by
  show Osculating.axisOf _ _ _ = _
  unfold Osculating.axisOf
  rw [if_neg]
  rw [Scalar.one_real, Scalar.abs_real, abs_of_pos (sub_pos.mpr he)]
  linarith

theorem axis_readOff (he : (eccentricityVector r v mu).norm < 1 - 1e-10) :
    (readOff r v mu).elements.axis = -mu / (2 * energy r v mu) := by
  show (readOff r v mu).axis.toScalar = _
  rw [axis_readOff_finite he]
  rfl

theorem energy_neg (hmu : 0 < mu) (hr : 0 < r.norm) (he : (eccentricityVector r v mu).norm < 1) :
    energy r v mu < 0 := by
  have h0 := Vec3.norm_nonneg (eccentricityVector r v mu)
  have hE := sq_eccentricity (v := v) hmu hr
  -- with an energy of zero or more the eccentricity would be one at least
  by_contra hge
  nlinarith [mul_nonneg (not_lt.mp hge) (sq_nonneg (r.cross v).norm),
    mul_pos (pow_pos hmu 2) (show 0 < 1 - (eccentricityVector r v mu).norm ^ 2 by nlinarith)]

/-- The elements read off a state that is not next to the parabola are those of an ellipse. -/
theorem elliptic_readOff (hmu : 0 < mu) (hr : 0 < r.norm) (he : (eccentricityVector r v mu).norm < 1 - 1e-10) :
    (readOff r v mu).elements.Elliptic := by
  have hlt : (eccentricityVector r v mu).norm < 1 := by linarith
  refine ⟨?_, Vec3.norm_nonneg (eccentricityVector r v mu), hlt⟩
  rw [axis_readOff he]
  exact div_pos_of_neg_of_neg (neg_lt_zero.mpr hmu) (by linarith [energy_neg hmu hr hlt])

/-- An ellipse stays one when it is turned, and when the body on it is moved. -/
theorem elliptic_moved {o : Osculating ℝ} (h : o.elements.Elliptic) (node periapsis trueAnomaly : ℝ) :
    (o.moved node periapsis trueAnomaly).Elliptic :=
  ⟨h.axis_pos, h.eccentricity_nonneg, h.eccentricity_lt⟩

namespace Bound

variable (hB : Bound r v mu)
include hB

theorem axis_eq : (readOff r v mu).elements.axis = -mu / (2 * energy r v mu) := axis_readOff hB.elliptic

theorem energy_neg : energy r v mu < 0 :=
  OrbitFit.energy_neg hB.mu_pos hB.distance_pos (by linarith [hB.elliptic])

theorem elliptic_elements : (readOff r v mu).elements.Elliptic :=
  elliptic_readOff hB.mu_pos hB.distance_pos hB.elliptic

end Bound

namespace Regular

variable (hR : Regular r v mu)
include hR

theorem axis_eq : (readOff r v mu).elements.axis = -mu / (2 * energy r v mu) := hR.bound.axis_eq

theorem elliptic_elements : (readOff r v mu).elements.Elliptic := hR.bound.elliptic_elements

/-- **The elements describe the state if and only if it is recoverable.** -/
theorem describes_iff : (readOff r v mu).elements.Describes r v mu ↔ Recoverable r v mu := by
  have happly : (readOff r v mu).elements.Describes r v mu ↔
      eccentricityVector r v mu = scale (eccentricityVector r v mu).norm (readOff r v mu).elements.apse ∧
        r = inPlane (readOff r v mu).elements.apse (readOff r v mu).elements.lateral
          (r.norm * cos (readOff r v mu).elements.trueAnomaly)
          (r.norm * sin (readOff r v mu).elements.trueAnomaly) :=
    ⟨fun h => ⟨h.apse, h.position⟩, fun h => ⟨hR.axis_eq, h.1, hR.normal, h.2⟩⟩
  rw [happly]
  unfold Recoverable
  -- in the equator, and off it; in either case without and with an eccentricity vector
  rcases hR.node_band with hn | hn
  · have hn0 := Vec3.norm_eq_zero.mp hn
    rw [hR.apse_iff_of_equatorial hn]
    rcases hR.apse_band with he | he
    · have he0 := Vec3.norm_eq_zero.mp he
      rw [hR.position_iff_of_circle hn he, he0]
      simp [hn0, Vec3.zero_def]
    · have he0 := ne_zero_of_tolerance he
      constructor
      · rintro ⟨h0 | hx, -⟩
        · exact absurd h0 he0
        · exact Or.inr (Or.inl hx)
      · rintro (h | hx | ⟨h0, -⟩)
        · exact absurd hn0 h
        · exact ⟨Or.inr hx, hR.position_of_apse he ((hR.apse_iff_of_equatorial hn).mpr (Or.inr hx))⟩
        · exact absurd h0 he0
  · refine iff_of_true ?_ (Or.inl (ne_zero_of_tolerance hn))
    rcases hR.apse_band with he | he
    · refine ⟨?_, hR.position_of_node hn he⟩
      rw [he, Vec3.norm_eq_zero.mp he, Vec3.scale_def]
      simp [Vec3.zero_def]
    · exact ⟨hR.apse_of_node hn he, hR.position_of_apse he (hR.apse_of_node hn he)⟩

/-- **The state comes back from its elements if and only if it is recoverable.** -/
theorem toCartesian_eq_iff : (readOff r v mu).elements.toCartesian mu = (r, v) ↔ Recoverable r v mu := by
  rw [← hR.describes_iff]
  constructor
  · intro h
    have hd := hR.elliptic_elements.describes_toCartesian hR.mu_pos
    rwa [h] at hd
  · intro hd
    exact hd.toCartesian_eq hR.mu_pos hR.distance_pos hR.momentum_pos hR.elliptic_elements

end Regular

end Recoverable

end OrbitFit
