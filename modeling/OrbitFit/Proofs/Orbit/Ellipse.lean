import OrbitFit.Proofs.Orbit.Plane

/-!
# OrbitFit.Proofs.Orbit.Ellipse — elements that describe a state

The perifocal frame of elements, and what it means that a position and a velocity lie on their ellipse.

* `Elements.Describes`: the elements have the energy, the plane, the eccentricity vector and the place on the
  orbit of the state.
* `Elements.describes_toCartesian`, `Elements.Describes.toCartesian_eq`: a state is the one that elements give
  if and only if they describe it.
* `Elements.Describes.unique`: a state on an inclined ellipse has one description, up to whole turns.
-/

open Real

namespace OrbitFit

open Osculating (eccentricityVector energy)
open Vec3 (scale)

/-! ## The eccentricity vector and the energy -/

theorem energy_eq (r v : Vec3 ℝ) (mu : ℝ) : energy r v mu = v.norm ^ 2 / 2 - mu / r.norm := by
  unfold energy
  rw [Scalar.pow_real, Scalar.two_real]

/-- At an end of its ellipse a body moves across its direction from the focus. -/
theorem eccentricityVector_of_dot_eq_zero {r v : Vec3 ℝ} {mu k : ℝ} (h : r.dot v = 0)
    (hk : v.dot v - mu / r.norm = mu * k) (hmu : mu ≠ 0) : eccentricityVector r v mu = scale k r := by
  unfold eccentricityVector
  rw [Scalar.pow_real, Vec3.norm_sq, hk, h]
  simp only [Vec3.scale_def, Vec3.sub_def, Vec3.divide_def, zero_mul, sub_zero, mul_assoc,
    mul_div_cancel_left₀ _ hmu]

/-- **Energy, angular momentum and eccentricity** are tied to each other, whatever the state. -/
theorem sq_eccentricity {r v : Vec3 ℝ} {mu : ℝ} (hmu : 0 < mu) (hr : 0 < r.norm) :
    mu ^ 2 * (eccentricityVector r v mu).norm ^ 2 = mu ^ 2 + 2 * energy r v mu * (r.cross v).norm ^ 2 := by
  have hmuE : scale mu (eccentricityVector r v mu) =
      scale (v.norm ^ 2 - mu / r.norm) r - scale (r.dot v) v := by
    unfold eccentricityVector
    rw [Scalar.pow_real, Vec3.scale_divide hmu.ne']
  have hdot : mu ^ 2 * (eccentricityVector r v mu).norm ^ 2 =
      (v.norm ^ 2 - mu / r.norm) ^ 2 * r.norm ^ 2
        - 2 * (v.norm ^ 2 - mu / r.norm) * r.dot v ^ 2 + r.dot v ^ 2 * v.norm ^ 2 := by
    have h := congrArg (fun u => Vec3.dot u u) hmuE
    simp only [Vec3.sub_dot_self, Vec3.scale_dot, Vec3.dot_scale, v.dot_comm r] at h
    rw [Vec3.norm_sq, Vec3.norm_sq r, Vec3.norm_sq v]
    rw [Vec3.norm_sq v] at h
    linear_combination h
  have hcross : (r.cross v).norm ^ 2 = r.norm ^ 2 * v.norm ^ 2 - r.dot v ^ 2 := by
    rw [Vec3.norm_sq, Vec3.norm_sq, Vec3.norm_sq, Vec3.cross_dot_cross]
  rw [hdot, hcross, energy_eq]
  field_simp
  ring

/-- The semi-major axis of an ellipse by its energy gives the semi-latus rectum by its angular momentum. -/
theorem axis_mul_eq {r v : Vec3 ℝ} {mu : ℝ} (hmu : 0 < mu) (hr : 0 < r.norm)
    (he : (eccentricityVector r v mu).norm ^ 2 < 1) :
    -mu / (2 * energy r v mu) * (1 - (eccentricityVector r v mu).norm ^ 2) = (r.cross v).norm ^ 2 / mu := by
  have hE := sq_eccentricity (v := v) hmu hr
  have hξ : 2 * energy r v mu ≠ 0 := by
    intro h0
    rw [h0] at hE
    nlinarith [mul_pos (pow_pos hmu 2) (sub_pos.mpr he)]
  rw [div_mul_eq_mul_div, div_eq_div_iff hξ hmu.ne']
  linear_combination hE

namespace Triad

variable {P Q W : Vec3 ℝ} (x y x' y' : ℝ)

/-- The eccentricity vector in coordinates, by the angular momentum. -/
theorem eccentricityVector_inPlane (T : Triad P Q W) {mu : ℝ} (hmu : 0 < mu) :
    eccentricityVector (inPlane P Q x y) (inPlane P Q x' y') mu =
      inPlane P Q (y' * (x * y' - y * x') / mu - x / (inPlane P Q x y).norm)
        (-x' * (x * y' - y * x') / mu - y / (inPlane P Q x y).norm) := by
  unfold eccentricityVector
  rw [Scalar.pow_real, Vec3.norm_sq, T.dot_inPlane, T.dot_inPlane]
  simp only [inPlane_def, Vec3.scale_def, Vec3.sub_def, Vec3.divide_def, Vec3.mk.injEq]
  refine ⟨?_, ?_, ?_⟩ <;> field_simp <;> ring

theorem energy_inPlane (T : Triad P Q W) (mu : ℝ) :
    energy (inPlane P Q x y) (inPlane P Q x' y') mu =
      (x' ^ 2 + y' ^ 2) / 2 - mu / (inPlane P Q x y).norm := by
  rw [energy_eq, Vec3.norm_sq, T.dot_inPlane, sq, sq]

/-- **What the angular momentum and the eccentricity vector say of the velocity**, in coordinates. -/
theorem momentum_mul_velocity (T : Triad P Q W) {r v : Vec3 ℝ} {mu e : ℝ} (hmu : 0 < mu)
    (hh : 0 < (r.cross v).norm) (hW : r.cross v = scale (r.cross v).norm W)
    (hP : eccentricityVector r v mu = scale e P) :
    (r.cross v).norm * P.dot v = mu * -(Q.dot r / r.norm) ∧
      (r.cross v).norm * Q.dot v = mu * (e + P.dot r / r.norm) ∧
      P.dot r * Q.dot v - Q.dot r * P.dot v = (r.cross v).norm := by
  obtain ⟨hWr, hWv⟩ := Vec3.dot_eq_zero_of_cross hW hh.ne'
  have hr := T.eq_inPlane hWr
  have hv := T.eq_inPlane hWv
  -- both vectors lie in the plane, where the two equations become linear in the components
  have hH := T.cross_inPlane (P.dot r) (Q.dot r) (P.dot v) (Q.dot v)
  have hE := T.eccentricityVector_inPlane (P.dot r) (Q.dot r) (P.dot v) (Q.dot v) hmu
  rw [← hr, ← hv] at hH hE
  have hH' : (r.cross v).norm = P.dot r * Q.dot v - Q.dot r * P.dot v := by
    have h := congrArg W.dot (hW.symm.trans hH)
    rwa [Vec3.dot_scale, Vec3.dot_scale, T.unit_normal, mul_one, mul_one] at h
  rw [hP, ← hH', ← inPlane_zero (Q := Q), T.inPlane_inj] at hE
  obtain ⟨h1, h2⟩ := hE
  rw [eq_sub_iff_add_eq, eq_div_iff hmu.ne'] at h1 h2
  refine ⟨?_, ?_, hH'.symm⟩ <;> linarith

end Triad

/-! ## The perifocal frame -/

namespace Elements

variable (o : Elements ℝ)

/-- The direction of the ascending node. -/
noncomputable def ascending : Vec3 ℝ := ⟨cos o.node, sin o.node, 0⟩

/-- The direction of the orbit a quarter of a turn after the ascending node. -/
noncomputable def culminating : Vec3 ℝ :=
  ⟨-sin o.node * cos o.inclination, cos o.node * cos o.inclination, sin o.inclination⟩

/-- The direction of the angular momentum. -/
noncomputable def normal : Vec3 ℝ := o.perifocal.transpose.row3

/-- The direction of the periapsis. -/
noncomputable def apse : Vec3 ℝ := o.perifocal.transpose.row1

/-- The direction of the orbit a quarter of a turn after the periapsis. -/
noncomputable def lateral : Vec3 ℝ := o.perifocal.transpose.row2

theorem normal_def :
    o.normal = ⟨sin o.node * sin o.inclination, -cos o.node * sin o.inclination, cos o.inclination⟩ := rfl

theorem apse_eq : o.apse = inPlane o.ascending o.culminating (cos o.periapsis) (sin o.periapsis) := by
  simp only [apse, perifocal, Mat3.transpose, ascending, culminating, Triad.inPlane_def, Vec3.mk.injEq,
    Scalar.cos_real, Scalar.sin_real]
  refine ⟨?_, ?_, ?_⟩ <;> ring

theorem lateral_eq : o.lateral = inPlane o.ascending o.culminating (-sin o.periapsis) (cos o.periapsis) := by
  simp only [lateral, perifocal, Mat3.transpose, ascending, culminating, Triad.inPlane_def, Vec3.mk.injEq,
    Scalar.cos_real, Scalar.sin_real]
  refine ⟨?_, ?_, ?_⟩ <;> ring

theorem triad_node : Triad o.ascending o.culminating o.normal := by
  have hΩ := cos_sq_add_sin_sq o.node
  have hi := cos_sq_add_sin_sq o.inclination
  refine ⟨?_, ?_, ?_, ?_⟩
  · simp only [ascending, Vec3.dot_def]
    linear_combination hΩ
  · simp only [culminating, Vec3.dot_def]
    linear_combination cos o.inclination ^ 2 * hΩ + hi
  · simp only [ascending, culminating, Vec3.dot_def]
    ring
  · simp only [ascending, culminating, normal_def, Vec3.cross_def, Vec3.mk.injEq]
    refine ⟨by ring, by ring, ?_⟩
    linear_combination cos o.inclination * hΩ

theorem triad : Triad o.apse o.lateral o.normal := by
  rw [apse_eq, lateral_eq]
  exact o.triad_node.rotate o.periapsis

theorem apply_perifocal (k c s : ℝ) :
    o.perifocal.apply (scale k ⟨c, s, 0⟩) = inPlane o.apse o.lateral (k * c) (k * s) := by
  simp only [Mat3.apply, apse, lateral, Mat3.transpose, Vec3.dot_def, Vec3.scale_def, Triad.inPlane_def,
    Vec3.mk.injEq]
  refine ⟨?_, ?_, ?_⟩ <;> ring

/-- The distance from the focus. -/
noncomputable def distance : ℝ := o.semiLatus / (1 + o.eccentricity * cos o.trueAnomaly)

theorem toCartesian_eq_inPlane (mu : ℝ) : o.toCartesian mu =
    (inPlane o.apse o.lateral (o.distance * cos o.trueAnomaly) (o.distance * sin o.trueAnomaly),
      inPlane o.apse o.lateral (√(mu / o.semiLatus) * -sin o.trueAnomaly)
        (√(mu / o.semiLatus) * (o.eccentricity + cos o.trueAnomaly))) := by
  unfold toCartesian vectors
  simp only [apply_perifocal, Scalar.one_real]
  rfl

theorem semiLatus_real : o.semiLatus = o.axis * (1 - o.eccentricity ^ 2) := by
  unfold semiLatus
  rw [Scalar.one_real, Scalar.pow_real]

/-- The elements of an ellipse. -/
structure Elliptic (o : Elements ℝ) : Prop where
  axis_pos : 0 < o.axis
  eccentricity_nonneg : 0 ≤ o.eccentricity
  eccentricity_lt : o.eccentricity < 1

namespace Elliptic

variable {o : Elements ℝ} (h : o.Elliptic)
include h

theorem semiLatus_pos : 0 < o.semiLatus := by
  have h1 := h.eccentricity_nonneg
  have h2 := h.eccentricity_lt
  rw [semiLatus_real]
  exact mul_pos h.axis_pos (by nlinarith)

theorem focal_pos : 0 < 1 + o.eccentricity * cos o.trueAnomaly :=
  one_add_mul_cos_pos (by linarith [h.eccentricity_nonneg]) h.eccentricity_lt _

theorem distance_pos : 0 < o.distance := div_pos h.semiLatus_pos h.focal_pos

theorem norm_toCartesian (mu : ℝ) : (o.toCartesian mu).1.norm = o.distance := by
  refine Vec3.norm_eq_of_sq h.distance_pos.le ?_
  rw [toCartesian_eq_inPlane, o.triad.dot_inPlane]
  linear_combination o.distance ^ 2 * cos_sq_add_sin_sq o.trueAnomaly

/-- The angular momentum is the square root of `mu` times the semi-latus rectum. -/
theorem cross_toCartesian {mu : ℝ} (hmu : 0 < mu) :
    (o.toCartesian mu).1.cross (o.toCartesian mu).2 = scale (√(mu * o.semiLatus)) o.normal := by
  have hp := h.semiLatus_pos
  have hroot : √(mu * o.semiLatus) = √(mu / o.semiLatus) * o.semiLatus := by
    rw [show mu * o.semiLatus = mu / o.semiLatus * o.semiLatus ^ 2 by field_simp,
      sqrt_mul (div_pos hmu hp).le, sqrt_sq hp.le]
  have hd : o.distance * (1 + o.eccentricity * cos o.trueAnomaly) = o.semiLatus :=
    div_mul_cancel₀ _ h.focal_pos.ne'
  rw [toCartesian_eq_inPlane, o.triad.cross_inPlane, hroot]
  congr 1
  linear_combination √(mu / o.semiLatus) * hd
    + o.distance * √(mu / o.semiLatus) * cos_sq_add_sin_sq o.trueAnomaly

theorem norm_cross_toCartesian {mu : ℝ} (hmu : 0 < mu) :
    ((o.toCartesian mu).1.cross (o.toCartesian mu).2).norm = √(mu * o.semiLatus) := by
  rw [h.cross_toCartesian hmu, Vec3.norm_scale (sqrt_nonneg _), o.triad.norm_normal, mul_one]

theorem momentum_pos {mu : ℝ} (hmu : 0 < mu) : 0 < √(mu * o.semiLatus) := sqrt_pos.mpr (mul_pos hmu h.semiLatus_pos)

theorem distance_mul : o.distance * (1 + o.eccentricity * cos o.trueAnomaly) = o.semiLatus :=
  div_mul_cancel₀ _ h.focal_pos.ne'

theorem sq_speed {mu : ℝ} (hmu : 0 < mu) : √(mu / o.semiLatus) ^ 2 * o.semiLatus = mu := by
  rw [sq_sqrt (div_pos hmu h.semiLatus_pos).le, div_mul_cancel₀ _ h.semiLatus_pos.ne']

theorem energy_toCartesian {mu : ℝ} (hmu : 0 < mu) :
    energy (o.toCartesian mu).1 (o.toCartesian mu).2 mu = -mu / (2 * o.axis) := by
  have hD := h.distance_pos
  have ha := h.axis_pos
  have hsp := h.sq_speed hmu
  have hd := h.distance_mul
  have hnorm := h.norm_toCartesian mu
  rw [toCartesian_eq_inPlane] at hnorm ⊢
  rw [o.triad.energy_inPlane, hnorm]
  have hcs := cos_sq_add_sin_sq o.trueAnomaly
  have h1 : mu / o.distance = √(mu / o.semiLatus) ^ 2 * (1 + o.eccentricity * cos o.trueAnomaly) := by
    rw [div_eq_iff hD.ne']
    linear_combination -hsp - √(mu / o.semiLatus) ^ 2 * hd
  have h2 : -mu / (2 * o.axis) = -(√(mu / o.semiLatus) ^ 2 * (1 - o.eccentricity ^ 2)) / 2 := by
    rw [div_eq_iff (by positivity)]
    linear_combination hsp - √(mu / o.semiLatus) ^ 2 * o.semiLatus_real
  rw [h1, h2]
  linear_combination √(mu / o.semiLatus) ^ 2 / 2 * hcs

theorem eccentricityVector_toCartesian {mu : ℝ} (hmu : 0 < mu) :
    eccentricityVector (o.toCartesian mu).1 (o.toCartesian mu).2 mu = scale o.eccentricity o.apse := by
  have hD := h.distance_pos
  have hsp := h.sq_speed hmu
  have hd := h.distance_mul
  have hnorm := h.norm_toCartesian mu
  rw [toCartesian_eq_inPlane] at hnorm ⊢
  have hcs := cos_sq_add_sin_sq o.trueAnomaly
  have hH : o.distance * cos o.trueAnomaly * (√(mu / o.semiLatus) * (o.eccentricity + cos o.trueAnomaly))
      - o.distance * sin o.trueAnomaly * (√(mu / o.semiLatus) * -sin o.trueAnomaly)
        = √(mu / o.semiLatus) * o.semiLatus := by
    linear_combination √(mu / o.semiLatus) * hd + o.distance * √(mu / o.semiLatus) * hcs
  rw [o.triad.eccentricityVector_inPlane _ _ _ _ hmu, hnorm, hH, mul_div_cancel_left₀ _ hD.ne',
    mul_div_cancel_left₀ _ hD.ne', ← Triad.inPlane_zero (Q := o.lateral), o.triad.inPlane_inj]
  constructor
  · rw [sub_eq_iff_eq_add, div_eq_iff hmu.ne']
    linear_combination (o.eccentricity + cos o.trueAnomaly) * hsp
  · rw [sub_eq_iff_eq_add, div_eq_iff hmu.ne']
    linear_combination sin o.trueAnomaly * hsp

end Elliptic

/-! ## Elements that describe a state -/

/-- Elements that have the energy, the plane, the eccentricity vector and the place of a state. -/
structure Describes (o : Elements ℝ) (r v : Vec3 ℝ) (mu : ℝ) : Prop where
  axis : o.axis = -mu / (2 * energy r v mu)
  apse : eccentricityVector r v mu = scale o.eccentricity o.apse
  normal : r.cross v = scale (r.cross v).norm o.normal
  position : r = inPlane o.apse o.lateral (r.norm * cos o.trueAnomaly) (r.norm * sin o.trueAnomaly)

/-- **The state of elements is described by them.** -/
theorem Elliptic.describes_toCartesian {o : Elements ℝ} (h : o.Elliptic) {mu : ℝ} (hmu : 0 < mu) :
    o.Describes (o.toCartesian mu).1 (o.toCartesian mu).2 mu := by
  have ha := h.axis_pos
  refine ⟨?_, h.eccentricityVector_toCartesian hmu, ?_, ?_⟩
  · rw [h.energy_toCartesian hmu]
    field_simp
  · rw [h.norm_cross_toCartesian hmu, h.cross_toCartesian hmu]
  · rw [h.norm_toCartesian mu, toCartesian_eq_inPlane]

namespace Describes

variable {o : Elements ℝ} {r v : Vec3 ℝ} {mu : ℝ} (hd : o.Describes r v mu)
include hd

theorem apse_dot_position : o.apse.dot r = r.norm * cos o.trueAnomaly := by
  conv_lhs => rw [hd.position, o.triad.dot_left]

theorem lateral_dot_position : o.lateral.dot r = r.norm * sin o.trueAnomaly := by
  conv_lhs => rw [hd.position, o.triad.dot_right]

theorem momentum_mul_velocity (hmu : 0 < mu) (hr : 0 < r.norm) (hh : 0 < (r.cross v).norm) :
    (r.cross v).norm * o.apse.dot v = mu * -sin o.trueAnomaly ∧
      (r.cross v).norm * o.lateral.dot v = mu * (o.eccentricity + cos o.trueAnomaly) ∧
      r.norm * (cos o.trueAnomaly * o.lateral.dot v - sin o.trueAnomaly * o.apse.dot v) = (r.cross v).norm := by
  have h := o.triad.momentum_mul_velocity hmu hh hd.normal hd.apse
  rw [hd.apse_dot_position, hd.lateral_dot_position, mul_div_cancel_left₀ _ hr.ne',
    mul_div_cancel_left₀ _ hr.ne'] at h
  exact ⟨h.1, h.2.1, by linarith [h.2.2]⟩

theorem velocity (hmu : 0 < mu) (hr : 0 < r.norm) (hh : 0 < (r.cross v).norm) :
    v = inPlane o.apse o.lateral (mu / (r.cross v).norm * -sin o.trueAnomaly)
      (mu / (r.cross v).norm * (o.eccentricity + cos o.trueAnomaly)) := by
  obtain ⟨h1, h2, -⟩ := hd.momentum_mul_velocity hmu hr hh
  have hv := o.triad.eq_inPlane (Vec3.dot_eq_zero_of_cross hd.normal hh.ne').2
  rw [div_mul_eq_mul_div, div_mul_eq_mul_div, ← h1, ← h2, mul_div_cancel_left₀ _ hh.ne',
    mul_div_cancel_left₀ _ hh.ne']
  exact hv

/-- The polar equation of the orbit. -/
theorem sq_momentum (hmu : 0 < mu) (hr : 0 < r.norm) (hh : 0 < (r.cross v).norm) :
    (r.cross v).norm ^ 2 = mu * (r.norm * (1 + o.eccentricity * cos o.trueAnomaly)) := by
  obtain ⟨h1, h2, h3⟩ := hd.momentum_mul_velocity hmu hr hh
  -- the three equations of the velocity, weighted by where the body is
  linear_combination -(r.cross v).norm * h3 + r.norm * cos o.trueAnomaly * h2
    - r.norm * sin o.trueAnomaly * h1 + mu * r.norm * cos_sq_add_sin_sq o.trueAnomaly

/-- The semi-latus rectum by the angular momentum. -/
theorem semiLatus_eq (hmu : 0 < mu) (hr : 0 < r.norm) (he : o.eccentricity ^ 2 < 1) :
    o.semiLatus = (r.cross v).norm ^ 2 / mu := by
  have hE : (eccentricityVector r v mu).norm ^ 2 = o.eccentricity ^ 2 := by
    rw [Vec3.norm_sq, hd.apse, Vec3.scale_dot, Vec3.dot_scale, o.triad.unit]
    ring
  rw [semiLatus_real, hd.axis, ← hE]
  exact axis_mul_eq hmu hr (hE.trans_lt he)

/-- **A described state is the one that the elements give.** -/
theorem toCartesian_eq (hmu : 0 < mu) (hr : 0 < r.norm) (hh : 0 < (r.cross v).norm) (he : o.Elliptic) :
    o.toCartesian mu = (r, v) := by
  have hlt : o.eccentricity ^ 2 < 1 := by nlinarith [he.eccentricity_nonneg, he.eccentricity_lt]
  have hp := hd.semiLatus_eq hmu hr hlt
  have hdist : o.distance = r.norm := by
    rw [distance, hp, hd.sq_momentum hmu hr hh, mul_div_cancel_left₀ _ hmu.ne',
      mul_div_cancel_right₀ _ he.focal_pos.ne']
  have hspeed : √(mu / o.semiLatus) = mu / (r.cross v).norm := by
    rw [hp, div_div_eq_mul_div, ← sq, ← div_pow, sqrt_sq (div_pos hmu hh).le]
  rw [toCartesian_eq_inPlane, hdist, hspeed, ← hd.position, ← hd.velocity hmu hr hh]

end Describes

/-! ## Elements up to whole turns -/

/-- The same elements, the angles up to whole turns. -/
structure SameUpToTurns (o o' : Elements ℝ) : Prop where
  axis : o.axis = o'.axis
  eccentricity : o.eccentricity = o'.eccentricity
  inclination : (o.inclination : Angle) = o'.inclination
  node : (o.node : Angle) = o'.node
  periapsis : (o.periapsis : Angle) = o'.periapsis
  trueAnomaly : (o.trueAnomaly : Angle) = o'.trueAnomaly

theorem SameUpToTurns.toCartesian_eq {o o' : Elements ℝ} (h : o.SameUpToTurns o') (mu : ℝ) :
    o.toCartesian mu = o'.toCartesian mu := by
  have hp : o.semiLatus = o'.semiLatus := by rw [semiLatus, semiLatus, h.axis, h.eccentricity]
  have hm : o.perifocal = o'.perifocal := by
    simp only [perifocal, Scalar.cos_real, Scalar.sin_real, cos_eq_of_coe_eq h.inclination,
      sin_eq_of_coe_eq h.inclination, cos_eq_of_coe_eq h.node, sin_eq_of_coe_eq h.node,
      cos_eq_of_coe_eq h.periapsis, sin_eq_of_coe_eq h.periapsis]
  simp only [toCartesian, vectors, Scalar.cos_real, Scalar.sin_real, hp, hm, h.eccentricity,
    cos_eq_of_coe_eq h.trueAnomaly, sin_eq_of_coe_eq h.trueAnomaly]

namespace Describes

variable {o o' : Elements ℝ} {r v : Vec3 ℝ} {mu : ℝ}

theorem norm_eccentricityVector (hd : o.Describes r v mu) (he : 0 ≤ o.eccentricity) :
    (eccentricityVector r v mu).norm = o.eccentricity := by
  rw [hd.apse, Vec3.norm_scale he, o.triad.norm_left, mul_one]

/-- **A state on an inclined ellipse has one description**, up to whole turns. -/
theorem unique (hd : o.Describes r v mu) (hd' : o'.Describes r v mu) (hr : 0 < r.norm)
    (hh : 0 < (r.cross v).norm) (he : 0 < o.eccentricity) (he' : 0 < o'.eccentricity)
    (hi : 0 < sin o.inclination) (hi' : 0 < sin o'.inclination) : o.SameUpToTurns o' := by
  have hecc : o.eccentricity = o'.eccentricity :=
    (hd.norm_eccentricityVector he.le).symm.trans (hd'.norm_eccentricityVector he'.le)
  -- the plane fixes the inclination and the node, and these the directions that the periapsis is counted from
  have hW : o.normal = o'.normal := (Vec3.scale_inj hh.ne').mp (hd.normal.symm.trans hd'.normal)
  rw [normal_def, normal_def, Vec3.mk.injEq] at hW
  obtain ⟨hW1, hW2, hci⟩ := hW
  have hsi : sin o.inclination = sin o'.inclination := by
    rw [← abs_of_pos hi, ← abs_of_pos hi', ← sq_eq_sq_iff_abs_eq_abs, sin_sq, sin_sq, hci]
  rw [← hsi] at hW1 hW2
  have hnode : (o.node : Angle) = o'.node :=
    Angle.cos_sin_inj (mul_right_cancel₀ hi.ne' (by linarith)) (mul_right_cancel₀ hi.ne' hW1)
  have hA : o.ascending = o'.ascending := by
    rw [ascending, ascending, cos_eq_of_coe_eq hnode, sin_eq_of_coe_eq hnode]
  have hB : o.culminating = o'.culminating := by
    rw [culminating, culminating, cos_eq_of_coe_eq hnode, sin_eq_of_coe_eq hnode, hci, hsi]
  -- the eccentricity vector fixes the periapsis
  have hP : o.apse = o'.apse := by
    refine (Vec3.scale_inj he.ne').mp (hd.apse.symm.trans ?_)
    rw [hecc]
    exact hd'.apse
  have hP' := hP
  rw [apse_eq, apse_eq, ← hA, ← hB, o.triad_node.inPlane_inj] at hP'
  have hperi : (o.periapsis : Angle) = o'.periapsis := Angle.cos_sin_inj hP'.1 hP'.2
  have hQ : o.lateral = o'.lateral := by
    rw [lateral_eq, lateral_eq, hA, hB, hP'.1, hP'.2]
  -- the position fixes the anomaly
  have hpos := hd.position.symm.trans hd'.position
  rw [← hP, ← hQ, o.triad.inPlane_inj] at hpos
  exact ⟨hd.axis.trans hd'.axis.symm, hecc, Angle.cos_sin_inj hci hsi, hnode, hperi,
    Angle.cos_sin_inj (mul_left_cancel₀ hr.ne' hpos.1) (mul_left_cancel₀ hr.ne' hpos.2)⟩

end Describes

end Elements

end OrbitFit
