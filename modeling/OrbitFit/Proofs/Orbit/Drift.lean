import OrbitFit.Proofs.Orbit.Motion

/-!
# OrbitFit.Proofs.Orbit.Drift — oblateness as two rotations

Oblateness turns the node and the periapsis and leaves the rest of the elements alone.  More of the periapsis turns a
state about the normal of its orbit, and more of the node turns it about the axis of the Earth; so the motion along a
turning ellipse is that along the fixed one, turned twice.

* `Vec3.turned`: a vector turned about an axis, and what the turn keeps.
* `Elements.toCartesian_addPeriapsis`, `Elements.toCartesian_addNode`: elements turned are states turned.
* `Elements.rates_eq_zero_of_inclined`, `Elements.rates_cancel_of_equatorial`: the turns that no orbit shows.
* `j2Motion_eq_turned`: the two motions reject the same states, and one is the other turned.
-/

open Real

namespace OrbitFit

open Osculating (energy)
open Vec3 (scale)

/-! ## Turns about an axis -/

namespace Vec3

/-- A vector turned by an angle about the direction of another one, counterclockwise as seen from its tip. -/
noncomputable def turned (axis : Vec3 ℝ) (θ : ℝ) (a : Vec3 ℝ) : Vec3 ℝ :=
  scale (cos θ) a + scale (sin θ) ((axis.divide axis.norm).cross a)
    + scale ((1 - cos θ) * (axis.divide axis.norm).dot a) (axis.divide axis.norm)

/-- The axis of the Earth. -/
def polar : Vec3 ℝ := ⟨0, 0, 1⟩

variable {axis a b : Vec3 ℝ} {k : ℝ} (θ : ℝ)

theorem norm_polar : polar.norm = 1 := norm_eq_of_sq zero_le_one (by simp [polar, dot_def])

theorem polar_ne_zero : polar ≠ 0 := norm_pos_iff.mp (norm_polar ▸ zero_lt_one)

/-- Only the direction of the axis counts. -/
theorem turned_scale (hk : 0 < k) : turned (scale k axis) = turned axis := by
  have h : (scale k axis).divide (scale k axis).norm = axis.divide axis.norm := by
    rw [norm_scale hk.le]
    simp only [divide_def, scale_def, mul_div_mul_left _ _ hk.ne']
  unfold turned
  rw [h]

theorem turned_polar : turned polar θ a = ⟨cos θ * a.x - sin θ * a.y, sin θ * a.x + cos θ * a.y, a.z⟩ := by
  unfold turned
  rw [norm_polar, divide_one]
  simp only [polar, add_def, scale_def, cross_def, dot_def, Vec3.mk.injEq]
  refine ⟨?_, ?_, ?_⟩ <;> ring

/-- **A turn keeps products**, and with them lengths and angles. -/
theorem turned_dot_turned (h : axis ≠ 0) : (turned axis θ a).dot (turned axis θ b) = a.dot b := by
  have hw := unit_divide h
  have hθ := cos_sq_add_sin_sq θ
  unfold turned
  set w := axis.divide axis.norm
  simp only [dot_def, add_def, scale_def, cross_def] at hw ⊢
  linear_combination (a.x * b.x + a.y * b.y + a.z * b.z
      - (w.x * a.x + w.y * a.y + w.z * a.z) * (w.x * b.x + w.y * b.y + w.z * b.z)) * hθ
    + (sin θ ^ 2 * (a.x * b.x + a.y * b.y + a.z * b.z)
      + (1 - cos θ) ^ 2 * ((w.x * a.x + w.y * a.y + w.z * a.z) * (w.x * b.x + w.y * b.y + w.z * b.z))) * hw

theorem norm_turned (h : axis ≠ 0) : (turned axis θ a).norm = a.norm := by
  rw [norm_def, norm_def, turned_dot_turned θ h]

end Vec3

open Vec3 (turned polar)

/-- A combination across an axis is turned by turning what it is a combination of. -/
theorem Triad.turned_inPlane {P Q W : Vec3 ℝ} (T : Triad P Q W) (θ ξ η : ℝ) :
    turned W θ (inPlane P Q ξ η) =
      inPlane (inPlane P Q (cos θ) (sin θ)) (inPlane P Q (-sin θ) (cos θ)) ξ η := by
  have hcross : W.cross (inPlane P Q ξ η) = scale ξ Q - scale η P := by
    rw [← T.normal, Vec3.cross_cross, T.dot_left, T.dot_right]
  have hdot : W.dot (inPlane P Q ξ η) = 0 := by
    rw [← T.normal, Vec3.dot_comm, Triad.inPlane_dot, Vec3.dot_comm P, Vec3.dot_comm Q, Vec3.cross_dot_left,
      Vec3.cross_dot_right, mul_zero, mul_zero, add_zero]
  unfold turned
  rw [T.norm_normal, Vec3.divide_one, hcross, hdot]
  simp only [inPlane_def, Vec3.add_def, Vec3.scale_def, Vec3.sub_def, Vec3.mk.injEq]
  refine ⟨?_, ?_, ?_⟩ <;> ring

/-! ## Elements turned -/

namespace Elements

variable (o : Elements ℝ) (θ : ℝ)

/-- The elements with the periapsis further on. -/
noncomputable def addPeriapsis : Elements ℝ := { o with periapsis := o.periapsis + θ }

/-- The elements with the node further on. -/
noncomputable def addNode : Elements ℝ := { o with node := o.node + θ }

theorem apse_addPeriapsis : (o.addPeriapsis θ).apse = inPlane o.apse o.lateral (cos θ) (sin θ) := by
  rw [apse_eq, apse_eq, lateral_eq]
  simp only [addPeriapsis, ascending, culminating, Triad.inPlane_def, cos_add, sin_add, Vec3.mk.injEq]
  refine ⟨?_, ?_, ?_⟩ <;> ring

theorem lateral_addPeriapsis : (o.addPeriapsis θ).lateral = inPlane o.apse o.lateral (-sin θ) (cos θ) := by
  rw [lateral_eq, apse_eq, lateral_eq]
  simp only [addPeriapsis, ascending, culminating, Triad.inPlane_def, cos_add, sin_add, Vec3.mk.injEq]
  refine ⟨?_, ?_, ?_⟩ <;> ring

/-- **More of the periapsis turns a state about the normal of its orbit.** -/
theorem toCartesian_addPeriapsis (mu : ℝ) : (o.addPeriapsis θ).toCartesian mu =
    (turned o.normal θ (o.toCartesian mu).1, turned o.normal θ (o.toCartesian mu).2) := by
  rw [toCartesian_eq_inPlane, toCartesian_eq_inPlane, apse_addPeriapsis, lateral_addPeriapsis,
    o.triad.turned_inPlane, o.triad.turned_inPlane]
  rfl

theorem apse_addNode : (o.addNode θ).apse = turned polar θ o.apse := by
  rw [Vec3.turned_polar, apse_eq, apse_eq]
  simp only [addNode, ascending, culminating, Triad.inPlane_def, cos_add, sin_add, Vec3.mk.injEq, and_true]
  constructor <;> ring

theorem lateral_addNode : (o.addNode θ).lateral = turned polar θ o.lateral := by
  rw [Vec3.turned_polar, lateral_eq, lateral_eq]
  simp only [addNode, ascending, culminating, Triad.inPlane_def, cos_add, sin_add, Vec3.mk.injEq, and_true]
  constructor <;> ring

theorem inPlane_turned_polar (P Q : Vec3 ℝ) (ξ η : ℝ) :
    inPlane (turned polar θ P) (turned polar θ Q) ξ η = turned polar θ (inPlane P Q ξ η) := by
  simp only [Vec3.turned_polar, Triad.inPlane_def, Vec3.mk.injEq, and_true]
  constructor <;> ring

/-- **More of the node turns a state about the axis of the Earth.** -/
theorem toCartesian_addNode (mu : ℝ) : (o.addNode θ).toCartesian mu =
    (turned polar θ (o.toCartesian mu).1, turned polar θ (o.toCartesian mu).2) := by
  rw [toCartesian_eq_inPlane, toCartesian_eq_inPlane, apse_addNode, lateral_addNode, inPlane_turned_polar,
    inPlane_turned_polar]
  rfl

/-- The elements whose periapsis and node have turned at even rates for some time. -/
noncomputable def drifted (o : Elements ℝ) (nodeRate periapsisRate t : ℝ) : Elements ℝ :=
  (o.addPeriapsis (periapsisRate * t)).addNode (nodeRate * t)

theorem toCartesian_drifted (α β t mu : ℝ) : (o.drifted α β t).toCartesian mu =
    (turned polar (α * t) (turned o.normal (β * t) (o.toCartesian mu).1),
      turned polar (α * t) (turned o.normal (β * t) (o.toCartesian mu).2)) := by
  rw [drifted, toCartesian_addNode, toCartesian_addPeriapsis]

end Elements

/-! ## Turns that leave an orbit where it is -/

section Fixed

/-- Only no rate at all turns by whole turns in any time. -/
theorem eq_zero_of_coe_mul {rate : ℝ} (h : ∀ t : ℝ, ((rate * t : ℝ) : Angle) = 0) : rate = 0 := by
  by_contra hne
  have hπ := h (π / rate)
  rw [mul_div_cancel₀ _ hne] at hπ
  exact Angle.pi_ne_zero hπ

theorem eq_zero_of_coe_add_mul (x : ℝ) {rate : ℝ} (h : ∀ t : ℝ, ((x + rate * t : ℝ) : Angle) = x) : rate = 0 :=
  eq_zero_of_coe_mul fun t => by simpa using h t

/-- Two independent combinations of two vectors fix the vectors. -/
theorem inPlane_left_cancel {P Q P' Q' : Vec3 ℝ} {ξ η ξ' η' : ℝ} (hD : ξ * η' - η * ξ' ≠ 0)
    (h : inPlane P Q ξ η = inPlane P' Q' ξ η) (h' : inPlane P Q ξ' η' = inPlane P' Q' ξ' η') :
    P = P' ∧ Q = Q' := by
  simp only [Triad.inPlane_def, Vec3.mk.injEq] at h h'
  obtain ⟨hx, hy, hz⟩ := h
  obtain ⟨hx', hy', hz'⟩ := h'
  constructor
  · ext <;> apply mul_left_cancel₀ hD
    · linear_combination η' * hx - η * hx'
    · linear_combination η' * hy - η * hy'
    · linear_combination η' * hz - η * hz'
  · ext <;> apply mul_left_cancel₀ hD
    · linear_combination ξ * hx' - ξ' * hx
    · linear_combination ξ * hy' - ξ' * hy
    · linear_combination ξ * hz' - ξ' * hz

namespace Elements

variable {o : Elements ℝ}

/-- The state of an ellipse fixes its perifocal frame. -/
theorem Elliptic.frame_eq {o' : Elements ℝ} {mu : ℝ} (h : o.Elliptic) (hmu : 0 < mu)
    (hstate : o'.toCartesian mu = o.toCartesian mu) (ha : o'.axis = o.axis)
    (he : o'.eccentricity = o.eccentricity) (hν : o'.trueAnomaly = o.trueAnomaly) :
    o'.apse = o.apse ∧ o'.lateral = o.lateral := by
  have hp : o'.semiLatus = o.semiLatus := by rw [semiLatus, semiLatus, ha, he]
  have hd : o'.distance = o.distance := by rw [distance, distance, hp, he, hν]
  rw [toCartesian_eq_inPlane, toCartesian_eq_inPlane, hp, hd, he, hν, Prod.mk.injEq] at hstate
  refine inPlane_left_cancel ?_ hstate.1 hstate.2
  have hk : 0 < √(mu / o.semiLatus) := sqrt_pos.mpr (div_pos hmu h.semiLatus_pos)
  have hpos := mul_pos (mul_pos h.distance_pos hk) h.focal_pos
  refine ne_of_gt (hpos.trans_eq ?_)
  linear_combination -(o.distance * √(mu / o.semiLatus)) * cos_sq_add_sin_sq o.trueAnomaly

/-- Off the equator an orbit stays where it is only if nothing turns. -/
theorem rates_eq_zero_of_inclined {α β : ℝ} (hi : sin o.inclination ≠ 0)
    (h : ∀ t, (o.drifted α β t).apse = o.apse ∧ (o.drifted α β t).lateral = o.lateral) : α = 0 ∧ β = 0 := by
  constructor
  · refine eq_zero_of_coe_add_mul o.node fun t => ?_
    have hW : (o.drifted α β t).normal = o.normal := by
      rw [← (o.drifted α β t).triad.normal, ← o.triad.normal, (h t).1, (h t).2]
    rw [normal_def, normal_def, Vec3.mk.injEq] at hW
    obtain ⟨hsin, hcos, -⟩ := hW
    refine Angle.cos_sin_inj (mul_right_cancel₀ hi ?_) (mul_right_cancel₀ hi hsin)
    rw [neg_mul, neg_mul] at hcos
    exact neg_inj.mp hcos
  · refine eq_zero_of_coe_add_mul o.periapsis fun t => ?_
    have hP := congrArg Vec3.z (h t).1
    have hQ := congrArg Vec3.z (h t).2
    exact Angle.cos_sin_inj (mul_right_cancel₀ hi hQ) (mul_right_cancel₀ hi hP)

/-- In the equator the periapsis is counted on from the node, in the sense in which the body moves. -/
theorem apse_of_equatorial (hi : sin o.inclination = 0) : o.apse =
    ⟨cos (o.node + cos o.inclination * o.periapsis), sin (o.node + cos o.inclination * o.periapsis), 0⟩ := by
  rw [apse_eq]
  simp only [ascending, culminating, Triad.inPlane_def, hi, mul_zero, add_zero]
  rcases sin_eq_zero_iff_cos_eq.mp hi with hc | hc
  · rw [hc, one_mul, cos_add, sin_add]
    ext <;> ring
  · rw [hc, neg_one_mul, ← sub_eq_add_neg, cos_sub, sin_sub]
    ext <;> ring

/-- In the equator the two turns have one axis, and have to undo each other. -/
theorem rates_cancel_of_equatorial {α β : ℝ} (hi : sin o.inclination = 0)
    (h : ∀ t, (o.drifted α β t).apse = o.apse) : α + cos o.inclination * β = 0 := by
  refine eq_zero_of_coe_add_mul (o.node + cos o.inclination * o.periapsis) fun t => ?_
  have hP := h t
  rw [apse_of_equatorial hi, apse_of_equatorial (o := o.drifted α β t) hi, Vec3.mk.injEq] at hP
  have hsum : o.node + cos o.inclination * o.periapsis + (α + cos o.inclination * β) * t =
      o.node + α * t + cos o.inclination * (o.periapsis + β * t) := by ring
  rw [hsum]
  exact Angle.cos_sin_inj hP.1 hP.2.1

end Elements

end Fixed

/-! ## The two motions -/

section Motions

variable {r v : Vec3 ℝ} {mu : ℝ}

/-- What a state keeps when its orbit is turned about the axis of the Earth and in its plane. -/
structure SameShape (r v r' v' : Vec3 ℝ) (mu : ℝ) : Prop where
  distance : r'.norm = r.norm
  speed : v'.norm = v.norm
  climb : r'.dot v' = r.dot v
  energy : energy r' v' mu = energy r v mu
  momentum : (r'.cross v').norm = (r.cross v).norm
  polar : (r'.cross v').z = (r.cross v).z

theorem Elements.Elliptic.sameShape_drifted {o : Elements ℝ} (h : o.Elliptic) (hmu : 0 < mu) (α β t : ℝ) :
    SameShape (o.toCartesian mu).1 (o.toCartesian mu).2 ((o.drifted α β t).toCartesian mu).1
      ((o.drifted α β t).toCartesian mu).2 mu := by
  have h' : (o.drifted α β t).Elliptic := ⟨h.axis_pos, h.eccentricity_nonneg, h.eccentricity_lt⟩
  have hW : o.normal ≠ 0 := Vec3.norm_pos_iff.mp (o.triad.norm_normal ▸ zero_lt_one)
  have hz := Vec3.polar_ne_zero
  have hr : ((o.drifted α β t).toCartesian mu).1.norm = (o.toCartesian mu).1.norm := by
    rw [Elements.toCartesian_drifted, Vec3.norm_turned _ hz, Vec3.norm_turned _ hW]
  have hv : ((o.drifted α β t).toCartesian mu).2.norm = (o.toCartesian mu).2.norm := by
    rw [Elements.toCartesian_drifted, Vec3.norm_turned _ hz, Vec3.norm_turned _ hW]
  refine ⟨hr, hv, ?_, ?_, ?_, ?_⟩
  · rw [Elements.toCartesian_drifted, Vec3.turned_dot_turned _ hz, Vec3.turned_dot_turned _ hW]
  · rw [energy_eq, energy_eq, hr, hv]
  · rw [h'.norm_cross_toCartesian hmu, h.norm_cross_toCartesian hmu]
    rfl
  · rw [h'.cross_toCartesian hmu, h.cross_toCartesian hmu]
    rfl

/-- The state of drifted elements is the state of the elements, turned about its angular momentum and then about the
axis of the Earth. -/
theorem Elements.Elliptic.eq_turned {o : Elements ℝ} (h : o.Elliptic) (hmu : 0 < mu) {α β t : ℝ}
    {r₁ v₁ r₂ v₂ : Vec3 ℝ} (h₁ : o.toCartesian mu = (r₁, v₁)) (h₂ : (o.drifted α β t).toCartesian mu = (r₂, v₂)) :
    r₁.cross v₁ ≠ 0 ∧ r₂ = turned polar (α * t) (turned (r₁.cross v₁) (β * t) r₁) ∧
      v₂ = turned polar (α * t) (turned (r₁.cross v₁) (β * t) v₁) := by
  have hcross := h.cross_toCartesian hmu
  have hnorm := h.norm_cross_toCartesian hmu
  have hpos := h.momentum_pos hmu
  rw [h₁] at hcross hnorm
  rw [Elements.toCartesian_drifted, h₁, Prod.mk.injEq] at h₂
  dsimp only at hcross hnorm h₂
  refine ⟨Vec3.norm_pos_iff.mp (hnorm ▸ hpos), ?_⟩
  rw [hcross, Vec3.turned_scale hpos]
  exact ⟨h₂.1.symm, h₂.2.symm⟩

theorem j2Factor_eq_zero {o : Osculating ℝ} (h : o.elements.Elliptic) (hmu : 0 < mu) {j2 : ℝ}
    (h0 : j2Factor o mu j2 = 0) : j2 = 0 := by
  have ha : 0 < o.axis.toScalar := h.axis_pos
  have hp : 0 < o.axis.toScalar * (1 - o.eccentricity ^ 2) := by
    have hlatus := h.semiLatus_pos
    rwa [Elements.semiLatus_real] at hlatus
  have hn : 0 < √(mu / o.axis.toScalar ^ 3) := sqrt_pos.mpr (by positivity)
  unfold j2Factor meanMotion earthRadius at h0
  simp only [Scalar.one_real, Scalar.pow_real, Scalar.sqrt_real] at h0
  have hR : (6378137.0 / (o.axis.toScalar * (1 - o.eccentricity ^ 2)) : ℝ) ^ 2 ≠ 0 := by positivity
  simpa [hn.ne', hR, show (1.5 : ℝ) ≠ 0 by norm_num] using h0

/-- Two turns at the rates of oblateness never undo each other. -/
theorem factor_eq_zero {factor i : ℝ} (h : (sin i ≠ 0 → factor * cos i = 0 ∧ -factor * (2 - 2.5 * sin i ^ 2) = 0))
    (h' : sin i = 0 → factor * cos i + cos i * (-factor * (2 - 2.5 * sin i ^ 2)) = 0) : factor = 0 := by
  by_contra hne
  by_cases hi : sin i = 0
  · have hsum := h' hi
    have hc : cos i ≠ 0 := fun h0 => by simpa [hi, h0] using sin_sq_add_cos_sq i
    rw [hi] at hsum
    exact mul_ne_zero hne hc (by linear_combination -hsum)
  · obtain ⟨hnode, hperi⟩ := h hi
    have hc : cos i = 0 := (mul_eq_zero.mp hnode).resolve_left hne
    rw [sin_sq, hc] at hperi
    exact hne (by linear_combination 2 * hperi)

theorem motions_error_iff (solve : ℝ → ℝ → ℝ) (r v : Vec3 ℝ) (dt mu j2 : ℝ) (fault : Fault ℝ) :
    keplerMotionWith solve r v dt mu = .error fault ↔ j2MotionWith solve r v dt mu j2 = .error fault := by
  obtain ⟨hkepler, hj2⟩ := motion_eq_error_iff solve r v dt mu j2 fault
  exact hkepler.trans hj2.symm

/-- The elements that a turning ellipse is left with are those of the fixed one, turned. -/
theorem moved_eq_drifted (o : Osculating ℝ) (dt mu j2 trueAnomaly : ℝ) :
    o.moved (o.node + nodeRate o mu j2 * dt) (o.periapsis + periapsisRate o mu j2 * dt) trueAnomaly =
      (o.moved o.node o.periapsis trueAnomaly).drifted (nodeRate o mu j2) (periapsisRate o mu j2) dt := rfl

/-- Two motions that agree at all times are both along the fixed ellipse. -/
theorem j2_eq_zero_of_agree {o : Osculating ℝ} (h : boundElements r v mu = .ok o) (hE : o.elements.Elliptic)
    {solve : ℝ → ℝ → ℝ} {j2 : ℝ}
    (hagree : ∀ dt, j2MotionWith solve r v dt mu j2 = keplerMotionWith solve r v dt mu) : j2 = 0 := by
  have hmu : 0 < mu := (boundElements_eq_ok_iff.mp h).1
  have hframe : ∀ t, (o.elements.drifted (nodeRate o mu j2) (periapsisRate o mu j2) t).apse = o.elements.apse ∧
      (o.elements.drifted (nodeRate o mu j2) (periapsisRate o mu j2) t).lateral = o.elements.lateral := by
    intro t
    have hstate := hagree t
    rw [j2MotionWith_of_ok h, keplerMotionWith_of_ok h, Except.ok.injEq, moved_eq_drifted] at hstate
    have hfixed := (elliptic_moved hE o.node o.periapsis (anomalyAfter solve o t mu)).frame_eq hmu hstate rfl rfl rfl
    exact hfixed
  have hnode : nodeRate o mu j2 = j2Factor o mu j2 * cos o.inclination := by
    rw [nodeRate, Scalar.cos_real]
  have hperi : periapsisRate o mu j2 = -j2Factor o mu j2 * (2 - 2.5 * sin o.inclination ^ 2) := by
    rw [periapsisRate, Scalar.two_real, Scalar.pow_real, Scalar.sin_real]
  rw [hnode, hperi] at hframe
  exact j2Factor_eq_zero hE hmu (factor_eq_zero
    (fun hi => Elements.rates_eq_zero_of_inclined hi hframe)
    fun hi => Elements.rates_cancel_of_equatorial hi fun t => (hframe t).1)

/-- **Motion along a turning ellipse is motion along the fixed one, turned** about the normal of the orbit reached
and then about the axis of the Earth.  So the two motions reject the same states with the same fault, agree at all
times if and only if nothing is oblate, and have the shape of the orbit in common at any time. -/
theorem j2Motion_eq_turned (solve : ℝ → ℝ → ℝ) (r v : Vec3 ℝ) (mu : ℝ) :
    (∀ dt j2 fault, keplerMotionWith solve r v dt mu = .error fault ↔
      j2MotionWith solve r v dt mu j2 = .error fault) ∧
    ∀ o, boundElements r v mu = .ok o → o.eccentricity < 1 - 1e-10 →
      (∀ j2, (∀ dt, j2MotionWith solve r v dt mu j2 = keplerMotionWith solve r v dt mu) ↔ j2 = 0) ∧
      ∀ dt j2, ∃ r₁ v₁ r₂ v₂, keplerMotionWith solve r v dt mu = .ok (r₁, v₁) ∧
        j2MotionWith solve r v dt mu j2 = .ok (r₂, v₂) ∧ r₁.cross v₁ ≠ 0 ∧
        r₂ = turned polar (nodeRate o mu j2 * dt) (turned (r₁.cross v₁) (periapsisRate o mu j2 * dt) r₁) ∧
        v₂ = turned polar (nodeRate o mu j2 * dt) (turned (r₁.cross v₁) (periapsisRate o mu j2 * dt) v₁) ∧
        SameShape r₁ v₁ r₂ v₂ mu := by
  refine ⟨fun dt j2 fault => motions_error_iff solve r v dt mu j2 fault, fun o h hell => ?_⟩
  obtain ⟨hmu, -, hr, -, ho⟩ := boundElements_eq_ok_iff.mp h
  have hE : o.elements.Elliptic := by
    rw [ho] at hell ⊢
    exact elliptic_readOff hmu (lt_of_lt_of_le (by norm_num) hr) hell
  refine ⟨fun j2 => ⟨j2_eq_zero_of_agree h hE, ?_⟩, fun dt j2 => ?_⟩
  · rintro rfl dt
    exact (keplerMotion_eq_j2Motion solve r v dt mu).symm
  have hE' := elliptic_moved hE o.node o.periapsis (anomalyAfter solve o dt mu)
  have hshape := hE'.sameShape_drifted hmu (nodeRate o mu j2) (periapsisRate o mu j2) dt
  have hkepler := keplerMotionWith_of_ok h solve dt
  have hj2 := j2MotionWith_of_ok h solve dt j2
  rw [moved_eq_drifted] at hj2
  obtain ⟨⟨r₁, v₁⟩, h₁⟩ : ∃ x, (o.moved o.node o.periapsis (anomalyAfter solve o dt mu)).toCartesian mu = x :=
    ⟨_, rfl⟩
  obtain ⟨⟨r₂, v₂⟩, h₂⟩ : ∃ x, ((o.moved o.node o.periapsis (anomalyAfter solve o dt mu)).drifted
    (nodeRate o mu j2) (periapsisRate o mu j2) dt).toCartesian mu = x := ⟨_, rfl⟩
  obtain ⟨hne, hr₂, hv₂⟩ := hE'.eq_turned hmu h₁ h₂
  rw [h₁, h₂] at hshape
  rw [h₁] at hkepler
  rw [h₂] at hj2
  exact ⟨r₁, v₁, r₂, v₂, hkepler, hj2, hne, hr₂, hv₂, hshape⟩

/-- An inclined ellipse left at its periapsis for a unit of time, with the oblateness of the Earth and the solver in
use. -/
theorem j2Motion_eq_turned_inclined : ∃ o : Osculating ℝ, ∃ r₁ v₁ r₂ v₂,
    boundElements ⟨1, 0, 0⟩ ⟨0, 3 / 4, 1⟩ 1 = .ok o ∧
    keplerMotion ⟨1, 0, 0⟩ ⟨0, 3 / 4, 1⟩ 1 1 = .ok (r₁, v₁) ∧
    j2Motion ⟨1, 0, 0⟩ ⟨0, 3 / 4, 1⟩ 1 1 earthJ2 = .ok (r₂, v₂) ∧
    r₂ = turned polar (nodeRate o 1 earthJ2 * 1) (turned (r₁.cross v₁) (periapsisRate o 1 earthJ2 * 1) r₁) ∧
    v₂ = turned polar (nodeRate o 1 earthJ2 * 1) (turned (r₁.cross v₁) (periapsisRate o 1 earthJ2 * 1) v₁) ∧
    SameShape r₁ v₁ r₂ v₂ 1 ∧
    ∃ dt, j2Motion ⟨1, 0, 0⟩ ⟨0, 3 / 4, 1⟩ dt 1 earthJ2 ≠ keplerMotion (⟨1, 0, 0⟩ : Vec3 ℝ) ⟨0, 3 / 4, 1⟩ dt 1 := by
  have hr : (⟨1, 0, 0⟩ : Vec3 ℝ).norm = 1 := Vec3.norm_eq_of_sq zero_le_one (by norm_num [Vec3.dot_def])
  have hh : (Vec3.cross ⟨1, 0, 0⟩ ⟨0, 3 / 4, 1⟩ : Vec3 ℝ).norm = 5 / 4 :=
    Vec3.norm_eq_of_sq (by norm_num) (by norm_num [Vec3.cross_def, Vec3.dot_def])
  obtain ⟨hok, -, he⟩ := boundElements_at_apsis (r := ⟨1, 0, 0⟩) (v := ⟨0, 3 / 4, 1⟩) (k := 9 / 16)
    zero_lt_one (by norm_num [Vec3.dot_def]) (by rw [hr]; norm_num [Vec3.dot_def]) (by rw [hh]; norm_num)
    (by rw [hr]; norm_num) (by rw [hr]; norm_num)
  rw [hr] at he
  obtain ⟨hagree, hturned⟩ := (j2Motion_eq_turned eccentricAnomaly ⟨1, 0, 0⟩ ⟨0, 3 / 4, 1⟩ 1).2 _ hok
    (by rw [he]; norm_num)
  obtain ⟨r₁, v₁, r₂, v₂, h₁, h₂, -, hr₂, hv₂, hshape⟩ := hturned 1 earthJ2
  have hJ : (earthJ2 : ℝ) ≠ 0 := by norm_num [earthJ2]
  exact ⟨_, r₁, v₁, r₂, v₂, hok, h₁, h₂, hr₂, hv₂, hshape, not_forall.mp (hJ ∘ (hagree earthJ2).mp)⟩

end Motions

end OrbitFit
