import OrbitFit.Proofs.ExtendedScalar
import OrbitFit.Proofs.Orbit.Motion

/-!
# OrbitFit.Proofs.Orbit.Extended — orbits of finite states in arithmetic with infinities

Between a bound state and its elements every division is by a number that is not zero and every root is of one that
is not negative.  So the elements of a finite state are those of exact arithmetic, and so is the state that elements
of an ellipse go back to.

* `readOff_lift`: the elements read off a bound state.
* `eccentricAnomaly_finite`: Newton's iteration for Kepler's equation.
* `toCartesian_lift`: the state on an ellipse.
-/

open Real

namespace OrbitFit

open Extended Osculating

/-! ## Finite vectors and elements -/

section Lift

/-- A vector of real numbers among those with infinite and undefined components. -/
def Vec3.lift (a : Vec3 ℝ) : Vec3 Extended := ⟨finite a.x, finite a.y, finite a.z⟩

def SemiMajorAxis.lift : SemiMajorAxis ℝ → SemiMajorAxis Extended
  | finite a => finite (.finite a)
  | infinite => infinite

def Osculating.lift (o : Osculating ℝ) : Osculating Extended where
  axis := o.axis.lift
  eccentricity := finite o.eccentricity
  inclination := finite o.inclination
  node := finite o.node
  periapsis := finite o.periapsis
  trueAnomaly := finite o.trueAnomaly
  eccentricAnomaly := finite o.eccentricAnomaly
  meanAnomaly := finite o.meanAnomaly

end Lift

/-! ## Vectors -/

namespace Vec3

variable (a b : Vec3 ℝ) (k : ℝ)

@[simp] theorem lift_x : a.lift.x = finite a.x := rfl

@[simp] theorem lift_y : a.lift.y = finite a.y := rfl

@[simp] theorem lift_z : a.lift.z = finite a.z := rfl

theorem isFinite_lift : a.lift.isFinite = true := rfl

theorem scale_lift : scale (finite k) a.lift = (scale k a).lift := rfl

theorem sub_lift : a.lift - b.lift = (a - b).lift := by
  show Vec3.mk (finite a.x - finite b.x) (finite a.y - finite b.y) (finite a.z - finite b.z) = _
  simp only [sub_finite]
  rfl

theorem divide_lift {k : ℝ} (hk : k ≠ 0) : divide a.lift (finite k) = (divide a k).lift := by
  simp only [divide, lift, div_finite hk]

theorem dot_lift : a.lift.dot b.lift = finite (a.dot b) := rfl

theorem cross_lift : a.lift.cross b.lift = (a.cross b).lift := by
  simp only [cross, lift, mul_finite, sub_finite]

theorem norm_lift : a.lift.norm = finite a.norm := sqrt_finite a.dot_self_nonneg

end Vec3

/-! ## Elements of a state -/

section ReadOff

variable {r v : Vec3 ℝ} {mu : ℝ}

theorem eccentricityVector_lift (hmu : mu ≠ 0) (hr : r.norm ≠ 0) :
    eccentricityVector r.lift v.lift (finite mu) = (eccentricityVector r v mu).lift := by
  unfold eccentricityVector
  rw [Vec3.norm_lift, Vec3.norm_lift, div_finite hr, pow_finite, sub_finite, Vec3.scale_lift, Vec3.dot_lift,
    Vec3.scale_lift, Vec3.sub_lift, Vec3.divide_lift _ hmu]
  rfl

theorem energy_lift (hr : r.norm ≠ 0) : energy r.lift v.lift (finite mu) = finite (energy r v mu) := by
  unfold energy
  rw [Vec3.norm_lift, Vec3.norm_lift, div_finite hr, pow_finite, ofScientific_eq, div_finite (by norm_num), sub_finite]
  rfl

theorem axisOf_finite {ξ e : ℝ} (hξ : ξ ≠ 0) : axisOf (finite ξ) (finite e) (finite mu) = (axisOf ξ e mu).lift := by
  unfold axisOf
  simp only [ofScientific_eq, sub_finite, abs_finite, lt_finite, mul_finite, neg_finite]
  rw [div_finite (mul_ne_zero (by norm_num) hξ)]
  by_cases h : (1e-10 : ℝ) < Scalar.abs (1.0 - e)
  · rw [if_pos h]
    exact if_pos h
  · rw [if_neg h]
    exact if_neg h

theorem angleOf_finite (c : ℝ) (reflex : Bool) : angleOf (finite c) reflex = finite (angleOf c reflex) := by
  unfold angleOf
  have hclamp : |Scalar.clamp (-1.0) 1.0 c| ≤ 1 := by
    unfold Scalar.clamp
    split_ifs with hlow hhigh
    · norm_num
    · norm_num
    · norm_num at hlow hhigh
      exact abs_le.mpr ⟨hlow, hhigh⟩
  simp only [ofScientific_eq, neg_finite, clamp_finite, acos_finite hclamp, pi_eq, mul_finite, sub_finite, ite_finite]
  rfl

theorem angleOf_div_finite {c d : ℝ} (hd : d ≠ 0) (reflex : Bool) :
    angleOf (finite c / finite d) reflex = finite (angleOf (c / d) reflex) := by
  rw [div_finite hd, angleOf_finite]

theorem ite_angleOf_finite {c d : ℝ} {p : Prop} [Decidable p] (hd : p → d ≠ 0) (reflex : Bool) :
    (if p then angleOf (finite c / finite d) reflex else finite 0) = finite (if p then angleOf (c / d) reflex else 0) := by
  split_ifs with h
  · exact angleOf_div_finite (hd h) reflex
  · rfl

theorem anomalyOf_lift (hr : r.norm ≠ 0) (n eVec : Vec3 ℝ) (e : ℝ) :
    anomalyOf r.lift v.lift n.lift eVec.lift (finite e) = finite (anomalyOf r v n eVec e) := by
  unfold anomalyOf
  simp only [Vec3.norm_lift, Vec3.dot_lift, Vec3.lift_x, Vec3.lift_y, Vec3.lift_z, ofScientific_eq, lt_finite, zero_eq,
    mul_finite]
  split_ifs with he hn
  · exact angleOf_div_finite (mul_ne_zero (pos_of_tolerance he).ne' hr) _
  · exact angleOf_div_finite (mul_ne_zero (pos_of_tolerance hn).ne' hr) _
  · exact angleOf_div_finite hr _

theorem trueOfEccentric_finite {x e : ℝ} (h1 : -1 ≤ e) (h2 : e ≤ 1) :
    trueOfEccentric (finite x) (finite e) = finite (trueOfEccentric x e) := by
  have hhalf : (2.0 : ℝ) ≠ 0 := by norm_num
  have hplus : (0 : ℝ) ≤ 1.0 + e := by norm_num; linarith
  have hminus : (0 : ℝ) ≤ 1.0 - e := by norm_num; linarith
  unfold trueOfEccentric
  simp only [ofScientific_eq, add_finite, sub_finite, sqrt_finite hplus, sqrt_finite hminus, div_finite hhalf, sin_finite,
    cos_finite, mul_finite, atan2_finite]
  rfl

theorem eccentricOfTrue_finite {nu e : ℝ} (h1 : -1 ≤ e) (h2 : e ≤ 1) :
    eccentricOfTrue (finite nu) (finite e) = finite (eccentricOfTrue nu e) := by
  -- one formula with `e` and `-e` serves both directions
  have hsame : eccentricOfTrue (finite nu) (finite e) = trueOfEccentric (finite nu) (finite (-e)) := by
    unfold eccentricOfTrue trueOfEccentric
    simp only [ofScientific_eq, add_finite, sub_finite, sub_neg_eq_add, ← sub_eq_add_neg]
  rw [hsame, trueOfEccentric_finite (by linarith) (by linarith), eccentricOfTrue_eq]

/-- **The elements of a bound state** are those of exact arithmetic. -/
theorem readOff_lift (hmu : 0 < mu) (hr : 0 < r.norm) (hh : 0 < (r.cross v).norm)
    (he : (eccentricityVector r v mu).norm < 1) : readOff r.lift v.lift (finite mu) = (readOff r v mu).lift := by
  have he0 := Vec3.norm_nonneg (eccentricityVector r v mu)
  have hξ : energy r v mu ≠ 0 := (energy_neg hmu hr he).ne
  have hlt : (eccentricityVector r v mu).norm < 1.0 := by rwa [Scalar.one_real]
  have hnode : Vec3.cross ⟨0, 0, 1⟩ (r.cross v).lift = (Vec3.cross ⟨0, 0, 1⟩ (r.cross v)).lift :=
    Vec3.cross_lift ⟨0, 0, 1⟩ (r.cross v)
  unfold readOff
  simp only [hnode, eccentricityVector_lift hmu.ne' hr.ne', Vec3.norm_lift, anomalyOf_lift hr.ne', energy_lift hr.ne',
    axisOf_finite hξ, Vec3.cross_lift, Vec3.dot_lift, Vec3.lift_x, Vec3.lift_y, Vec3.lift_z]
  simp only [ofScientific_eq, lt_finite, zero_eq, mul_finite, hlt, if_true, eccentricOfTrue_finite (by linarith) he.le,
    sin_finite, sub_finite]
  unfold Osculating.lift
  simp only [Osculating.mk.injEq, Scalar.sin_real, true_and, and_true]
  refine ⟨?inclination, ?node, ?periapsis⟩
  case inclination =>
    exact angleOf_div_finite hh.ne' false
  case node =>
    exact ite_angleOf_finite (fun hn => (pos_of_tolerance hn).ne') _
  case periapsis =>
    exact ite_angleOf_finite (fun hn => (mul_pos (pos_of_tolerance hn.1) (pos_of_tolerance hn.2)).ne') _

end ReadOff

/-! ## Kepler's equation -/

section Solver

variable {m e : ℝ}

theorem keplerStart_finite (m e : ℝ) : keplerStart (finite m) (finite e) = finite (keplerStart m e) := by
  unfold keplerStart
  simp only [ofScientific_eq, lt_finite, sin_finite, sign_finite, mul_finite, add_finite, pi_eq, ite_finite]
  rfl

theorem keplerStep_finite (h1 : -1 < e) (h2 : e < 1) (x : ℝ) :
    keplerStep (finite m) (finite e) (finite x) = finite (keplerStep m e x) := by
  have hslope : (1.0 : ℝ) - e * cos x ≠ 0 := by
    have hpos := one_add_mul_cos_pos (e := -e) (by linarith) (by linarith) x
    rw [Scalar.one_real]
    linarith
  unfold keplerStep
  simp only [ofScientific_eq, sin_finite, cos_finite, mul_finite, sub_finite, neg_finite, div_finite hslope]
  rfl

/-- Newton's iteration goes the same way, step by step. -/
theorem iterateKepler_finite (h1 : -1 < e) (h2 : e < 1) (tol : ℝ) (fuel : ℕ) : ∀ (x : ℝ) (steps : ℕ),
    (iterateKepler (finite m) (finite e) (finite tol) (finite x) steps fuel).anomaly =
      finite (iterateKepler m e tol x steps fuel).anomaly := by
  induction fuel with
  | zero => exact fun x steps => rfl
  | succ fuel ih =>
    intro x steps
    unfold iterateKepler
    simp only [keplerStep_finite h1 h2, add_finite, abs_finite, lt_finite, Scalar.abs_real]
    split_ifs
    · rfl
    · exact ih _ _

theorem eccentricAnomaly_finite (h1 : -1 < e) (h2 : e < 1) :
    eccentricAnomaly (finite m) (finite e) = finite (eccentricAnomaly m e) := by
  unfold eccentricAnomaly solveKepler
  rw [keplerStart_finite, ofScientific_eq, iterateKepler_finite h1 h2]

/-- The true anomaly at a finite mean anomaly. -/
theorem anomalyAt_finite (h1 : -1 < e) (h2 : e < 1) :
    trueOfEccentric (eccentricAnomaly (Scalar.floorMod (finite m) (2.0 * Scalar.pi)) (finite e)) (finite e) =
      finite (trueOfEccentric (eccentricAnomaly (Scalar.floorMod m (2.0 * Scalar.pi)) e) e) := by
  have hturn : (2.0 : ℝ) * π ≠ 0 := mul_ne_zero (by norm_num) pi_ne_zero
  rw [ofScientific_eq, pi_eq, mul_finite, floorMod_finite hturn, eccentricAnomaly_finite h1 h2,
    trueOfEccentric_finite h1.le h2.le]
  rfl

end Solver

/-! ## The state on an orbit -/

section Place

variable (o : Osculating ℝ) (node periapsis trueAnomaly : ℝ)

theorem apply_perifocal_lift (a : Vec3 ℝ) :
    (o.lift.moved (finite node) (finite periapsis) (finite trueAnomaly)).perifocal.apply a.lift =
      ((o.moved node periapsis trueAnomaly).perifocal.apply a).lift := by
  unfold Elements.perifocal Osculating.moved Osculating.lift Mat3.apply
  simp only [sin_finite, cos_finite, neg_finite, mul_finite, add_finite, sub_finite]
  rfl

theorem semiLatus_lift {a : ℝ} (ho : o.axis = .finite a) :
    (o.lift.moved (finite node) (finite periapsis) (finite trueAnomaly)).semiLatus =
      finite (o.moved node periapsis trueAnomaly).semiLatus := by
  unfold Elements.semiLatus Osculating.moved Osculating.lift
  simp only [ho, SemiMajorAxis.lift, SemiMajorAxis.toScalar, ofScientific_eq, pow_finite, sub_finite, mul_finite]
  rfl

/-- **The state on an ellipse** is that of exact arithmetic. -/
theorem toCartesian_lift {mu a : ℝ} (ho : o.axis = .finite a) (h : (o.moved node periapsis trueAnomaly).Elliptic)
    (hmu : 0 ≤ mu) :
    (o.lift.moved (finite node) (finite periapsis) (finite trueAnomaly)).toCartesian (finite mu) =
      (((o.moved node periapsis trueAnomaly).toCartesian mu).1.lift,
        ((o.moved node periapsis trueAnomaly).toCartesian mu).2.lift) := by
  have hfocal : (1.0 : ℝ) + o.eccentricity * cos trueAnomaly ≠ 0 := by
    rw [Scalar.one_real]
    exact h.focal_pos.ne'
  have hspeed : 0 ≤ mu / (o.moved node periapsis trueAnomaly).semiLatus := div_nonneg hmu h.semiLatus_pos.le
  have hdistance : finite (o.moved node periapsis trueAnomaly).semiLatus /
      (1.0 + (o.lift.moved (finite node) (finite periapsis) (finite trueAnomaly)).eccentricity *
        Scalar.cos (o.lift.moved (finite node) (finite periapsis) (finite trueAnomaly)).trueAnomaly) =
        finite ((o.moved node periapsis trueAnomaly).semiLatus / (1.0 + o.eccentricity * cos trueAnomaly)) :=
    div_finite hfocal
  unfold Elements.toCartesian Elements.vectors
  rw [semiLatus_lift o _ _ _ ho, div_finite h.semiLatus_pos.ne', sqrt_finite hspeed]
  simp only [hdistance]
  exact Prod.ext
    (apply_perifocal_lift o node periapsis trueAnomaly (Vec3.scale _ ⟨cos trueAnomaly, sin trueAnomaly, 0⟩))
    (apply_perifocal_lift o node periapsis trueAnomaly
      (Vec3.scale _ ⟨-sin trueAnomaly, o.eccentricity + cos trueAnomaly, 0⟩))

end Place

end OrbitFit
