import OrbitFit.Proofs.Orbit.Motion

/-!
# OrbitFit.Proofs.Orbit.RoundTrip — elements that come back from their state

Angles read off a state are in range: the inclination in half a turn, the others in one turn.  Elements in range that
agree up to whole turns are equal, and a state on an inclined ellipse has one description up to whole turns.  So the
elements of such an ellipse are the ones read off the state that they give.

* `Elements.InRange`, `inRange_readOff`: the ranges, and that all elements read off are in them.
* `Elements.Elliptic.readOff_toCartesian`: the six elements come back.
* `readOff_eq_osculating`: the other two anomalies are those of the true one.
* `ofCartesian_toCartesian`: the round trip, through the checks on both ways.
-/

open Real

namespace OrbitFit

open Osculating (eccentricityVector angleOf readOff)
open Vec3 (scale)

/-! ## Elements in range -/

section Range

/-- Every angle of the elements is in its range. -/
structure Elements.InRange (o : Elements ℝ) : Prop where
  inclination : o.inclination ∈ Set.Icc 0 π
  node : o.node ∈ Set.Ico 0 (2 * π)
  periapsis : o.periapsis ∈ Set.Ico 0 (2 * π)
  trueAnomaly : o.trueAnomaly ∈ Set.Ico 0 (2 * π)

theorem Elements.SameUpToTurns.eq {o o' : Elements ℝ} (h : o.SameUpToTurns o') (ho : o.InRange)
    (ho' : o'.InRange) : o = o' := by
  have hi : o.inclination = o'.inclination := injOn_cos ho.inclination ho'.inclination (cos_eq_of_coe_eq h.inclination)
  have hnode := eq_of_coe_eq ho.node ho'.node h.node
  have hperi := eq_of_coe_eq ho.periapsis ho'.periapsis h.periapsis
  have hν := eq_of_coe_eq ho.trueAnomaly ho'.trueAnomaly h.trueAnomaly
  obtain ⟨ha, he, -, -, -, -⟩ := h
  cases o
  cases o'
  simp only at ha he hi hnode hperi hν
  rw [ha, he, hi, hnode, hperi, hν]

variable {a b : Vec3 ℝ} {reflex : Bool}

/-- An angle between two vectors is in the turn if it is put in the second half only for vectors off one line. -/
theorem angleOf_dot_mem (ha : 0 < a.norm) (hb : 0 < b.norm) (hr : reflex = true → a.cross b ≠ 0) :
    angleOf (a.dot b / (a.norm * b.norm)) reflex ∈ Set.Ico 0 (2 * π) := by
  have hpos := mul_pos ha hb
  obtain ⟨hlow, hhigh⟩ := abs_le.mp (Vec3.abs_dot_le (a := a) (b := b))
  refine angleOf_mem ?_ ((div_le_one hpos).mpr hhigh) fun h => (div_lt_one hpos).mpr ?_
  · rw [le_div_iff₀ hpos]
    linarith
  · exact Vec3.dot_lt_of_cross_ne_zero (hr h)

/-- An angle from the first axis, by the sign of the second coordinate. -/
theorem angleOf_first_mem (ha : 0 < a.norm) :
    angleOf (a.x / a.norm) (decide (a.y < 0)) ∈ Set.Ico 0 (2 * π) := by
  have hfirst : (⟨1, 0, 0⟩ : Vec3 ℝ).norm = 1 := Vec3.norm_eq_of_sq zero_le_one (by norm_num [Vec3.dot_def])
  have hline : decide (a.y < 0) = true → Vec3.cross ⟨1, 0, 0⟩ a ≠ 0 := by
    intro hy h0
    have hz := congrArg Vec3.z h0
    simp only [Vec3.cross_def, Vec3.zero_def] at hz
    linarith [of_decide_eq_true hy]
  have h := angleOf_dot_mem (by rw [hfirst]; exact zero_lt_one) ha hline
  rwa [hfirst, one_mul, Vec3.dot_def, one_mul, zero_mul, zero_mul, add_zero, add_zero] at h

/-- An angle from a vector along the equator, by the sign of the height. -/
theorem angleOf_equatorial_mem (hz : a.z = 0) (ha : 0 < a.norm) (hb : 0 < b.norm) :
    angleOf (a.dot b / (a.norm * b.norm)) (decide (b.z < 0)) ∈ Set.Ico 0 (2 * π) := by
  refine angleOf_dot_mem ha hb fun hneg h0 => ha.ne' (Vec3.norm_eq_zero.mpr ?_)
  have hb0 := (of_decide_eq_true hneg).ne
  simp only [Vec3.cross_def, Vec3.zero_def, Vec3.mk.injEq, hz, zero_mul, sub_zero, zero_sub, neg_eq_zero,
    mul_eq_zero, hb0, or_false] at h0
  ext
  · exact h0.2.1
  · exact h0.1
  · exact hz

variable {r v : Vec3 ℝ} {mu : ℝ}

/-- A body that falls toward the focus off a line through it is not on the line of the apses. -/
theorem eccentricityVector_cross_ne_zero (hmu : mu ≠ 0) (hh : r.cross v ≠ 0) (hdot : r.dot v ≠ 0) :
    (eccentricityVector r v mu).cross r ≠ 0 := by
  intro h0
  have hcross : (eccentricityVector r v mu).cross r = scale (r.dot v / mu) (r.cross v) := by
    simp only [eccentricityVector, Vec3.cross_def, Vec3.divide_def, Vec3.sub_def, Vec3.scale_def, Vec3.mk.injEq]
    refine ⟨?_, ?_, ?_⟩ <;> field_simp <;> ring
  rw [hcross, ← Vec3.norm_eq_zero, Vec3.norm_scale_abs, mul_eq_zero, abs_eq_zero, Vec3.norm_eq_zero] at h0
  exact h0.elim (div_ne_zero hdot hmu) hh

/-- **All angles read off a state are in range**, whatever its orbit. -/
theorem inRange_readOff (hmu : mu ≠ 0) (hr : 0 < r.norm) (hh : 0 < (r.cross v).norm) :
    (readOff r v mu).elements.InRange := by
  have hturn : (0 : ℝ) ∈ Set.Ico 0 (2 * π) := ⟨le_rfl, two_pi_pos⟩
  have hn : (nodeVector r v).z = 0 := by rw [nodeVector_eq]
  refine ⟨?_, ?_, ?_, ?_⟩
  · exact ⟨arccos_nonneg _, arccos_le_pi _⟩
  · show (if 1e-12 < (nodeVector r v).norm then _ else _) ∈ _
    split_ifs with hnode
    · exact angleOf_first_mem (pos_of_tolerance hnode)
    · exact hturn
  · show (if 1e-12 < (nodeVector r v).norm ∧ 1e-12 < (eccentricityVector r v mu).norm then _ else _) ∈ _
    split_ifs with h
    · exact angleOf_equatorial_mem hn (pos_of_tolerance h.1) (pos_of_tolerance h.2)
    · exact hturn
  · show Osculating.anomalyOf r v (nodeVector r v) (eccentricityVector r v mu) _ ∈ _
    unfold Osculating.anomalyOf
    split_ifs with he hnode
    · refine angleOf_dot_mem (pos_of_tolerance he) hr fun hfall => ?_
      exact eccentricityVector_cross_ne_zero hmu (Vec3.norm_pos_iff.mp hh) (of_decide_eq_true hfall).ne
    · exact angleOf_equatorial_mem hn (pos_of_tolerance hnode) hr
    · exact angleOf_first_mem hr

end Range

/-! ## Elements that come back -/

section Back

variable {o : Elements ℝ} {mu : ℝ}

/-- In exact arithmetic the powers and quotients of an ellipse are always in range. -/
theorem Elements.Elliptic.toCartesianChecked_eq (h : o.Elliptic) (mu : ℝ) :
    o.toCartesianChecked mu = .ok (o.toCartesian mu) := by
  unfold toCartesianChecked
  rw [powChecked_real]
  show (divChecked mu o.semiLatus).bind (fun q => .ok (o.vectors o.semiLatus q)) = _
  rw [divChecked_real mu h.semiLatus_pos.ne']
  rfl

/-- The node vector of the state of an ellipse is as long as the part of the angular momentum along the equator. -/
theorem Elements.Elliptic.norm_nodeVector (h : o.Elliptic) (hmu : 0 < mu) (hi : 0 ≤ sin o.inclination) :
    (nodeVector (o.toCartesian mu).1 (o.toCartesian mu).2).norm = √(mu * o.semiLatus) * sin o.inclination := by
  have hk := sqrt_nonneg (mu * o.semiLatus)
  refine Vec3.norm_eq_of_sq (mul_nonneg hk hi) ?_
  rw [← Vec3.norm_sq, norm_nodeVector_sq, h.norm_cross_toCartesian hmu, h.cross_toCartesian hmu, mul_pow, sin_sq]
  show _ - (√(mu * o.semiLatus) * cos o.inclination) ^ 2 = _
  ring

/-- The state of an inclined ellipse is clear of the tolerances if its angular momentum and its distance are. -/
theorem Elements.Elliptic.regular_toCartesian (h : o.Elliptic) (hmu : 0 < mu)
    (he : o.eccentricity ∈ Set.Ioo 1e-12 (1 - 1e-10)) (hi : 0 < sin o.inclination)
    (hincl : 1e-12 < √(mu * o.semiLatus) * sin o.inclination) :
    Regular (o.toCartesian mu).1 (o.toCartesian mu).2 mu := by
  have hecc := (h.describes_toCartesian hmu).norm_eccentricityVector h.eccentricity_nonneg
  refine ⟨hmu, ?_, ?_, ?_, Or.inr ?_, Or.inr ?_⟩
  · rw [h.norm_toCartesian]
    exact h.distance_pos
  · rw [h.norm_cross_toCartesian hmu]
    exact h.momentum_pos hmu
  · rw [hecc]
    exact he.2
  · rw [hecc]
    exact he.1
  · rwa [h.norm_nodeVector hmu hi.le]

/-- **The elements read off the state of an inclined ellipse are those of the ellipse.** -/
theorem Elements.Elliptic.readOff_toCartesian (h : o.Elliptic) (hmu : 0 < mu) (hin : o.InRange)
    (he : o.eccentricity ∈ Set.Ioo 1e-12 (1 - 1e-10)) (hi : 0 < sin o.inclination)
    (hincl : 1e-12 < √(mu * o.semiLatus) * sin o.inclination) :
    (readOff (o.toCartesian mu).1 (o.toCartesian mu).2 mu).elements = o := by
  have hR := h.regular_toCartesian hmu he hi hincl
  have hd := h.describes_toCartesian hmu
  have hn : 1e-12 < (nodeVector (o.toCartesian mu).1 (o.toCartesian mu).2).norm := by
    rwa [h.norm_nodeVector hmu hi.le]
  have hd' := hR.describes_iff.mpr (Or.inl (ne_zero_of_tolerance hn))
  have hpos : 0 < o.eccentricity := lt_trans (by norm_num) he.1
  have hpos' : 0 < (readOff (o.toCartesian mu).1 (o.toCartesian mu).2 mu).elements.eccentricity :=
    hpos.trans_eq (hd.norm_eccentricityVector hpos.le).symm
  have hsame := hd'.unique hd hR.distance_pos hR.momentum_pos hpos' hpos (hR.sin_inclination_pos hn) hi
  exact hsame.eq (inRange_readOff hmu.ne' hR.distance_pos hR.momentum_pos) hin

/-- The elements of an ellipse with the anomalies that belong to the true one. -/
noncomputable def Elements.osculating (o : Elements ℝ) : Osculating ℝ :=
  { axis := .finite o.axis, eccentricity := o.eccentricity, inclination := o.inclination, node := o.node
    periapsis := o.periapsis, trueAnomaly := o.trueAnomaly
    eccentricAnomaly := eccentricOfTrue o.trueAnomaly o.eccentricity
    meanAnomaly := eccentricOfTrue o.trueAnomaly o.eccentricity
      - o.eccentricity * sin (eccentricOfTrue o.trueAnomaly o.eccentricity) }

/-- What is read off an ellipse is its six elements and what belongs to them. -/
theorem readOff_eq_osculating {r v : Vec3 ℝ} (he : (eccentricityVector r v mu).norm < 1 - 1e-10) :
    readOff r v mu = (readOff r v mu).elements.osculating := by
  have hlt : (eccentricityVector r v mu).norm < 1 := by linarith
  have haxis : (readOff r v mu).axis = .finite (readOff r v mu).axis.toScalar := by
    rw [axis_readOff_finite he]
    rfl
  have hE := eccentricAnomaly_readOff hlt
  have hM := meanAnomaly_readOff hlt
  have hecc : (eccentricityVector r v mu).norm = (readOff r v mu).eccentricity := rfl
  rw [hecc] at hE hM
  generalize readOff r v mu = x at haxis hE hM ⊢
  cases x
  dsimp only at haxis hE hM
  rw [hE, hM]
  exact congrArg (Osculating.mk · _ _ _ _ _ _ _) haxis

/-- The eccentric anomaly of a true anomaly on an ellipse, in the same turn: its cosine and sine are those of the point
of the circle around the ellipse. -/
structure IsEccentricAnomaly (E nu e : ℝ) : Prop where
  turn : E ∈ Set.Ico 0 (2 * π)
  cos_eq : (1 + e * cos nu) * cos E = e + cos nu
  sin_eq : (1 + e * cos nu) * sin E = √(1 - e ^ 2) * sin nu

/-- **Elements come back from their state**: those of an inclined ellipse clear of the tolerances are the ones read off
the position and the velocity that they give, with the anomalies that belong to the true one. -/
theorem ofCartesian_toCartesian {o : Elements ℝ} {mu : ℝ} (hmu : 0 < mu) (haxis : 0 < o.axis)
    (hecc : o.eccentricity ∈ Set.Ioo 1e-12 (1 - 1e-10)) (hi : o.inclination ∈ Set.Ioo 0 π)
    (hnode : o.node ∈ Set.Ico 0 (2 * π)) (hperi : o.periapsis ∈ Set.Ico 0 (2 * π))
    (hnu : o.trueAnomaly ∈ Set.Ico 0 (2 * π))
    (hincl : 1e-12 < √(mu * o.axis * (1 - o.eccentricity ^ 2)) * sin o.inclination)
    (hdist : 1e-12 ≤ (o.toCartesian mu).1.norm) :
    ∃ r v E, o.toCartesianChecked mu = .ok (r, v) ∧
      Osculating.ofCartesian r v mu = .ok
        { axis := .finite o.axis, eccentricity := o.eccentricity, inclination := o.inclination, node := o.node
          periapsis := o.periapsis, trueAnomaly := o.trueAnomaly, eccentricAnomaly := E
          meanAnomaly := E - o.eccentricity * sin E } ∧
      IsEccentricAnomaly E o.trueAnomaly o.eccentricity ∧
      E - o.eccentricity * sin E ∈ Set.Ico 0 (2 * π) := by
  have h0 : 0 ≤ o.eccentricity := le_trans (by norm_num) hecc.1.le
  have hlow : -1 < o.eccentricity := by linarith
  have h1 : o.eccentricity < 1 := by linarith [hecc.2]
  have h : o.Elliptic := ⟨haxis, h0, h1⟩
  have hin : o.InRange := ⟨Set.Ioo_subset_Icc_self hi, hnode, hperi, hnu⟩
  have hsin : 0 < sin o.inclination := sin_pos_of_mem_Ioo hi
  rw [mul_assoc, ← Elements.semiLatus_real] at hincl
  have hread := h.readOff_toCartesian hmu hin hecc hsin hincl
  have hnorm := (h.describes_toCartesian hmu).norm_eccentricityVector h0
  have hmomentum : 1e-12 < ((o.toCartesian mu).1.cross (o.toCartesian mu).2).norm := by
    rw [h.norm_cross_toCartesian hmu]
    exact hincl.trans_le (mul_le_of_le_one_right (sqrt_nonneg _) (sin_le_one _))
  obtain ⟨⟨r, v⟩, hrv⟩ : ∃ x, o.toCartesian mu = x := ⟨_, rfl⟩
  rw [hrv] at hread hnorm hmomentum hdist
  have hE := eccentricOfTrue_mem hlow h1 hnu
  obtain ⟨hcos, hsinE⟩ := eccentricOfTrue_ratios hlow h1 o.trueAnomaly
  refine ⟨r, v, eccentricOfTrue o.trueAnomaly o.eccentricity, (h.toCartesianChecked_eq mu).trans (by rw [hrv]), ?_,
    ⟨hE, by linarith, hsinE⟩, mean_mem h0 h1 hE⟩
  have haccept : ¬ ((r.cross v).norm < 1e-12 || r.norm < 1e-12) = true := by
    simp only [Bool.or_eq_true, decide_eq_true_eq, not_or, not_lt]
    exact ⟨hmomentum.le, hdist⟩
  unfold Osculating.ofCartesian
  rw [if_neg haccept, readOff_eq_osculating (hnorm.trans_lt hecc.2), hread]
  rfl

/-- An ellipse over the poles, with every angle past half a turn or at it. -/
theorem ofCartesian_toCartesian_polar : ∃ r v,
    (⟨1, 1 / 2, π / 2, 3 * π / 2, π, 3 * π / 2⟩ : Elements ℝ).toCartesianChecked 1 = .ok (r, v) ∧
      Osculating.ofCartesian r v 1 = .ok
        ⟨.finite 1, 1 / 2, π / 2, 3 * π / 2, π, 3 * π / 2, 5 * π / 3, 5 * π / 3 - 1 / 2 * sin (5 * π / 3)⟩ := by
  have hπ := pi_pos
  have hturn : (3 * π / 2 : ℝ) ∈ Set.Ico 0 (2 * π) := ⟨by linarith, by linarith⟩
  have hquarter : 3 * π / 2 = π + π / 2 := by ring
  have hc : cos (3 * π / 2) = 0 := by rw [hquarter, cos_add, cos_pi_div_two, sin_pi, mul_zero, zero_mul, sub_zero]
  have hs : sin (3 * π / 2) = -1 := by
    rw [hquarter, sin_add, cos_pi_div_two, cos_pi, sin_pi_div_two, mul_zero, zero_add, mul_one]
  set o : Elements ℝ := ⟨1, 1 / 2, π / 2, 3 * π / 2, π, 3 * π / 2⟩ with ho
  have hE : o.Elliptic := ⟨by norm_num [ho], by norm_num [ho], by norm_num [ho]⟩
  have hdist : (o.toCartesian 1).1.norm = 3 / 4 := by
    rw [hE.norm_toCartesian, Elements.distance, Elements.semiLatus_real, ho]
    simp only [hc]
    norm_num
  have hincl : 1e-12 < √(1 * o.axis * (1 - o.eccentricity ^ 2)) * sin o.inclination := by
    simp only [ho, sin_pi_div_two, mul_one]
    exact lt_sqrt_of_sq_lt (by norm_num)
  obtain ⟨r, v, E, hstate, hback, ⟨hmem, hcos, hsin⟩, -⟩ := ofCartesian_toCartesian (o := o) zero_lt_one zero_lt_one
    ⟨by norm_num [ho], by norm_num [ho]⟩ ⟨by simp only [ho]; linarith, by simp only [ho]; linarith⟩ hturn
    ⟨by simp only [ho]; linarith, by simp only [ho]; linarith⟩ hturn hincl (by rw [hdist]; norm_num)
  have hroot : √(1 - (1 / 2 : ℝ) ^ 2) = √3 / 2 := by
    rw [show (1 - (1 / 2) ^ 2 : ℝ) = 3 / 2 ^ 2 by norm_num, sqrt_div zero_le_three, sqrt_sq two_pos.le]
  have hthird : 5 * π / 3 = 2 * π - π / 3 := by ring
  have hvalue : E = 5 * π / 3 := by
    refine eq_of_coe_eq hmem ⟨by linarith, by linarith⟩ (Angle.cos_sin_inj ?_ ?_)
    · rw [hthird, cos_two_pi_sub, cos_pi_div_three]
      simpa only [ho, hc, mul_zero, add_zero, one_mul] using hcos
    · rw [hthird, sin_two_pi_sub, sin_pi_div_three, ← hroot, ← mul_neg_one]
      simpa only [ho, hc, hs, mul_zero, add_zero, one_mul] using hsin
  rw [hvalue] at hback
  exact ⟨r, v, hstate, hback⟩

end Back

end OrbitFit
