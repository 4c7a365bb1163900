import OrbitFit.Proofs.Orbit.RoundTrip

/-!
# OrbitFit.Proofs.Orbit.Anomalies — three anomalies of one place

The true and the eccentric anomaly are turned into each other by two half-angle formulas, with the roots of `1 + e` and
`1 - e` exchanged.  Half an angle of a turn is in half a turn, where the formulas jump nowhere: not at the apoapsis,
where half the angle has no tangent, and not at the end of the turn.  So each formula keeps the turn and undoes the
other, and the mean anomaly is in the turn as well.

* `Anomalies`: what belongs to one place on an ellipse.
* `anomalies_of_eccentric`, `anomalies_of_true`: any eccentric and any true anomaly of the turn belongs to one.
* `ofCartesian_eq_ok_iff`: the states whose elements are read off.
* `anomalies_correspond`: the formulas, and what is read off a state.
-/

open Real

namespace OrbitFit

open Osculating (eccentricityVector readOff)

/-! ## The formulas -/

section Formulas

/-- The true, the eccentric and the mean anomaly of one place on an ellipse of eccentricity `e`, all of one turn: each
is what the formulas make of the others, and the distance and the direction from the focus are the same by the true
anomaly and by the eccentric one. -/
structure Anomalies (e nu E M : ℝ) : Prop where
  true_mem : nu ∈ Set.Ico 0 (2 * π)
  eccentric_mem : E ∈ Set.Ico 0 (2 * π)
  mean_mem : M ∈ Set.Ico 0 (2 * π)
  true_eq : trueOfEccentric E e = nu
  eccentric_eq : eccentricOfTrue nu e = E
  mean_eq : E - e * sin E = M
  distance : ∀ a, a * (1 - e * cos E) = a * (1 - e ^ 2) / (1 + e * cos nu)
  along : cos E - e = (1 - e * cos E) * cos nu
  across : √(1 - e ^ 2) * sin E = (1 - e * cos E) * sin nu

variable {e : ℝ}

/-- **Every eccentric anomaly belongs to a place.** -/
theorem anomalies_of_eccentric (h0 : 0 ≤ e) (h1 : e < 1) {E : ℝ} (hE : E ∈ Set.Ico 0 (2 * π)) :
    Anomalies e (trueOfEccentric E e) E (E - e * sin E) := by
  have hlow : -1 < e := by linarith
  obtain ⟨hc, hs⟩ := trueOfEccentric_ratios hlow h1 E
  have hν := trueOfEccentric_mem hlow h1 hE
  have hback : eccentricOfTrue (trueOfEccentric E e) e = E :=
    eq_of_coe_eq (eccentricOfTrue_mem hlow h1 hν) hE (coe_eccentricOfTrue_trueOfEccentric hlow h1 E)
  refine ⟨hν, hE, mean_mem h0 h1 hE, rfl, hback, rfl, fun a => ?_, hc.symm, hs.symm⟩
  rw [eq_div_iff (one_add_mul_cos_pos hlow h1 _).ne']
  linear_combination a * e * hc

/-- **Every true anomaly belongs to a place.** -/
theorem anomalies_of_true (h0 : 0 ≤ e) (h1 : e < 1) {nu : ℝ} (hν : nu ∈ Set.Ico 0 (2 * π)) :
    Anomalies e nu (eccentricOfTrue nu e) (eccentricOfTrue nu e - e * sin (eccentricOfTrue nu e)) := by
  have hlow : -1 < e := by linarith
  have hE := eccentricOfTrue_mem hlow h1 hν
  have hback : trueOfEccentric (eccentricOfTrue nu e) e = nu :=
    eq_of_coe_eq (trueOfEccentric_mem hlow h1 hE) hν (coe_trueOfEccentric_eccentricOfTrue hlow h1 nu)
  have h := anomalies_of_eccentric h0 h1 hE
  rwa [hback] at h

end Formulas

/-! ## What is read off a state -/

section States

variable {r v : Vec3 ℝ} {mu e : ℝ}

/-- Elements are read off a state that spans a plane and is off the focus. -/
theorem ofCartesian_eq_ok_iff {o : Osculating ℝ} : Osculating.ofCartesian r v mu = .ok o ↔
    1e-12 ≤ (r.cross v).norm ∧ 1e-12 ≤ r.norm ∧ o = readOff r v mu := by
  unfold Osculating.ofCartesian
  split_ifs with h
  · rw [Bool.or_eq_true, decide_eq_true_eq, decide_eq_true_eq] at h
    refine iff_of_false nofun ?_
    rintro ⟨hh, hr, -⟩
    exact h.elim hh.not_gt hr.not_gt
  · rw [Bool.or_eq_true, decide_eq_true_eq, decide_eq_true_eq, not_or, not_lt, not_lt] at h
    exact ⟨fun ho => ⟨h.1, h.2, (Except.ok.inj ho).symm⟩, fun ho => congrArg Except.ok ho.2.2.symm⟩

/-- **The anomalies of an ellipse belong together**, those of the formulas and those read off a state: every true and
every eccentric anomaly of the turn has its other two, and the three that are read off a state, by whatever its true
anomaly is counted from, are such. -/
theorem anomalies_correspond (h0 : 0 ≤ e) (h1 : e < 1) :
    (∀ nu ∈ Set.Ico 0 (2 * π),
        Anomalies e nu (eccentricOfTrue nu e) (eccentricOfTrue nu e - e * sin (eccentricOfTrue nu e))) ∧
      (∀ E ∈ Set.Ico 0 (2 * π), Anomalies e (trueOfEccentric E e) E (E - e * sin E)) ∧
      ∀ (r v : Vec3 ℝ) (mu : ℝ) (o : Osculating ℝ), mu ≠ 0 → Osculating.ofCartesian r v mu = .ok o →
        o.eccentricity = e → Anomalies e o.trueAnomaly o.eccentricAnomaly o.meanAnomaly := by
  refine ⟨fun nu hν => anomalies_of_true h0 h1 hν, fun E hE => anomalies_of_eccentric h0 h1 hE, ?_⟩
  intro r v mu o hmu ho he
  obtain ⟨hh, hr, rfl⟩ := ofCartesian_eq_ok_iff.mp ho
  have hecc : (eccentricityVector r v mu).norm = e := he
  have hlt : (eccentricityVector r v mu).norm < 1 := hecc.trans_lt h1
  have hin := inRange_readOff hmu (pos_of_tolerance_le hr) (pos_of_tolerance_le hh)
  rw [eccentricAnomaly_readOff hlt, meanAnomaly_readOff hlt, hecc]
  exact anomalies_of_true h0 h1 hin.trueAnomaly

/-- A body over the pole at the apoapsis of an ellipse, where half of every anomaly is a quarter of a turn. -/
theorem anomalies_correspond_apoapsis : ∃ o,
    Osculating.ofCartesian (⟨1, 0, 0⟩ : Vec3 ℝ) ⟨0, 0, 1⟩ 2 = .ok o ∧ o.eccentricity = 1 / 2 ∧ o.trueAnomaly = π ∧
      Anomalies (1 / 2) π o.eccentricAnomaly o.meanAnomaly ∧ Anomalies (1 / 2) π π π := by
  obtain ⟨hr, -, hh, -⟩ := norms_of_upward zero_lt_one (zero_lt_one' ℝ)
  obtain ⟨-, hvec, he⟩ := boundElements_at_apsis (r := ⟨1, 0, 0⟩) (v := ⟨0, 0, 1⟩) (k := -1 / 2) two_pos
    (by norm_num [Vec3.dot_def]) (by rw [hr]; norm_num [Vec3.dot_def]) (by rw [hh]; norm_num) (by rw [hr]; norm_num)
    (by rw [hr]; norm_num)
  have he' : (eccentricityVector ⟨1, 0, 0⟩ ⟨0, 0, 1⟩ (2 : ℝ)).norm = 1 / 2 := by
    rw [hr] at he
    exact he.trans (by norm_num)
  have hν : (readOff ⟨1, 0, 0⟩ ⟨0, 0, 1⟩ (2 : ℝ)).trueAnomaly = π := by
    -- the body is on the other side of the focus than the periapsis, and neither climbs nor falls
    have hangle : (readOff ⟨1, 0, 0⟩ ⟨0, 0, 1⟩ (2 : ℝ)).trueAnomaly = Osculating.angleOf (-1) false := by
      refine (if_pos (by rw [he']; norm_num)).trans ?_
      rw [he', hr, hvec]
      norm_num [Vec3.scale_def, Vec3.dot_def]
    rw [hangle, angleOf_eq le_rfl (by norm_num), if_neg Bool.false_ne_true, arccos_neg_one]
  have hok : Osculating.ofCartesian (⟨1, 0, 0⟩ : Vec3 ℝ) ⟨0, 0, 1⟩ 2 = .ok (readOff ⟨1, 0, 0⟩ ⟨0, 0, 1⟩ 2) :=
    ofCartesian_eq_ok_iff.mpr ⟨by rw [hh]; norm_num, by rw [hr]; norm_num, rfl⟩
  obtain ⟨htrue, -, hread⟩ := anomalies_correspond (e := 1 / 2) (by norm_num) (by norm_num)
  have hπ := pi_pos
  have hplace := htrue π ⟨hπ.le, by linarith⟩
  have hE : eccentricOfTrue π (1 / 2) = π := by
    obtain ⟨hc, hs⟩ := eccentricOfTrue_ratios (e := 1 / 2) (by norm_num) (by norm_num) π
    rw [cos_pi] at hc hs
    rw [sin_pi] at hs
    refine eq_of_coe_eq hplace.eccentric_mem hplace.true_mem (Angle.cos_sin_inj ?_ ?_)
    · rw [cos_pi]
      linarith
    · rw [sin_pi]
      linarith
  rw [hE, sin_pi, mul_zero, sub_zero] at hplace
  have hstate := hread _ _ 2 _ two_ne_zero hok he'
  rw [hν] at hstate
  exact ⟨_, hok, he', hν, hstate, hplace⟩

end States

end OrbitFit
