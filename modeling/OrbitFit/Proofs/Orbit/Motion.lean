import OrbitFit.Proofs.Orbit.ReadOff

/-!
# OrbitFit.Proofs.Orbit.Motion — one closed-form motion

Motion reads the elements off a state, advances some of them and goes back to a state.  Kepler's equation is
solved exactly.

* `boundElements_eq_ok_iff`: the states that are accepted.
* `coe_anomalyAfter`, `coe_meanAnomaly_readOff`: the anomalies of a motion, up to whole turns.
* `comesBack_iff`: which states come back from their elements and stay where they are in no time.
-/

open Real

namespace OrbitFit

open Osculating (eccentricityVector readOff)

variable {r v : Vec3 ℝ} {mu : ℝ}

/-! ## The states that are accepted -/

section Accepted

/-- The checks of a state, in order. -/
theorem boundElements_eq (r v : Vec3 ℝ) (mu : ℝ) : boundElements r v mu =
    if ¬ 0 < mu then .error (.gravitation mu)
    else if (r.cross v).norm < 1e-12 ∨ r.norm < 1e-12 then .error .degenerateState
    else if 1 ≤ (eccentricityVector r v mu).norm then .error (.unboundOrbit (eccentricityVector r v mu).norm)
    else .ok (readOff r v mu) := by
  have hecc : (readOff r v mu).eccentricity = (eccentricityVector r v mu).norm := rfl
  unfold boundElements Osculating.ofCartesian
  by_cases hmu : 0 < mu
  · by_cases hdeg : (r.cross v).norm < 1e-12 ∨ r.norm < 1e-12
    · simp [hmu, hdeg, Vec3.isFinite, bind, Except.bind]
    · simp [hmu, hdeg, Vec3.isFinite, bind, Except.bind, hecc, Scalar.one_real]
      rfl
  · simp [hmu]

/-- **An accepted state** spans a plane, is off the focus, and lies on an ellipse. -/
theorem boundElements_eq_ok_iff {o : Osculating ℝ} : boundElements r v mu = .ok o ↔
    0 < mu ∧ 1e-12 ≤ (r.cross v).norm ∧ 1e-12 ≤ r.norm ∧ (eccentricityVector r v mu).norm < 1 ∧
      o = readOff r v mu := by
  rw [boundElements_eq]
  split_ifs with h1 h2 h3
  · exact iff_of_false nofun (by grind)
  · exact iff_of_false nofun (by grind)
  · simp only [Except.ok.injEq]
    push Not at h2 h3
    exact ⟨fun h => ⟨h1, h2.1, h2.2, h3, h.symm⟩, fun h => h.2.2.2.2.symm⟩
  · simp [h1]

theorem boundElements_degenerate (hmu : 0 < mu) (hr : r.norm < 1e-12) :
    boundElements r v mu = .error .degenerateState := by
  rw [boundElements_eq, if_neg (not_not.mpr hmu), if_pos (Or.inr hr)]

/-- A state at an end of its ellipse. -/
theorem boundElements_at_apsis {k : ℝ} (hmu : 0 < mu) (h : r.dot v = 0)
    (hk : v.dot v - mu / r.norm = mu * k) (hh : 1e-12 ≤ (r.cross v).norm) (hr : 1e-12 ≤ r.norm)
    (h1 : |k| * r.norm < 1) :
    boundElements r v mu = .ok (readOff r v mu) ∧ eccentricityVector r v mu = Vec3.scale k r ∧
      (readOff r v mu).eccentricity = |k| * r.norm := by
  have hvec := eccentricityVector_of_dot_eq_zero h hk hmu.ne'
  have he : (eccentricityVector r v mu).norm = |k| * r.norm := by
    rw [hvec, Vec3.norm_scale_abs]
  exact ⟨boundElements_eq_ok_iff.mpr ⟨hmu, hh, hr, he.trans_lt h1, rfl⟩, hvec, he⟩

/-- A state at an apsis is accepted up to the speed of escape. -/
theorem exists_boundElements_at_apsis (hmu : 0 < mu) (h : r.dot v = 0) (hh : 1e-12 ≤ (r.cross v).norm)
    (hr : 1e-12 ≤ r.norm) (hescape : r.norm * v.dot v < 2 * mu) : ∃ o, boundElements r v mu = .ok o := by
  have hr0 := pos_of_tolerance_le hr
  have hv : 0 < v.dot v := by
    refine lt_of_le_of_ne (Vec3.dot_self_nonneg v) fun h0 => (pos_of_tolerance_le hh).ne' ?_
    rw [Vec3.norm_def, Vec3.cross_dot_cross, ← h0, h]
    norm_num
  have hk : (v.dot v - mu / r.norm) / mu * r.norm = r.norm * v.dot v / mu - 1 := by
    field_simp
  have hlow : 0 < r.norm * v.dot v / mu := by positivity
  have hhigh : r.norm * v.dot v / mu < 2 := (div_lt_iff₀ hmu).mpr hescape
  have habs : |(v.dot v - mu / r.norm) / mu| * r.norm < 1 := calc
    |(v.dot v - mu / r.norm) / mu| * r.norm = |r.norm * v.dot v / mu - 1| := by
      rw [← hk, abs_mul, abs_of_pos hr0]
    _ < 1 := abs_lt.mpr ⟨by linarith, by linarith⟩
  exact ⟨_, (boundElements_at_apsis hmu h (mul_div_cancel₀ _ hmu.ne').symm hh hr habs).1⟩

/-- A state that crosses the first axis upward. -/
theorem norms_of_upward {x w : ℝ} (hx : 0 < x) (hw : 0 < w) :
    (⟨x, 0, 0⟩ : Vec3 ℝ).norm = x ∧ (⟨0, 0, w⟩ : Vec3 ℝ).norm = w ∧
      (Vec3.cross ⟨x, 0, 0⟩ ⟨0, 0, w⟩ : Vec3 ℝ).norm = x * w ∧ (nodeVector ⟨x, 0, 0⟩ ⟨0, 0, w⟩).norm = x * w := by
  have hxw := mul_pos hx hw
  refine ⟨?_, ?_, ?_, ?_⟩
  · refine Vec3.norm_eq_of_sq hx.le ?_
    simp only [Vec3.dot_def]
    ring
  · refine Vec3.norm_eq_of_sq hw.le ?_
    simp only [Vec3.dot_def]
    ring
  · refine Vec3.norm_eq_of_sq hxw.le ?_
    simp only [Vec3.cross_def, Vec3.dot_def]
    ring
  · refine Vec3.norm_eq_of_sq hxw.le ?_
    rw [nodeVector_eq]
    simp only [Vec3.cross_def, Vec3.dot_def]
    ring

/-- A state that crosses the first axis upward is accepted below the speed of escape. -/
theorem exists_boundElements_upward {x w : ℝ} (hmu : 0 < mu) (hx : 1e-12 ≤ x) (hw : 0 < w) (hh : 1e-12 ≤ x * w)
    (hescape : x * w ^ 2 < 2 * mu) : ∃ o, boundElements ⟨x, 0, 0⟩ ⟨0, 0, w⟩ mu = .ok o := by
  obtain ⟨hr, hv, hcross, -⟩ := norms_of_upward (pos_of_tolerance_le hx) hw
  refine exists_boundElements_at_apsis hmu (by simp [Vec3.dot_def]) (by rwa [hcross]) (by rwa [hr]) ?_
  rwa [hr, ← Vec3.norm_sq, hv]

end Accepted

/-! ## The anomalies of a motion -/

section Anomalies

variable {o : Osculating ℝ}

/-- Kepler's equation is solved at the mean anomaly reached, whole turns aside. -/
theorem coe_anomalyAfter (h0 : 0 ≤ o.eccentricity) (h1 : o.eccentricity < 1) (dt mu : ℝ) :
    ((anomalyAfter keplerRoot o dt mu : ℝ) : Angle) =
      (trueOfEccentric (keplerRoot (o.meanAnomaly + meanMotion o.axis.toScalar mu * dt) o.eccentricity)
        o.eccentricity : ℝ) := by
  have hlow : -1 < o.eccentricity := by linarith
  unfold anomalyAfter
  rw [Scalar.two_real]
  exact coe_trueOfEccentric_congr hlow h1 (coe_keplerRoot_congr hlow h1 (coe_floorMod _))

/-- A motion can start at any elements that agree up to whole turns. -/
theorem anomalyAfter_congr {o' : Osculating ℝ} {dt dt' : ℝ} (he : o.eccentricity = o'.eccentricity)
    (hm : ((o.meanAnomaly + meanMotion o.axis.toScalar mu * dt : ℝ) : Angle) =
      ((o'.meanAnomaly + meanMotion o'.axis.toScalar mu * dt' : ℝ) : Angle)) :
    anomalyAfter keplerRoot o dt mu = anomalyAfter keplerRoot o' dt' mu := by
  unfold anomalyAfter
  rw [Scalar.two_real]
  have h := floorMod_eq_of_coe_eq hm
  simp only [Scalar.pi_real] at h ⊢
  rw [h, he]

/-- The eccentric anomaly read off an ellipse is that of its true anomaly. -/
theorem eccentricAnomaly_readOff (h : (eccentricityVector r v mu).norm < 1) :
    (readOff r v mu).eccentricAnomaly =
      eccentricOfTrue (readOff r v mu).trueAnomaly (eccentricityVector r v mu).norm := by
  have hlt : (eccentricityVector r v mu).norm < 1.0 := by rwa [Scalar.one_real]
  exact if_pos hlt

/-- The mean anomaly read off a state is that of its true anomaly. -/
theorem meanAnomaly_readOff (h : (eccentricityVector r v mu).norm < 1) :
    (readOff r v mu).meanAnomaly =
      eccentricOfTrue (readOff r v mu).trueAnomaly (eccentricityVector r v mu).norm
        - (eccentricityVector r v mu).norm *
          sin (eccentricOfTrue (readOff r v mu).trueAnomaly (eccentricityVector r v mu).norm) := by
  have hlt : (eccentricityVector r v mu).norm < 1.0 := by rwa [Scalar.one_real]
  rw [← eccentricAnomaly_readOff h]
  exact if_pos hlt

/-- In no time the true anomaly stays. -/
theorem coe_anomalyAfter_zero (h : (eccentricityVector r v mu).norm < 1) :
    ((anomalyAfter keplerRoot (readOff r v mu) 0 mu : ℝ) : Angle) = (readOff r v mu).trueAnomaly := by
  have h0 := Vec3.norm_nonneg (eccentricityVector r v mu)
  have hecc : (readOff r v mu).eccentricity = (eccentricityVector r v mu).norm := rfl
  have hlow : -1 < (eccentricityVector r v mu).norm := by linarith
  rw [coe_anomalyAfter h0 h, mul_zero, add_zero, hecc, keplerRoot_unique hlow h (meanAnomaly_readOff h).symm]
  exact coe_trueOfEccentric_eccentricOfTrue hlow h _

/-- **The mean anomaly read off a state is the one reached**, whole turns aside. -/
theorem coe_meanAnomaly_readOff {m e : ℝ} (he : (eccentricityVector r v mu).norm = e) (h1 : e < 1)
    (hν : ((readOff r v mu).trueAnomaly : Angle) = (trueOfEccentric (keplerRoot m e) e : ℝ)) :
    ((readOff r v mu).meanAnomaly : Angle) = m := by
  have h0 : 0 ≤ e := he ▸ Vec3.norm_nonneg _
  -- the half-angle formulas take the anomaly back to the root, which has the mean anomaly
  have hE : ((eccentricOfTrue (readOff r v mu).trueAnomaly e : ℝ) : Angle) = keplerRoot m e := by
    rw [← coe_eccentricOfTrue_trueOfEccentric (by linarith) h1 (keplerRoot m e), eccentricOfTrue_eq,
      eccentricOfTrue_eq]
    exact coe_trueOfEccentric_congr (by linarith) (by linarith) hν
  have hM := meanAnomaly_readOff (he.trans_lt h1)
  rw [he] at hM
  rw [hM, coe_mean_congr e hE, keplerRoot_spec]

end Anomalies

/-! ## One motion -/

section OneMotion

/-- The elements advanced for `dt` seconds: those that a motion goes back to a state from. -/
noncomputable def advanced (o : Osculating ℝ) (dt mu j2 : ℝ) : Elements ℝ :=
  o.moved (o.node + nodeRate o mu j2 * dt) (o.periapsis + periapsisRate o mu j2 * dt)
    (anomalyAfter keplerRoot o dt mu)

theorem keplerMotionWith_of_ok {α : Type} [Scalar α] {r v : Vec3 α} {mu : α} {o : Osculating α}
    (h : boundElements r v mu = .ok o) (solve : α → α → α) (dt : α) : keplerMotionWith solve r v dt mu =
      .ok ((o.moved o.node o.periapsis (anomalyAfter solve o dt mu)).toCartesian mu) := by
  unfold keplerMotionWith
  rw [h]
  rfl

theorem j2MotionWith_of_ok {α : Type} [Scalar α] {r v : Vec3 α} {mu : α} {o : Osculating α}
    (h : boundElements r v mu = .ok o) (solve : α → α → α) (dt j2 : α) : j2MotionWith solve r v dt mu j2 =
      .ok ((o.moved (o.node + nodeRate o mu j2 * dt) (o.periapsis + periapsisRate o mu j2 * dt)
        (anomalyAfter solve o dt mu)).toCartesian mu) := by
  unfold j2MotionWith
  rw [h]
  rfl

/-- A motion fails by its initial state only, whatever solves Kepler's equation. -/
theorem motion_eq_error_iff {α : Type} [Scalar α] (solve : α → α → α) (r v : Vec3 α) (dt mu j2 : α) (fault : Fault α) :
    (keplerMotionWith solve r v dt mu = .error fault ↔ boundElements r v mu = .error fault) ∧
      (j2MotionWith solve r v dt mu j2 = .error fault ↔ boundElements r v mu = .error fault) := by
  cases hb : boundElements r v mu with
  | error cause => simp only [keplerMotionWith, j2MotionWith, hb, bind, Except.bind, Except.error.injEq, and_self]
  | ok o =>
    rw [keplerMotionWith_of_ok hb, j2MotionWith_of_ok hb]
    exact ⟨iff_of_false nofun nofun, iff_of_false nofun nofun⟩

theorem j2Motion_of_ok {o : Osculating ℝ} (h : boundElements r v mu = .ok o) (dt j2 : ℝ) :
    j2MotionWith keplerRoot r v dt mu j2 = .ok ((advanced o dt mu j2).toCartesian mu) :=
  j2MotionWith_of_ok h keplerRoot dt j2

/-- Without oblateness nothing turns. -/
theorem keplerMotion_eq_j2Motion (solve : ℝ → ℝ → ℝ) (r v : Vec3 ℝ) (dt mu : ℝ) :
    keplerMotionWith solve r v dt mu = j2MotionWith solve r v dt mu 0 := by
  have hfactor : ∀ o : Osculating ℝ, j2Factor o mu 0 = 0 := fun o => by
    simp [j2Factor]
  unfold keplerMotionWith j2MotionWith
  simp only [nodeRate, periapsisRate, hfactor, neg_zero, zero_mul, add_zero]

theorem advanced_zero (h : (eccentricityVector r v mu).norm < 1) (j2 : ℝ) :
    (advanced (readOff r v mu) 0 mu j2).SameUpToTurns (readOff r v mu).elements := by
  refine ⟨rfl, rfl, rfl, ?_, ?_, coe_anomalyAfter_zero h⟩
  · show ((_ + _ * 0 : ℝ) : Angle) = _
    rw [mul_zero, add_zero]
    rfl
  · show ((_ + _ * 0 : ℝ) : Angle) = _
    rw [mul_zero, add_zero]
    rfl

theorem motion_zero {o : Osculating ℝ} (h : boundElements r v mu = .ok o) (j2 : ℝ) :
    j2MotionWith keplerRoot r v 0 mu j2 = .ok (o.elements.toCartesian mu) := by
  rw [j2Motion_of_ok h]
  obtain ⟨-, -, -, hlt, rfl⟩ := boundElements_eq_ok_iff.mp h
  rw [(advanced_zero hlt j2).toCartesian_eq mu]

/-- **A state comes back from its elements**, and stays where it is in no time, if and only if it is
recoverable: an orbit in the equator with its periapsis off the first axis does not, and a circle in the equator
run westward does not. -/
theorem comesBack_iff {o : Osculating ℝ} (h : boundElements r v mu = .ok o) (hell : o.eccentricity < 1 - 1e-10)
    (hapse : o.eccentricity = 0 ∨ 1e-12 < o.eccentricity)
    (hnode : nodeVector r v = 0 ∨ 1e-12 < (nodeVector r v).norm) :
    (o.elements.toCartesian mu = (r, v) ↔ Recoverable r v mu) ∧
      (keplerMotionWith keplerRoot r v 0 mu = .ok (r, v) ↔ Recoverable r v mu) := by
  have hzero := motion_zero h 0
  obtain ⟨hmu, hh, hr, -, rfl⟩ := boundElements_eq_ok_iff.mp h
  have hR : Regular r v mu :=
    ⟨hmu, lt_of_lt_of_le (by norm_num) hr, lt_of_lt_of_le (by norm_num) hh, hell, hapse,
      hnode.imp_left Vec3.norm_eq_zero.mpr⟩
  refine ⟨hR.toCartesian_eq_iff, ?_⟩
  rw [keplerMotion_eq_j2Motion, hzero, Except.ok.injEq]
  exact hR.toCartesian_eq_iff

/-- A state at the periapsis has no anomaly. -/
theorem trueAnomaly_at_periapsis {k : ℝ} (h : r.dot v = 0) (hvec : eccentricityVector r v mu = Vec3.scale k r)
    (hk : 0 < k) (hr : 0 < r.norm) (he : 1e-12 < (eccentricityVector r v mu).norm) :
    (readOff r v mu).trueAnomaly = 0 := by
  have hnorm : (eccentricityVector r v mu).norm = k * r.norm := by
    rw [hvec, Vec3.norm_scale_abs, abs_of_pos hk]
  have hcosine : (eccentricityVector r v mu).dot r / ((eccentricityVector r v mu).norm * r.norm) = 1 := by
    rw [hnorm, hvec, Vec3.scale_dot, ← Vec3.norm_sq]
    field_simp
  show Osculating.anomalyOf _ _ _ _ _ = 0
  unfold Osculating.anomalyOf
  rw [if_pos he, hcosine, angleOf_eq (by norm_num) le_rfl, h]
  simp

/-- At the periapsis Newton's iteration starts at the root, unless the ellipse is long, and does not leave it. -/
theorem eccentricAnomaly_zero {e : ℝ} (he : e < 0.8) : eccentricAnomaly 0 e = 0 := by
  have hstart : keplerStart 0 e = 0 := by
    simp [keplerStart, he, Scalar.sign]
  have htolerance : (0 : ℝ) < 1e-12 := by norm_num
  unfold eccentricAnomaly solveKepler iterateKepler
  simp [hstart, keplerStep, htolerance]

theorem eccentricOfTrue_zero (e : ℝ) : eccentricOfTrue 0 e = 0 := by
  have harg : Complex.arg ⟨√(1.0 + e), 0⟩ = 0 := Complex.arg_eq_zero_iff.mpr ⟨sqrt_nonneg _, rfl⟩
  simp [eccentricOfTrue, harg]

/-- **At the periapsis the iteration loses nothing**: a state there stays where it is in no time. -/
theorem motion_at_periapsis {k : ℝ} {o : Osculating ℝ} (hb : boundElements r v mu = .ok o) (h : r.dot v = 0)
    (hvec : eccentricityVector r v mu = Vec3.scale k r) (hk : 0 < k) (hshort : o.eccentricity < 0.8)
    (hapse : 1e-12 < o.eccentricity) (hnode : 1e-12 < (nodeVector r v).norm) (j2 : ℝ) :
    j2MotionWith eccentricAnomaly r v 0 mu j2 = .ok (r, v) := by
  have hback := (comesBack_iff hb (by linarith) (Or.inr hapse) (Or.inr hnode)).2.mpr (Or.inl (ne_zero_of_tolerance hnode))
  obtain ⟨-, -, hr, hlt, rfl⟩ := boundElements_eq_ok_iff.mp hb
  have hmean : (readOff r v mu).meanAnomaly = 0 := by
    rw [meanAnomaly_readOff hlt, trueAnomaly_at_periapsis h hvec hk (pos_of_tolerance_le hr) hapse,
      eccentricOfTrue_zero, sin_zero, mul_zero, sub_zero]
  have hlow : -1 < (readOff r v mu).eccentricity := lt_trans (by norm_num) hapse
  -- the only anomaly that is solved for is zero, where the iteration agrees with the root
  have hsolved : anomalyAfter eccentricAnomaly (readOff r v mu) 0 mu = anomalyAfter keplerRoot (readOff r v mu) 0 mu := by
    unfold anomalyAfter
    simp only [hmean, mul_zero, add_zero, Scalar.floorMod_real, zero_div, Int.floor_zero, Int.cast_zero, sub_zero]
    rw [eccentricAnomaly_zero hshort, keplerRoot_zero hlow hlt]
  rw [keplerMotionWith_of_ok hb] at hback
  rw [j2MotionWith_of_ok hb, hsolved, mul_zero, mul_zero, add_zero, add_zero]
  exact hback

/-- A state over the poles at the periapsis of its ellipse. -/
theorem motion_upward (j2 : ℝ) :
    j2MotionWith eccentricAnomaly ⟨1, 0, 0⟩ ⟨0, 0, 1.25⟩ 0 1 j2 = .ok (⟨1, 0, 0⟩, ⟨0, 0, 1.25⟩) := by
  obtain ⟨hr, -, hh, hn⟩ := norms_of_upward zero_lt_one (show (0 : ℝ) < 1.25 by norm_num)
  obtain ⟨hok, hvec, he⟩ := boundElements_at_apsis (r := ⟨1, 0, 0⟩) (v := ⟨0, 0, 1.25⟩) (k := 9 / 16) zero_lt_one
    (by norm_num [Vec3.dot_def]) (by rw [hr]; norm_num [Vec3.dot_def]) (by rw [hh]; norm_num) (by rw [hr]; norm_num)
    (by rw [hr]; norm_num)
  rw [hr] at he
  exact motion_at_periapsis hok (by norm_num [Vec3.dot_def]) hvec (by norm_num) (by rw [he]; norm_num)
    (by rw [he]; norm_num) (by rw [hn]; norm_num) j2

/-- An inclined ellipse comes back. -/
theorem comesBack_inclined : ∃ o : Osculating ℝ, boundElements ⟨1, 0, 0⟩ ⟨0, 0, 6 / 5⟩ 1 = .ok o ∧
    o.elements.toCartesian 1 = (⟨1, 0, 0⟩, ⟨0, 0, 6 / 5⟩) ∧
    keplerMotionWith keplerRoot ⟨1, 0, 0⟩ ⟨0, 0, 6 / 5⟩ 0 1 = .ok (⟨1, 0, 0⟩, ⟨0, 0, 6 / 5⟩) := by
  obtain ⟨hr, -, hh, hn⟩ := norms_of_upward zero_lt_one (show (0 : ℝ) < 6 / 5 by norm_num)
  obtain ⟨hok, -, he⟩ := boundElements_at_apsis (r := ⟨1, 0, 0⟩) (v := ⟨0, 0, 6 / 5⟩) (k := 11 / 25)
    zero_lt_one (by norm_num [Vec3.dot_def]) (by rw [hr]; norm_num [Vec3.dot_def]) (by rw [hh]; norm_num)
    (by rw [hr]; norm_num) (by rw [hr]; norm_num)
  rw [hr] at he
  have hnode : 1e-12 < (nodeVector ⟨1, 0, 0⟩ ⟨0, 0, 6 / 5⟩).norm := by
    rw [hn]
    norm_num
  have hrec : Recoverable ⟨1, 0, 0⟩ ⟨0, 0, 6 / 5⟩ (1 : ℝ) := Or.inl (ne_zero_of_tolerance hnode)
  obtain ⟨hback, hstay⟩ :=
    comesBack_iff hok (by rw [he]; norm_num) (Or.inr (by rw [he]; norm_num)) (Or.inr hnode)
  exact ⟨_, hok, hback.mpr hrec, hstay.mpr hrec⟩

/-- An ellipse in the equator run eastward from its periapsis on the second axis does not come back. -/
theorem not_comesBack_equator : ∃ o : Osculating ℝ, boundElements ⟨0, 1, 0⟩ ⟨-6 / 5, 0, 0⟩ 1 = .ok o ∧
    o.eccentricity = 11 / 25 ∧ nodeVector ⟨0, 1, 0⟩ ⟨-6 / 5, 0, 0⟩ = 0 ∧
    o.elements.toCartesian 1 ≠ (⟨0, 1, 0⟩, ⟨-6 / 5, 0, 0⟩) ∧
    keplerMotionWith keplerRoot ⟨0, 1, 0⟩ ⟨-6 / 5, 0, 0⟩ 0 1 ≠ .ok (⟨0, 1, 0⟩, ⟨-6 / 5, 0, 0⟩) := by
  have hr : (⟨0, 1, 0⟩ : Vec3 ℝ).norm = 1 := Vec3.norm_eq_of_sq zero_le_one (by norm_num [Vec3.dot_def])
  have hh : (Vec3.cross ⟨0, 1, 0⟩ ⟨-6 / 5, 0, 0⟩ : Vec3 ℝ).norm = 6 / 5 :=
    Vec3.norm_eq_of_sq (by norm_num) (by norm_num [Vec3.cross_def, Vec3.dot_def])
  have hn : nodeVector ⟨0, 1, 0⟩ ⟨-6 / 5, 0, 0⟩ = 0 := by
    rw [nodeVector_eq, Vec3.zero_def]
    norm_num [Vec3.cross_def]
  obtain ⟨hok, hvec, he⟩ := boundElements_at_apsis (r := ⟨0, 1, 0⟩) (v := ⟨-6 / 5, 0, 0⟩) (k := 11 / 25)
    zero_lt_one (by norm_num [Vec3.dot_def]) (by rw [hr]; norm_num [Vec3.dot_def]) (by rw [hh]; norm_num)
    (by rw [hr]; norm_num) (by rw [hr]; norm_num)
  have hzero := motion_zero hok 0
  rw [← keplerMotion_eq_j2Motion] at hzero
  have he' : (eccentricityVector ⟨0, 1, 0⟩ ⟨-6 / 5, 0, 0⟩ (1 : ℝ)).norm = 11 / 25 := by
    rw [hr] at he
    exact he.trans (by norm_num)
  have hR : Regular ⟨0, 1, 0⟩ ⟨-6 / 5, 0, 0⟩ (1 : ℝ) :=
    ⟨zero_lt_one, by rw [hr]; norm_num, by rw [hh]; norm_num, by rw [he']; norm_num,
      Or.inr (by rw [he']; norm_num), Or.inl (Vec3.norm_eq_zero.mpr hn)⟩
  have hnot : ¬ Recoverable ⟨0, 1, 0⟩ ⟨-6 / 5, 0, 0⟩ (1 : ℝ) := by
    unfold Recoverable
    rw [hn, hvec, Vec3.scale_def, Vec3.zero_def]
    norm_num
  have hne := hnot ∘ hR.toCartesian_eq_iff.mp
  refine ⟨_, hok, he', hn, hne, ?_⟩
  rw [hzero]
  exact fun h => hne (Except.ok.inj h)

end OneMotion

end OrbitFit
