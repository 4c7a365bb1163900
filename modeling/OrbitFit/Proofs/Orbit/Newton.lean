import OrbitFit.Proofs.Orbit.Angle

/-!
# OrbitFit.Proofs.Orbit.Newton — Newton's iteration on Kepler's equation

A step of the iteration goes to where the tangent of `x - e * sin x - m` meets zero.  What is left over there is how
far the sine has left its own tangent, which is of second order in the step; so a small last step bounds what the
answer misses the equation by, and with it the distance to the root.

* `tangent_le_of_convexOn`, `abs_sin_sub_tangent_le`: a convex function and the sine against their tangents.
* `NewtonStep.residual_eq`: what is left over after a step.
* `keplerRun_solveKepler`: the answer is an iterate, and when the loop says that it has converged.
* `keplerIterate_mirror`: mean anomalies on the two sides of half a turn have mirrored iterates.
* `converged_residual_le`: what an answer misses the equation and the root by.
-/

open Real

namespace OrbitFit

/-! ## Tangents -/

section Tangents

/-- A convex function is above its tangents. -/
theorem tangent_le_of_convexOn {S : Set ℝ} {f : ℝ → ℝ} {f' x y : ℝ} (hf : ConvexOn ℝ S f) (hx : x ∈ S) (hy : y ∈ S)
    (hd : HasDerivAt f f' x) : f x + f' * (y - x) ≤ f y := by
  rcases lt_trichotomy x y with hxy | rfl | hyx
  · have hslope := hf.le_slope_of_hasDerivAt hx hy hxy hd
    rw [slope_def_field, le_div_iff₀ (sub_pos.mpr hxy)] at hslope
    linarith
  · rw [sub_self, mul_zero, add_zero]
  · have hslope := hf.slope_le_of_hasDerivAt hy hx hyx hd
    rw [slope_def_field, div_le_iff₀ (sub_pos.mpr hyx)] at hslope
    linarith

theorem hasDerivAt_sq_add_sin (c t : ℝ) : HasDerivAt (fun t => t ^ 2 / 2 + c * sin t) (t + c * cos t) t := by
  have hsq : HasDerivAt (fun t : ℝ => t ^ 2 / 2) t t := by
    simpa using (hasDerivAt_pow 2 t).div_const 2
  exact hsq.add ((hasDerivAt_sin t).const_mul c)

/-- A parabola outweighs the sine. -/
theorem convexOn_sq_add_sin {c : ℝ} (hc : |c| ≤ 1) : ConvexOn ℝ Set.univ fun t => t ^ 2 / 2 + c * sin t := by
  refine Monotone.convexOn_univ_of_deriv (fun t => (hasDerivAt_sq_add_sin c t).differentiableAt) fun s t hst => ?_
  rw [(hasDerivAt_sq_add_sin c s).deriv, (hasDerivAt_sq_add_sin c t).deriv]
  have hcos : |c * (cos t - cos s)| ≤ t - s := calc
    |c * (cos t - cos s)| = |c| * |cos t - cos s| := abs_mul _ _
    _ ≤ 1 * |t - s| := mul_le_mul hc (abs_cos_sub_cos_le t s) (abs_nonneg _) zero_le_one
    _ = t - s := by rw [one_mul, abs_of_nonneg (sub_nonneg.mpr hst)]
  linarith [neg_abs_le (c * (cos t - cos s))]

/-- **The sine leaves its tangent in second order.** -/
theorem abs_sin_sub_tangent_le (x y : ℝ) : |sin y - sin x - cos x * (y - x)| ≤ (y - x) ^ 2 / 2 := by
  -- the parabola with the sine added to it is above its tangents, and so is the one with the sine taken away
  have hside : ∀ c : ℝ, |c| ≤ 1 → -(c * (sin y - sin x - cos x * (y - x))) ≤ (y - x) ^ 2 / 2 := fun c hc => by
    have htangent :=
      tangent_le_of_convexOn (convexOn_sq_add_sin hc) (Set.mem_univ x) (Set.mem_univ y) (hasDerivAt_sq_add_sin c x)
    linarith
  rw [abs_le]
  constructor
  · linarith [hside 1 (by simp)]
  · linarith [hside (-1) (by simp)]

end Tangents

/-! ## The equation -/

section Equation

variable {m e x y : ℝ}

/-- By how much a point misses Kepler's equation. -/
noncomputable def keplerResidual (m e x : ℝ) : ℝ := x - e * sin x - m

theorem keplerResidual_root (m e : ℝ) : keplerResidual m e (keplerRoot m e) = 0 :=
  sub_eq_zero.mpr (keplerRoot_spec m e)

theorem eq_keplerRoot_iff (h0 : 0 ≤ e) (h1 : e < 1) (E : ℝ) : E - e * sin E = m ↔ E = keplerRoot m e := by
  constructor
  · exact fun h => (keplerRoot_unique (by linarith) h1 h).symm
  · rintro rfl
    exact keplerRoot_spec m e

/-- The residual grows with the anomaly, at least by the rate that it has at the periapsis. -/
theorem mul_sub_le_residual (h0 : 0 ≤ e) (hxy : x ≤ y) :
    (1 - e) * (y - x) ≤ keplerResidual m e y - keplerResidual m e x := by
  have hsin : sin y - sin x ≤ y - x := calc
    sin y - sin x ≤ |sin y - sin x| := le_abs_self _
    _ ≤ |y - x| := abs_sin_sub_sin_le y x
    _ = y - x := abs_of_nonneg (sub_nonneg.mpr hxy)
  have hmul : e * (sin y - sin x) ≤ e * (y - x) := mul_le_mul_of_nonneg_left hsin h0
  unfold keplerResidual
  linarith

/-- A point is no farther from the root than its residual allows. -/
theorem mul_abs_sub_root_le (h0 : 0 ≤ e) (m x : ℝ) : (1 - e) * |x - keplerRoot m e| ≤ |keplerResidual m e x| := by
  have hroot := keplerResidual_root m e
  rcases le_total (keplerRoot m e) x with h | h
  · rw [abs_of_nonneg (sub_nonneg.mpr h)]
    have hgrow := mul_sub_le_residual (m := m) h0 h
    linarith [le_abs_self (keplerResidual m e x)]
  · rw [abs_of_nonpos (sub_nonpos.mpr h)]
    have hgrow := mul_sub_le_residual (m := m) h0 h
    linarith [neg_abs_le (keplerResidual m e x)]

/-- The residual by its tangent, and by how far the sine has left its own. -/
theorem keplerResidual_eq_tangent (m e x y : ℝ) : keplerResidual m e y =
    keplerResidual m e x + (1 - e * cos x) * (y - x) - e * (sin y - sin x - cos x * (y - x)) := by
  unfold keplerResidual
  ring

end Equation

/-! ## One step -/

section Step

variable {m e x y : ℝ}

/-- A step of Newton's method on Kepler's equation, by a divisor that is not zero. -/
structure NewtonStep (m e x y : ℝ) : Prop where
  slope_pos : 0 < 1 - e * cos x
  next_eq : y = x - (x - e * sin x - m) / (1 - e * cos x)

theorem newtonStep_keplerStep (h0 : 0 ≤ e) (h1 : e < 1) (m x : ℝ) : NewtonStep m e x (x + keplerStep m e x) := by
  refine ⟨one_sub_mul_cos_pos (by linarith) h1 x, ?_⟩
  unfold keplerStep
  rw [Scalar.sin_real, Scalar.cos_real, Scalar.one_real, neg_div, ← sub_eq_add_neg]

namespace NewtonStep

variable (h : NewtonStep m e x y)
include h

/-- The tangent meets zero where the step ends. -/
theorem slope_mul : (1 - e * cos x) * (y - x) = -keplerResidual m e x := by
  have hslope := h.slope_pos.ne'
  rw [h.next_eq]
  unfold keplerResidual
  field_simp
  ring

/-- **What is left over after a step** is how far the sine has left its tangent. -/
theorem residual_eq : keplerResidual m e y = -(e * (sin y - sin x - cos x * (y - x))) := by
  rw [keplerResidual_eq_tangent m e x y, h.slope_mul]
  ring

theorem abs_residual_le (h0 : 0 ≤ e) : |keplerResidual m e y| ≤ e * (y - x) ^ 2 / 2 := by
  rw [h.residual_eq, abs_neg, abs_mul, abs_of_nonneg h0, mul_div_assoc]
  exact mul_le_mul_of_nonneg_left (abs_sin_sub_tangent_le x y) h0

end NewtonStep

end Step

/-! ## The run -/

section Run

variable {e : ℝ}

/-- The iterates, from the start of the iteration on. -/
noncomputable def keplerIterate (m e : ℝ) : ℕ → ℝ
  | 0 => keplerStart m e
  | n + 1 => keplerIterate m e n + keplerStep m e (keplerIterate m e n)

theorem newtonStep_keplerIterate (h0 : 0 ≤ e) (h1 : e < 1) (m : ℝ) (n : ℕ) :
    NewtonStep m e (keplerIterate m e n) (keplerIterate m e (n + 1)) :=
  newtonStep_keplerStep h0 h1 m _

/-- What a run of at most `maxSteps` steps answers: the iterate behind the first step below the tolerance, or the last
iterate when all steps are used up. -/
structure KeplerRun (m e tol : ℝ) (maxSteps : ℕ) (s : KeplerSolution ℝ) : Prop where
  anomaly_eq : s.anomaly = keplerIterate m e s.steps
  steps_le : s.steps ≤ maxSteps
  converged_iff : s.converged = true ↔
    ∃ n, s.steps = n + 1 ∧ |keplerIterate m e (n + 1) - keplerIterate m e n| < tol
  before : ∀ n, n + 1 < s.steps → tol ≤ |keplerIterate m e (n + 1) - keplerIterate m e n|
  used_up : s.converged = false → s.steps = maxSteps

/-- A run from an iterate on, when no step before it was below the tolerance. -/
theorem keplerRun_iterateKepler (m e tol : ℝ) (fuel : ℕ) : ∀ steps : ℕ,
    (∀ n < steps, tol ≤ |keplerIterate m e (n + 1) - keplerIterate m e n|) →
      KeplerRun m e tol (steps + fuel) (iterateKepler m e tol (keplerIterate m e steps) steps fuel) := by
  induction fuel with
  | zero =>
    intro steps hbefore
    have hnot : ¬ ∃ n, steps = n + 1 ∧ |keplerIterate m e (n + 1) - keplerIterate m e n| < tol := by
      rintro ⟨n, hn, hlt⟩
      exact (hbefore n (by omega)).not_gt hlt
    exact ⟨rfl, le_rfl, iff_of_false Bool.false_ne_true hnot, fun n hn => hbefore n (lt_trans n.lt_succ_self hn),
      fun _ => rfl⟩
  | succ fuel ih =>
    intro steps hbefore
    have hstep : keplerIterate m e (steps + 1) - keplerIterate m e steps =
        keplerStep m e (keplerIterate m e steps) := add_sub_cancel_left _ _
    unfold iterateKepler
    simp only [Scalar.abs_real]
    -- the step that was just made is the first below the tolerance, or one more that is not
    split_ifs with hsmall
    · have hlast : |keplerIterate m e (steps + 1) - keplerIterate m e steps| < tol := by rwa [hstep]
      exact ⟨rfl, Nat.add_le_add_left fuel.succ_pos steps, iff_of_true rfl ⟨steps, rfl, hlast⟩,
        fun n hn => hbefore n (Nat.lt_of_succ_lt_succ hn), nofun⟩
    · have hrest := ih (steps + 1) fun n hn => by
        rcases Nat.lt_succ_iff_lt_or_eq.mp hn with hlt | rfl
        · exact hbefore n hlt
        · rw [hstep]
          exact not_lt.mp hsmall
      rwa [add_assoc, add_comm 1 fuel] at hrest

/-- **The answer of the solver.** -/
theorem keplerRun_solveKepler (m e tol : ℝ) (maxSteps : ℕ) :
    KeplerRun m e tol maxSteps (solveKepler m e tol maxSteps) := by
  have hrun := keplerRun_iterateKepler m e tol maxSteps 0 nofun
  rwa [zero_add] at hrun

/-- The start mirrored at half a turn. -/
theorem keplerStart_mirror (m e : ℝ) : keplerStart (2 * π - m) e = 2 * π - keplerStart m e := by
  have hsign : Scalar.sign (-sin m) = -Scalar.sign (sin m) := by
    unfold Scalar.sign
    rcases lt_trichotomy (sin m) 0 with hneg | hzero | hpos
    · simp [hneg, hneg.le.not_gt]
    · simp [hzero]
    · simp [hpos, hpos.le.not_gt]
  unfold keplerStart
  simp only [Scalar.sin_real, Scalar.pi_real, sin_two_pi_sub, hsign]
  split_ifs
  · ring
  · ring

theorem keplerStep_mirror (m e x : ℝ) : keplerStep (2 * π - m) e (2 * π - x) = -keplerStep m e x := by
  unfold keplerStep
  simp only [Scalar.sin_real, Scalar.cos_real, sin_two_pi_sub, cos_two_pi_sub]
  rw [← neg_div]
  congr 1
  ring

/-- **Mean anomalies on the two sides of half a turn have mirrored iterates.** -/
theorem keplerIterate_mirror (m e : ℝ) (n : ℕ) : keplerIterate (2 * π - m) e n = 2 * π - keplerIterate m e n := by
  induction n with
  | zero => exact keplerStart_mirror m e
  | succ n ih =>
    unfold keplerIterate
    rw [ih, keplerStep_mirror]
    ring

/-- **An answer that has converged** misses Kepler's equation by the square of the tolerance at most, and the only root
of the equation by as much over the least slope; no divisor of the iteration is zero. -/
theorem converged_residual_le (h0 : 0 ≤ e) (h1 : e < 1) (m : ℝ) :
    (∀ n, NewtonStep m e (keplerIterate m e n) (keplerIterate m e (n + 1))) ∧
      ∃ root, (∀ E, E - e * sin E = m ↔ E = root) ∧ ∀ (tol : ℝ) (maxSteps : ℕ),
        KeplerRun m e tol maxSteps (solveKepler m e tol maxSteps) ∧
        ((solveKepler m e tol maxSteps).converged = true →
          |keplerResidual m e (solveKepler m e tol maxSteps).anomaly| ≤ e * tol ^ 2 / 2 ∧
          |(solveKepler m e tol maxSteps).anomaly - root| ≤ e * tol ^ 2 / (2 * (1 - e))) := by
  refine ⟨newtonStep_keplerIterate h0 h1 m, keplerRoot m e, eq_keplerRoot_iff h0 h1, fun tol maxSteps => ?_⟩
  have hrun := keplerRun_solveKepler m e tol maxSteps
  refine ⟨hrun, fun hconverged => ?_⟩
  obtain ⟨n, hn, hlast⟩ := hrun.converged_iff.mp hconverged
  rw [hrun.anomaly_eq, hn]
  have hsq : (keplerIterate m e (n + 1) - keplerIterate m e n) ^ 2 ≤ tol ^ 2 := by
    rw [← sq_abs]
    exact pow_le_pow_left₀ (abs_nonneg _) hlast.le 2
  have hresidual : |keplerResidual m e (keplerIterate m e (n + 1))| ≤ e * tol ^ 2 / 2 := calc
    _ ≤ e * (keplerIterate m e (n + 1) - keplerIterate m e n) ^ 2 / 2 :=
      (newtonStep_keplerIterate h0 h1 m n).abs_residual_le h0
    _ ≤ e * tol ^ 2 / 2 := by gcongr
  refine ⟨hresidual, ?_⟩
  rw [le_div_iff₀ (by linarith)]
  have hroot := mul_abs_sub_root_le h0 m (keplerIterate m e (n + 1))
  linarith

/-- A quarter of a turn on an ellipse of eccentricity one half: the first step is below a tenth. -/
theorem converged_residual_le_quarter :
    (solveKepler (π / 2) (1 / 2) (1 / 10) 50).converged = true ∧ ∃ root, root - 1 / 2 * sin root = π / 2 ∧
      |keplerResidual (π / 2) (1 / 2) (solveKepler (π / 2) (1 / 2) (1 / 10) 50).anomaly| ≤ 1 / 400 ∧
      |(solveKepler (π / 2) (1 / 2) (1 / 10) 50).anomaly - root| ≤ 1 / 200 := by
  have hstart : keplerStart (π / 2) (1 / 2) = 17 / 40 + π / 2 := by
    unfold keplerStart
    norm_num [Scalar.sign]
    ring
  have hcos : 1 - (17 / 40 : ℝ) ^ 2 / 2 ≤ cos (17 / 40) := one_sub_sq_div_two_le_cos
  have hsin : 0 ≤ sin (17 / 40 : ℝ) := sin_nonneg_of_nonneg_of_le_pi (by norm_num) (by linarith [pi_gt_three])
  have hstep : |keplerStep (π / 2) (1 / 2) (17 / 40 + π / 2)| < 1 / 10 := by
    unfold keplerStep
    rw [Scalar.sin_real, Scalar.cos_real, sin_add_pi_div_two, cos_add_pi_div_two, Scalar.one_real, abs_div,
      div_lt_iff₀ (by rw [abs_pos]; linarith), abs_of_pos (show 0 < 1 - 1 / 2 * -sin (17 / 40 : ℝ) by linarith), abs_lt]
    constructor
    · linarith
    · linarith [cos_le_one (17 / 40 : ℝ)]
  have hconverged : (solveKepler (π / 2) (1 / 2) (1 / 10) 50).converged = true := by
    unfold solveKepler iterateKepler
    simp only [hstart, Scalar.abs_real, if_pos hstep]
  obtain ⟨-, root, hroot, hrun⟩ := converged_residual_le (e := 1 / 2) (by norm_num) (by norm_num) (π / 2)
  obtain ⟨hresidual, hdistance⟩ := (hrun (1 / 10) 50).2 hconverged
  exact ⟨hconverged, root, (hroot root).mpr rfl, hresidual.trans (by norm_num), hdistance.trans (by norm_num)⟩

end Run

end OrbitFit
