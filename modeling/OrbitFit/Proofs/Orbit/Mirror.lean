import OrbitFit.Proofs.Orbit.Newton

/-!
# OrbitFit.Proofs.Orbit.Mirror — both legs of an orbit are solved alike

As long before a periapsis as it was after the last one, a body is at the mirrored place.  The solver of Kepler's
equation keeps to that exactly: the start, every step and the test that stops the loop are the same on both sides of
half a turn, so two mirrored runs stop after the same number of steps with mirrored anomalies, also when they stop only
because their steps are used up.

* `iterateKepler_mirror`: two runs side by side, from mirrored points.
* `coe_trueOfEccentric_mirror`: mirrored eccentric anomalies belong to opposite true ones.
* `solveKepler_mirror`: the two runs of the solver, their iterates and where they put the body.
-/

open Real

namespace OrbitFit

/-! ## Mirrored runs -/

section Runs

/-- The answer whose anomaly is what the one of `s` lacks of a `turn`. -/
noncomputable def KeplerSolution.mirrored (turn : ℝ) (s : KeplerSolution ℝ) : KeplerSolution ℝ :=
  { s with anomaly := turn - s.anomaly }

/-- **Two runs from mirrored points stay mirrored and stop together.** -/
theorem iterateKepler_mirror (m e tol : ℝ) (fuel : ℕ) : ∀ (x : ℝ) (steps : ℕ),
    iterateKepler (2 * π - m) e tol (2 * π - x) steps fuel =
      (iterateKepler m e tol x steps fuel).mirrored (2 * π) := by
  induction fuel with
  | zero => exact fun x steps => rfl
  | succ fuel ih =>
    intro x steps
    have hnext : 2 * π - x + -keplerStep m e x = 2 * π - (x + keplerStep m e x) := by ring
    unfold iterateKepler
    simp only [keplerStep_mirror, hnext, Scalar.abs_real, abs_neg]
    split_ifs
    · rfl
    · exact ih (x + keplerStep m e x) (steps + 1)

end Runs

/-! ## Mirrored places -/

section Places

variable {e : ℝ}

/-- The place on the orbit is mirrored at the line of the apses. -/
theorem coe_trueOfEccentric_mirror (h1 : -1 < e) (h2 : e < 1) (E : ℝ) :
    ((trueOfEccentric (2 * π - E) e : ℝ) : Angle) = -((trueOfEccentric E e : ℝ) : Angle) := by
  obtain ⟨hc, hs⟩ := trueOfEccentric_ratios h1 h2 E
  obtain ⟨hc', hs'⟩ := trueOfEccentric_ratios h1 h2 (2 * π - E)
  rw [cos_two_pi_sub] at hc' hs'
  rw [sin_two_pi_sub] at hs'
  have hpos := (one_sub_mul_cos_pos h1 h2 E).ne'
  rw [← Angle.coe_neg]
  refine Angle.cos_sin_inj ?_ ?_
  · rw [cos_neg]
    exact mul_left_cancel₀ hpos (hc'.trans hc.symm)
  · rw [sin_neg]
    refine mul_left_cancel₀ hpos ?_
    rw [hs', mul_neg, mul_neg, hs]

/-- **The solver treats both legs of an orbit alike**, whether or not it converges: the runs for mirrored mean anomalies
have mirrored iterates, take the same number of steps and end the same way, their answers are mirrored, and the two
bodies are on opposite sides of the line of the apses. -/
theorem solveKepler_mirror (h0 : 0 ≤ e) (h1 : e < 1) (m tol : ℝ) (maxSteps : ℕ) :
    (∀ n, keplerIterate (2 * π - m) e n = 2 * π - keplerIterate m e n) ∧
      KeplerRun m e tol maxSteps (solveKepler m e tol maxSteps) ∧
      KeplerRun (2 * π - m) e tol maxSteps (solveKepler (2 * π - m) e tol maxSteps) ∧
      solveKepler (2 * π - m) e tol maxSteps = (solveKepler m e tol maxSteps).mirrored (2 * π) ∧
      ((trueOfEccentric (solveKepler (2 * π - m) e tol maxSteps).anomaly e : ℝ) : Angle) =
        -((trueOfEccentric (solveKepler m e tol maxSteps).anomaly e : ℝ) : Angle) := by
  have hmirror : solveKepler (2 * π - m) e tol maxSteps = (solveKepler m e tol maxSteps).mirrored (2 * π) := by
    unfold solveKepler
    rw [keplerStart_mirror]
    exact iterateKepler_mirror m e tol maxSteps _ 0
  refine ⟨keplerIterate_mirror m e, keplerRun_solveKepler m e tol maxSteps,
    keplerRun_solveKepler (2 * π - m) e tol maxSteps, hmirror, ?_⟩
  rw [hmirror]
  exact coe_trueOfEccentric_mirror (by linarith) h1 _

/-- One step of each run on an ellipse of eccentricity 0.9, which is far from enough. -/
theorem solveKepler_mirror_unconverged :
    solveKepler (π / 2) (9 / 10) 0 1 = ⟨14 * π / 19, false, 1⟩ ∧
      solveKepler (3 * π / 2) (9 / 10) 0 1 = ⟨24 * π / 19, false, 1⟩ := by
  have hstart : keplerStart (π / 2) (9 / 10) = π := if_neg (by norm_num)
  have hstep : π + keplerStep (π / 2) (9 / 10) π = 14 * π / 19 := by
    unfold keplerStep
    rw [Scalar.sin_real, Scalar.cos_real, sin_pi, cos_pi, Scalar.one_real]
    ring
  have hsolve : solveKepler (π / 2) (9 / 10) 0 1 = ⟨14 * π / 19, false, 1⟩ := by
    have hnot : ¬ |keplerStep (π / 2) (9 / 10) π| < 0 := not_lt.mpr (abs_nonneg _)
    unfold solveKepler iterateKepler
    simp only [hstart, Scalar.abs_real, if_neg hnot, hstep]
    rfl
  have hmirror := (solveKepler_mirror (e := 9 / 10) (by norm_num) (by norm_num) (π / 2) 0 1).2.2.2.1
  rw [hsolve, show 2 * π - π / 2 = 3 * π / 2 by ring, KeplerSolution.mirrored] at hmirror
  refine ⟨hsolve, hmirror.trans ?_⟩
  rw [show 2 * π - 14 * π / 19 = 24 * π / 19 by ring]

end Places

end OrbitFit
