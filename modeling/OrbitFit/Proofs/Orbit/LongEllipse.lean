import OrbitFit.Proofs.Orbit.Newton

/-!
# OrbitFit.Proofs.Orbit.LongEllipse — Newton's iteration on long ellipses

On a long ellipse the iteration starts at half a turn.  Up to there the left side of Kepler's equation is convex: a
tangent that touches it above the root meets zero between the root and where it touches.  So the iterates come down to
the root and never pass it, however close the ellipse is to a parabola.  Mean anomalies beyond half a turn are the
mirror image.

* `root_le_iff`, `le_root_iff`: the side of the root by the sign of the residual.
* `NewtonStep.eq_iff`, `root_of_tendsto`: an iteration stands still, and comes to rest, at the root only.
* `NewtonStep.descends`: one step.
* `keplerIterate_mem_of_le_pi`, `antitone_keplerIterate`: all steps.
* `longEllipse_never_overshoots`: both halves of the turn, and the answer of the solver.
-/

open Filter Real Topology

namespace OrbitFit

/-! ## The side of the root -/

section Root

variable {m e x : ℝ}

theorem strictMono_keplerResidual (h0 : 0 ≤ e) (h1 : e < 1) (m : ℝ) : StrictMono (keplerResidual m e) := by
  intro x y hxy
  have hgrow := mul_sub_le_residual (m := m) h0 hxy.le
  have hpos : 0 < (1 - e) * (y - x) := mul_pos (by linarith) (by linarith)
  linarith

theorem root_le_iff (h0 : 0 ≤ e) (h1 : e < 1) : keplerRoot m e ≤ x ↔ 0 ≤ keplerResidual m e x := by
  rw [← keplerResidual_root m e, (strictMono_keplerResidual h0 h1 m).le_iff_le]

theorem le_root_iff (h0 : 0 ≤ e) (h1 : e < 1) : x ≤ keplerRoot m e ↔ keplerResidual m e x ≤ 0 := by
  rw [← keplerResidual_root m e, (strictMono_keplerResidual h0 h1 m).le_iff_le]

@[simp] theorem keplerResidual_zero (m e : ℝ) : keplerResidual m e 0 = -m := by
  simp [keplerResidual]

@[simp] theorem keplerResidual_pi (m e : ℝ) : keplerResidual m e π = π - m := by
  simp [keplerResidual]

theorem root_le_pi (h0 : 0 ≤ e) (h1 : e < 1) (hm : m ≤ π) : keplerRoot m e ≤ π := by
  rw [root_le_iff h0 h1, keplerResidual_pi]
  linarith

theorem root_nonneg (h0 : 0 ≤ e) (h1 : e < 1) (hm : 0 ≤ m) : 0 ≤ keplerRoot m e := by
  rw [le_root_iff h0 h1, keplerResidual_zero]
  linarith

theorem keplerRoot_mirror (h0 : 0 ≤ e) (h1 : e < 1) (m : ℝ) : keplerRoot (2 * π - m) e = 2 * π - keplerRoot m e := by
  refine keplerRoot_unique (by linarith) h1 ?_
  rw [sin_two_pi_sub]
  linarith [keplerRoot_spec m e]

/-- A point between the root and another one misses the equation by no more than the other one. -/
theorem abs_residual_le_of_mem_uIcc (h0 : 0 ≤ e) (h1 : e < 1) {y : ℝ} (hx : x ∈ Set.uIcc (keplerRoot m e) y) :
    |keplerResidual m e x| ≤ |keplerResidual m e y| := by
  have hmono := (strictMono_keplerResidual h0 h1 m).monotone
  rcases le_total (keplerRoot m e) y with h | h
  · rw [Set.uIcc_of_le h] at hx
    have hnonneg := (root_le_iff h0 h1).mp hx.1
    rw [abs_of_nonneg hnonneg, abs_of_nonneg ((root_le_iff h0 h1).mp h)]
    exact hmono hx.2
  · rw [Set.uIcc_of_ge h] at hx
    have hnonpos := (le_root_iff h0 h1).mp hx.2
    rw [abs_of_nonpos hnonpos, abs_of_nonpos ((le_root_iff h0 h1).mp h)]
    exact neg_le_neg (hmono hx.1)

theorem keplerResidual_eq_zero_iff (h0 : 0 ≤ e) (h1 : e < 1) : keplerResidual m e x = 0 ↔ x = keplerRoot m e := by
  rw [← eq_keplerRoot_iff h0 h1]
  exact sub_eq_zero

/-- A step stands still at the root and nowhere else. -/
theorem NewtonStep.eq_iff {y : ℝ} (h : NewtonStep m e x y) (h0 : 0 ≤ e) (h1 : e < 1) :
    y = x ↔ x = keplerRoot m e := by
  rw [← keplerResidual_eq_zero_iff h0 h1, ← neg_eq_zero, ← h.slope_mul, mul_eq_zero, or_iff_right h.slope_pos.ne',
    sub_eq_zero]

theorem continuous_keplerResidual (m e : ℝ) : Continuous (keplerResidual m e) :=
  (continuous_id.sub (continuous_sin.const_mul e)).sub continuous_const

/-- **The iteration comes to rest at the root only**: the steps of a sequence that converges go to zero, and with them
what the iterates miss the equation by. -/
theorem root_of_tendsto (h0 : 0 ≤ e) (h1 : e < 1) (h : Tendsto (keplerIterate m e) atTop (𝓝 x)) :
    x = keplerRoot m e := by
  have hstep : Tendsto (fun n => keplerIterate m e (n + 1) - keplerIterate m e n) atTop (𝓝 (x - x)) :=
    ((tendsto_add_atTop_iff_nat 1).mpr h).sub h
  have hslope : Tendsto (fun n => 1 - e * cos (keplerIterate m e n)) atTop (𝓝 (1 - e * cos x)) :=
    (((continuous_cos.tendsto x).comp h).const_mul e).const_sub 1
  have hresidual : Tendsto (fun n => keplerResidual m e (keplerIterate m e n)) atTop (𝓝 (keplerResidual m e x)) :=
    ((continuous_keplerResidual m e).tendsto x).comp h
  have hneg : Tendsto (fun n => -keplerResidual m e (keplerIterate m e n)) atTop (𝓝 0) := by
    have hproduct := hslope.mul hstep
    rw [sub_self, mul_zero] at hproduct
    exact hproduct.congr fun n => (newtonStep_keplerIterate h0 h1 m n).slope_mul
  rw [← keplerResidual_eq_zero_iff h0 h1, ← neg_eq_zero]
  exact tendsto_nhds_unique hresidual.neg hneg

/-- The root is in the turn of the mean anomaly. -/
theorem root_mem (h0 : 0 ≤ e) (h1 : e < 1) (hm : m ∈ Set.Ico 0 (2 * π)) : keplerRoot m e ∈ Set.Ico 0 (2 * π) := by
  -- the root does not pass the end of the turn, as its mirror image does not pass the start
  refine ⟨root_nonneg h0 h1 hm.1, lt_of_le_of_ne ?_ fun h => hm.2.ne ?_⟩
  · have hmirror := root_nonneg h0 h1 (sub_nonneg.mpr hm.2.le)
    rw [keplerRoot_mirror h0 h1] at hmirror
    linarith
  · have hspec := keplerRoot_spec m e
    rw [h, sin_two_pi] at hspec
    linarith

end Root

/-! ## Up to half a turn -/

section Descent

variable {m e x y : ℝ}

/-- Up to half a turn the sine is below its tangents. -/
theorem sin_le_tangent (hx : x ∈ Set.Icc 0 π) (hy : y ∈ Set.Icc 0 π) : sin y ≤ sin x + cos x * (y - x) := by
  have htangent := tangent_le_of_convexOn strictConcaveOn_sin_Icc.concaveOn.neg hx hy (hasDerivAt_sin x).neg
  simp only [Pi.neg_apply] at htangent
  linarith

/-- **A step from between the root and half a turn** ends between the root and where it started. -/
theorem NewtonStep.descends (h : NewtonStep m e x y) (h0 : 0 ≤ e) (h1 : e < 1) (hm : 0 ≤ m)
    (hx : x ∈ Set.Icc (keplerRoot m e) π) : y ∈ Set.Icc (keplerRoot m e) x := by
  have hroot := root_nonneg h0 h1 hm
  have hslope := h.slope_mul
  constructor
  · have hsin := sin_le_tangent (x := x) (y := keplerRoot m e) ⟨hroot.trans hx.1, hx.2⟩ ⟨hroot, hx.1.trans hx.2⟩
    have hbend : e * (sin (keplerRoot m e) - sin x - cos x * (keplerRoot m e - x)) ≤ 0 :=
      mul_nonpos_of_nonneg_of_nonpos h0 (by linarith)
    have htangent := keplerResidual_eq_tangent m e x (keplerRoot m e)
    rw [keplerResidual_root] at htangent
    have hmul : (1 - e * cos x) * (keplerRoot m e - x) ≤ (1 - e * cos x) * (y - x) := by linarith
    linarith [le_of_mul_le_mul_left hmul h.slope_pos]
  · have hmul : (1 - e * cos x) * (y - x) ≤ (1 - e * cos x) * 0 := by
      rw [hslope, mul_zero]
      linarith [(root_le_iff h0 h1).mp hx.1]
    linarith [le_of_mul_le_mul_left hmul h.slope_pos]

theorem keplerIterate_zero (he : 0.8 ≤ e) (m : ℝ) : keplerIterate m e 0 = π := by
  show keplerStart m e = π
  unfold keplerStart
  exact if_neg (not_lt.mpr he)

variable (he : 0.8 ≤ e) (h1 : e < 1) (h0m : 0 ≤ m) (hm : m ≤ π)
include he h1 h0m hm

/-- The iterates stay between the root and half a turn. -/
theorem keplerIterate_mem_of_le_pi (n : ℕ) : keplerIterate m e n ∈ Set.Icc (keplerRoot m e) π := by
  have h0 : 0 ≤ e := by linarith
  induction n with
  | zero =>
    rw [keplerIterate_zero he]
    exact ⟨root_le_pi h0 h1 hm, le_rfl⟩
  | succ n ih =>
    have hstep := (newtonStep_keplerIterate h0 h1 m n).descends h0 h1 h0m ih
    exact ⟨hstep.1, hstep.2.trans ih.2⟩

/-- The iterates come down. -/
theorem antitone_keplerIterate : Antitone (keplerIterate m e) := by
  have h0 : 0 ≤ e := by linarith
  refine antitone_nat_of_succ_le fun n => ?_
  exact ((newtonStep_keplerIterate h0 h1 m n).descends h0 h1 h0m (keplerIterate_mem_of_le_pi he h1 h0m hm n)).2

theorem tendsto_keplerIterate_of_le_pi : Tendsto (keplerIterate m e) atTop (𝓝 (keplerRoot m e)) := by
  have hbelow : BddBelow (Set.range (keplerIterate m e)) := by
    refine ⟨keplerRoot m e, ?_⟩
    rintro _ ⟨n, rfl⟩
    exact (keplerIterate_mem_of_le_pi he h1 h0m hm n).1
  have hlimit := tendsto_atTop_ciInf (antitone_keplerIterate he h1 h0m hm) hbelow
  rwa [root_of_tendsto (by linarith) h1 hlimit] at hlimit

end Descent

/-! ## Beyond half a turn -/

section Ascent

variable {m e : ℝ} (he : 0.8 ≤ e) (h1 : e < 1) (hm : π ≤ m) (hm2 : m < 2 * π)
include he h1 hm hm2

theorem keplerIterate_mem_of_pi_le (n : ℕ) : keplerIterate m e n ∈ Set.Icc π (keplerRoot m e) := by
  have hmem := keplerIterate_mem_of_le_pi (m := 2 * π - m) he h1 (by linarith) (by linarith) n
  rw [keplerIterate_mirror, keplerRoot_mirror (by linarith) h1] at hmem
  exact ⟨by linarith [hmem.2], by linarith [hmem.1]⟩

/-- The iterates go up. -/
theorem monotone_keplerIterate : Monotone (keplerIterate m e) := by
  intro i j hij
  have hdown := antitone_keplerIterate (m := 2 * π - m) he h1 (by linarith) (by linarith) hij
  rw [keplerIterate_mirror, keplerIterate_mirror] at hdown
  linarith

theorem tendsto_keplerIterate_of_pi_le : Tendsto (keplerIterate m e) atTop (𝓝 (keplerRoot m e)) := by
  have hmirror := tendsto_keplerIterate_of_le_pi (m := 2 * π - m) he h1 (by linarith) (by linarith)
  rw [keplerRoot_mirror (by linarith) h1] at hmirror
  have hback := hmirror.const_sub (2 * π)
  simpa only [keplerIterate_mirror, sub_sub_cancel] using hback

end Ascent

/-! ## The whole turn -/

section Turn

variable {m e : ℝ}

theorem keplerIterate_mem_uIcc (he : 0.8 ≤ e) (h1 : e < 1) (hm : m ∈ Set.Ico 0 (2 * π)) (n : ℕ) :
    keplerIterate m e n ∈ Set.uIcc (keplerRoot m e) π := by
  rcases le_total m π with h | h
  · exact Set.Icc_subset_uIcc (keplerIterate_mem_of_le_pi he h1 hm.1 h n)
  · exact Set.Icc_subset_uIcc' (keplerIterate_mem_of_pi_le he h1 h hm.2 n)

theorem tendsto_keplerIterate (he : 0.8 ≤ e) (h1 : e < 1) (hm : m ∈ Set.Ico 0 (2 * π)) :
    Tendsto (keplerIterate m e) atTop (𝓝 (keplerRoot m e)) := by
  rcases le_total m π with h | h
  · exact tendsto_keplerIterate_of_le_pi he h1 hm.1 h
  · exact tendsto_keplerIterate_of_pi_le he h1 h hm.2

/-- **Off the root every step comes nearer to it**: it goes toward the root, not past it, and does not stand still. -/
theorem abs_sub_root_lt (he : 0.8 ≤ e) (h1 : e < 1) (hm : m ∈ Set.Ico 0 (2 * π)) {n : ℕ}
    (hn : keplerIterate m e n ≠ keplerRoot m e) :
    |keplerIterate m e (n + 1) - keplerRoot m e| < |keplerIterate m e n - keplerRoot m e| := by
  have h0 : 0 ≤ e := by linarith
  -- off the root a step does not stand still, and the iterates keep to one side of it
  have hmoved : keplerIterate m e (n + 1) ≠ keplerIterate m e n := fun hstill =>
    hn (((newtonStep_keplerIterate h0 h1 m n).eq_iff h0 h1).mp hstill)
  rcases le_total m π with h | h
  · have hroot := (keplerIterate_mem_of_le_pi he h1 hm.1 h (n + 1)).1
    have hdown := lt_of_le_of_ne (antitone_keplerIterate he h1 hm.1 h n.le_succ) hmoved
    rw [abs_of_nonneg (by linarith), abs_of_nonneg (by linarith)]
    linarith
  · have hroot := (keplerIterate_mem_of_pi_le he h1 h hm.2 (n + 1)).2
    have hup := lt_of_le_of_ne (monotone_keplerIterate he h1 h hm.2 n.le_succ) hmoved.symm
    rw [abs_of_nonpos (by linarith), abs_of_nonpos (by linarith)]
    linarith

/-- **On a long ellipse the iteration never passes the root.**  From half a turn on, each iterate is the Newton step
from the one before; the iterates go toward the root in one direction, off the root nearer with every step, and have it
for their limit.  The answer is within the turn, between the root and half a turn, and no farther off the equation than
the start, whether it has converged or not. -/
theorem longEllipse_never_overshoots (he : 0.8 ≤ e) (h1 : e < 1) (hm : m ∈ Set.Ico 0 (2 * π)) :
    ∃ root ∈ Set.Ico 0 (2 * π), (∀ E, E - e * sin E = m ↔ E = root) ∧ keplerIterate m e 0 = π ∧
      (∀ n, NewtonStep m e (keplerIterate m e n) (keplerIterate m e (n + 1))) ∧
      (m ≤ π → Antitone (keplerIterate m e) ∧ ∀ n, keplerIterate m e n ∈ Set.Icc root π) ∧
      (π ≤ m → Monotone (keplerIterate m e) ∧ ∀ n, keplerIterate m e n ∈ Set.Icc π root) ∧
      (∀ n, keplerIterate m e n ≠ root → |keplerIterate m e (n + 1) - root| < |keplerIterate m e n - root|) ∧
      Tendsto (keplerIterate m e) atTop (𝓝 root) ∧
      ∀ (tol : ℝ) (maxSteps : ℕ), KeplerRun m e tol maxSteps (solveKepler m e tol maxSteps) ∧
        (solveKepler m e tol maxSteps).anomaly ∈ Set.Ico 0 (2 * π) ∧
        (solveKepler m e tol maxSteps).anomaly ∈ Set.uIcc root π ∧
        |keplerResidual m e (solveKepler m e tol maxSteps).anomaly| ≤ |keplerResidual m e π| := by
  have h0 : 0 ≤ e := by linarith
  have hroot := root_mem h0 h1 hm
  have hπ : π ∈ Set.Ico 0 (2 * π) := ⟨pi_pos.le, by linarith [pi_pos]⟩
  refine ⟨keplerRoot m e, hroot, eq_keplerRoot_iff h0 h1, keplerIterate_zero he m, newtonStep_keplerIterate h0 h1 m,
    fun h => ?_, fun h => ?_, fun n hn => abs_sub_root_lt he h1 hm hn, tendsto_keplerIterate he h1 hm,
    fun tol maxSteps => ?_⟩
  · exact ⟨antitone_keplerIterate he h1 hm.1 h, keplerIterate_mem_of_le_pi he h1 hm.1 h⟩
  · exact ⟨monotone_keplerIterate he h1 h hm.2, keplerIterate_mem_of_pi_le he h1 h hm.2⟩
  · -- the answer is an iterate, converged or not, so it is where the iterates are
    have hrun := keplerRun_solveKepler m e tol maxSteps
    have hbetween := keplerIterate_mem_uIcc he h1 hm (solveKepler m e tol maxSteps).steps
    rw [← hrun.anomaly_eq] at hbetween
    exact ⟨hrun, Set.ordConnected_Ico.uIcc_subset hroot hπ hbetween, hbetween,
      abs_residual_le_of_mem_uIcc h0 h1 hbetween⟩

/-- A hundredth of a radian behind the periapsis of an ellipse of eccentricity 0.95: the first step goes from half a
turn to less than a quarter, and nearer to the root without passing it. -/
theorem longEllipse_never_overshoots_nearPeriapsis : (0.01 : ℝ) ∈ Set.Ico 0 (2 * π) ∧
    ∃ root ∈ Set.Ico 0 (2 * π), root - 0.95 * sin root = 0.01 ∧ Antitone (keplerIterate 0.01 0.95) ∧
      (∀ n, keplerIterate 0.01 0.95 n ∈ Set.Icc root π) ∧
      keplerIterate 0.01 0.95 0 = π ∧ keplerIterate 0.01 0.95 1 = π - (π - 0.01) / 1.95 ∧
      keplerIterate 0.01 0.95 1 < π / 2 ∧ |keplerIterate 0.01 0.95 1 - root| < |π - root| ∧
      |keplerResidual 0.01 0.95 (eccentricAnomaly 0.01 0.95)| ≤ π - 0.01 := by
  have hπ : 3 < π := pi_gt_three
  have hm : (0.01 : ℝ) ∈ Set.Ico 0 (2 * π) := ⟨by norm_num, by linarith⟩
  obtain ⟨root, hroot, hspec, hstart, hsteps, hlower, -, hnearer, -, hrun⟩ :=
    longEllipse_never_overshoots (e := 0.95) (by norm_num) (by norm_num) hm
  obtain ⟨hdown, hmem⟩ := hlower (by linarith)
  have hfirst : keplerIterate 0.01 0.95 1 = π - (π - 0.01) / 1.95 := by
    rw [(hsteps 0).next_eq, hstart, sin_pi, cos_pi]
    norm_num
  have hoff : keplerIterate 0.01 0.95 0 ≠ root := by
    rw [hstart, ne_eq, ← hspec, sin_pi]
    linarith
  have hstep := hnearer 0 hoff
  rw [hstart] at hstep
  have hanswer := (hrun 1e-12 50).2.2.2
  rw [keplerResidual_pi, abs_of_pos (show 0 < π - 0.01 by linarith)] at hanswer
  have hquarter : π / 2 < (π - 0.01) / 1.95 := by
    rw [lt_div_iff₀ (by norm_num)]
    linarith
  exact ⟨hm, root, hroot, (hspec root).mpr rfl, hdown, hmem, hstart, hfirst, by linarith, hstep, hanswer⟩

end Turn

end OrbitFit
