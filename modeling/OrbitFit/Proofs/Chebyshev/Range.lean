import OrbitFit.Proofs.Chebyshev.Segment

/-!
# OrbitFit.Proofs.Chebyshev.Range — the interval of a segment

An epoch is checked against the interval in seconds, and a series is summed at the normalised time.  The two agree on
the interval, ends included.  On it no Chebyshev polynomial exceeds one, so a coordinate is at most the sum of the sizes
of its coefficients; at the ends every polynomial is one in size, and the coefficients themselves add up.

* `abs_evaluate_le`, `evaluate_one`, `evaluate_neg_one`: a series on the normalised interval and at its ends.
* `inRange_iff`: the epochs of the interval by the normalised time.
* `positionVelocity_bounded`: what a segment answers on its interval.
-/

open Polynomial.Chebyshev (T)

namespace OrbitFit

namespace Chebyshev

/-! ## Series on the normalised interval -/

section Bounds

variable {x : ℝ}

theorem abs_basisAt_le_one (hx : |x| ≤ 1) (k : ℕ) : |basisAt x k| ≤ 1 :=
  Polynomial.Chebyshev.abs_eval_T_real_le_one k hx

@[simp] theorem basisAt_at_one (k : ℕ) : basisAt 1 k = 1 :=
  Polynomial.Chebyshev.T_eval_one ℝ k

@[simp] theorem basisAt_at_neg_one (k : ℕ) : basisAt (-1) k = (-1) ^ k := by
  induction k using Nat.twoStepInduction with
  | zero => simp
  | one => simp
  | more k ih0 ih1 =>
    rw [basisAt_add_two, ih0, ih1]
    ring

theorem abs_combine_le {values : ℕ → ℝ} (h : ∀ k, |values k| ≤ 1) (cs : List ℝ) :
    |combine values cs| ≤ ∑ k : Fin cs.length, |cs.get k| := by
  refine (Finset.abs_sum_le_sum_abs _ _).trans (Finset.sum_le_sum fun k _ => ?_)
  rw [abs_mul]
  exact mul_le_of_le_one_right (abs_nonneg _) (h k)

/-- **On the normalised interval** a series is at most the sum of the sizes of its coefficients. -/
theorem abs_evaluate_le (hx : x ∈ Set.Icc (-1) 1) (cs : List ℝ) :
    |evaluate cs x| ≤ ∑ k : Fin cs.length, |cs.get k| := by
  rw [evaluate_eq]
  exact abs_combine_le (abs_basisAt_le_one (abs_le.mpr hx)) cs

theorem evaluate_one (cs : List ℝ) : evaluate cs 1 = ∑ k : Fin cs.length, cs.get k := by
  rw [evaluate_eq]
  simp [combine]

theorem evaluate_neg_one (cs : List ℝ) : evaluate cs (-1) = ∑ k : Fin cs.length, (-1) ^ (k : ℕ) * cs.get k := by
  rw [evaluate_eq]
  simp [combine, mul_comm]

end Bounds

end Chebyshev

open OrbitFit.Chebyshev (evaluate abs_evaluate_le evaluate_one evaluate_neg_one)

namespace ChebyshevSegment

/-! ## The interval -/

section Interval

variable {s : ChebyshevSegment ℝ} (hd : 0 < s.duration)
include hd

/-- **The epochs of the interval** are those whose normalised time is between minus one and one. -/
theorem inRange_iff (epoch : ℝ) : s.inRange epoch = true ↔ s.normalised epoch ∈ Set.Icc (-1) 1 := by
  unfold inRange normalised
  rw [Scalar.two_real, Set.mem_Icc, le_div_iff₀ hd, div_le_iff₀ hd, Bool.and_eq_true, decide_eq_true_eq,
    decide_eq_true_eq]
  constructor
  · rintro ⟨hlow, hhigh⟩
    exact ⟨by linarith, by linarith⟩
  · rintro ⟨hlow, hhigh⟩
    exact ⟨by linarith, by linarith⟩

theorem normalised_start : s.normalised s.start = -1 := by
  unfold normalised secondsBetween
  rw [sub_self, zero_mul, mul_zero, zero_sub, neg_div, div_self hd.ne']

theorem normalised_end : s.normalised (shiftEpoch s.start s.duration) = 1 := by
  have hday : (daySeconds : ℝ) ≠ 0 := by norm_num [daySeconds]
  unfold normalised secondsBetween shiftEpoch
  rw [add_sub_cancel_left, div_mul_cancel₀ _ hday, Scalar.two_real, div_eq_one_iff_eq hd.ne']
  ring

end Interval

/-! ## Positions on the interval -/

section Positions

variable {start duration : ℝ} {xs ys zs : List ℝ}

/-- **On its interval a segment answers positions within the sums of the sizes of its coefficients**, and at the ends
the sums of the coefficients themselves, with alternating signs at the start. -/
theorem positionVelocity_bounded (hd : 0 < duration) (hy : ys.length = xs.length) (hz : zs.length = xs.length)
    (hne : xs ≠ []) :
    ∃ s, ofNested start duration (.flat xs) (.flat ys) (.flat zs) = .ok s ∧
      (∀ epoch, (s.inRange epoch = true ↔ s.normalised epoch ∈ Set.Icc (-1) 1) ∧
        ∃ velocity, s.positionVelocity epoch = .ok
          (.ofList ([xs, ys, zs].map fun cs => evaluate cs (s.normalised epoch)), velocity)) ∧
      s.normalised start = -1 ∧ s.normalised (shiftEpoch start duration) = 1 ∧
      ∀ cs ∈ [xs, ys, zs],
        (∀ epoch, s.inRange epoch = true → |evaluate cs (s.normalised epoch)| ≤ ∑ k : Fin cs.length, |cs.get k|) ∧
        evaluate cs (s.normalised start) = ∑ k : Fin cs.length, (-1) ^ (k : ℕ) * cs.get k ∧
        evaluate cs (s.normalised (shiftEpoch start duration)) = ∑ k : Fin cs.length, cs.get k := by
  have hrange := inRange_iff (s := ofRows start duration xs ys zs) hd
  have hstart : (ofRows start duration xs ys zs).normalised start = -1 := normalised_start hd
  have hend : (ofRows start duration xs ys zs).normalised (shiftEpoch start duration) = 1 := normalised_end hd
  refine ⟨_, ofNested_flat hd hy hz hne, fun epoch => ⟨hrange epoch, _, positionVelocity_rows hy hz rfl⟩, hstart, hend,
    fun cs _ => ⟨fun epoch hin => abs_evaluate_le ((hrange epoch).mp hin) cs, ?_, ?_⟩⟩
  · rw [hstart, evaluate_neg_one]
  · rw [hend, evaluate_one]

/-- An hour of a segment whose axes have three coefficients each, on its first axis. -/
theorem positionVelocity_bounded_hour : (0 : ℝ) < 3600 ∧
    ∃ s, ofNested (2461095 : ℝ) 3600 (.flat [7000000, 250000, -3000]) (.flat [0, 5500000, 0]) (.flat [1, -2, 4]) = .ok s ∧
      s.inRange 2461095 = true ∧ evaluate [7000000, 250000, -3000] (s.normalised 2461095) = 6747000 ∧
      evaluate [7000000, 250000, -3000] (s.normalised (shiftEpoch 2461095 3600)) = 7247000 ∧
      ∀ epoch, s.inRange epoch = true →
        |evaluate [7000000, 250000, -3000] (s.normalised epoch)| ≤ 7253000 := by
  have hd : (0 : ℝ) < 3600 := by norm_num
  obtain ⟨s, hs, hall, hstart, -, hcs⟩ := @positionVelocity_bounded 2461095 3600 [7000000, 250000, -3000] [0, 5500000, 0]
    [1, -2, 4] hd rfl rfl (by simp)
  obtain ⟨hbound, hfirst, hlast⟩ := hcs [7000000, 250000, -3000] (by simp)
  refine ⟨hd, s, hs, (hall 2461095).1.mpr (by rw [hstart]; norm_num), hfirst.trans ?_, hlast.trans ?_,
    fun epoch hin => (hbound epoch hin).trans ?_⟩
  · rw [Fin.sum_univ_def]
    norm_num [List.finRange]
  · norm_num
  · norm_num

end Positions

end ChebyshevSegment

end OrbitFit
