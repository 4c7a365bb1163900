import OrbitFit.Chebyshev
import OrbitFit.Proofs.ExactScalar

/-!
# OrbitFit.Proofs.Chebyshev.Series — sums and derivatives of Chebyshev series

A list of coefficients stands for a sum over the Chebyshev polynomials, lowest degree first.  Both recurrences run
downward: the sum keeps a pair that stands for the coefficients of two neighbouring degrees, and the derivative turns
the highest coefficient into one of the result and adds what is left of it two degrees below.

* `evaluate_eq`: the value is the sum of the series.
* `differentiateDown_eq`, `combine_differentiate`: the coefficients found are those of the derivative.
* `hasDerivAt_evaluate`: so the series found has the derivative of the series for its value.
-/

open Polynomial (eval derivative)
open Polynomial.Chebyshev (T U)

namespace OrbitFit

namespace Chebyshev

/-- The sum of coefficients, lowest degree first, times the values that belong to their degrees. -/
noncomputable def combine (values : ℕ → ℝ) (cs : List ℝ) : ℝ := ∑ k : Fin cs.length, cs[k] * values k

section Combine

variable (values : ℕ → ℝ)

@[simp] theorem combine_nil : combine values [] = 0 := rfl

@[simp] theorem combine_concat (cs : List ℝ) (c : ℝ) :
    combine values (cs ++ [c]) = combine values cs + c * values cs.length := by
  unfold combine
  have hlen : (cs ++ [c]).length = cs.length + 1 := by simp
  rw [← Fin.sum_congr' _ hlen.symm, Fin.sum_univ_castSucc]
  congr 1
  · exact Finset.sum_congr rfl fun k _ => by simp
  · simp

theorem combine_single (c : ℝ) : combine values [c] = c * values 0 := by
  simpa using combine_concat values [] c

end Combine

/-- The value of the polynomial of a degree. -/
noncomputable def basisAt (x : ℝ) (k : ℕ) : ℝ := (T ℝ k).eval x

/-- The derivative of the polynomial of a degree. -/
noncomputable def slopeAt (x : ℝ) (k : ℕ) : ℝ := (derivative (T ℝ k)).eval x

section Basis

variable (x : ℝ) (k : ℕ)

@[simp] theorem basisAt_zero : basisAt x 0 = 1 := by
  simp [basisAt]

@[simp] theorem basisAt_one : basisAt x 1 = x := by
  simp [basisAt]

theorem basisAt_add_two : basisAt x (k + 2) = 2 * x * basisAt x (k + 1) - basisAt x k := by
  simp [basisAt, Polynomial.Chebyshev.T_add_two ℝ k]

@[simp] theorem slopeAt_zero : slopeAt x 0 = 0 := by
  simp [slopeAt]

@[simp] theorem slopeAt_one : slopeAt x 1 = 1 := by
  simp [slopeAt]

theorem slopeAt_eq : slopeAt x (k + 1) = (k + 1) * (U ℝ k).eval x := by
  have h := congrArg (eval x) (Polynomial.Chebyshev.T_derivative_eq_U (R := ℝ) (k + 1 : ℕ))
  simpa [slopeAt] using h

@[simp] theorem slopeAt_two : slopeAt x 2 = 4 * x := by
  rw [slopeAt_eq x 1]
  norm_num
  ring

/-- The slope of a degree by that of the degree two below. -/
theorem slopeAt_add_three :
    slopeAt x (k + 3) = 2 * (k + 3) * basisAt x (k + 2) + (k + 3) / (k + 1) * slopeAt x (k + 1) := by
  have hU : (U ℝ (k + 2 : ℕ)).eval x = 2 * basisAt x (k + 2) + (U ℝ k).eval x := by
    have h := congrArg (eval x) (Polynomial.Chebyshev.U_eq_two_mul_T_add_U ℝ k)
    simpa [basisAt] using h
  have h0 : (k + 1 : ℝ) ≠ 0 := by positivity
  rw [slopeAt_eq, slopeAt_eq, hU]
  push_cast
  field_simp
  ring

theorem hasDerivAt_combine (cs : List ℝ) :
    HasDerivAt (fun x => combine (basisAt x) cs) (combine (slopeAt x) cs) x := by
  unfold combine basisAt slopeAt
  exact HasDerivAt.fun_sum fun k _ => ((T ℝ k).hasDerivAt x).const_mul _

end Basis

/-! ## Sums of series -/

/-- One downward step keeps the sum: the pair stands for the coefficients of two neighbouring degrees. -/
theorem foldl_clenshawStep (x : ℝ) : ∀ (lower : List ℝ) (pair : ℝ × ℝ),
    (lower.foldl (clenshawStep (2.0 * x)) pair).1 + (lower.foldl (clenshawStep (2.0 * x)) pair).2 * x =
      combine (basisAt x) lower.reverse + pair.1 * basisAt x lower.length + pair.2 * basisAt x (lower.length + 1)
  | [], pair => by simp
  | c :: lower, pair => by
    rw [List.foldl_cons, foldl_clenshawStep x lower, List.reverse_cons, combine_concat, List.length_cons,
      List.length_reverse, basisAt_add_two]
    simp only [clenshawStep, Scalar.two_real]
    ring

/-- **The downward recurrence sums the series.** -/
theorem evaluate_eq (cs : List ℝ) (x : ℝ) : evaluate cs x = combine (basisAt x) cs := by
  obtain ⟨rev, rfl⟩ : ∃ rev : List ℝ, cs = rev.reverse := ⟨cs.reverse, cs.reverse_reverse.symm⟩
  unfold evaluate
  rw [List.reverse_reverse]
  match rev with
  | [] => rfl
  | [c] => simp [combine_single]
  | last :: next :: lower =>
    dsimp only
    rw [foldl_clenshawStep, List.reverse_cons, List.reverse_cons, combine_concat, combine_concat]
    simp

/-! ## The derivative -/

/-- What the downward recurrence finds, below the coefficients that were found before: the coefficients of the
derivative of what is left. -/
theorem differentiateDown_eq (j : ℕ) (rev found : List ℝ) (h : rev.length = j + 1) :
    ∃ low, differentiateDown j rev found = low ++ found ∧ low.length = j ∧
      ∀ x, combine (basisAt x) low = combine (slopeAt x) rev.reverse := by
  -- the highest coefficient is turned into one of the derivative and added to the one two degrees below
  fun_induction differentiateDown j rev found with
  | case1 j c b a rest found k ih =>
    obtain ⟨low, hlow, hlen, hsum⟩ := ih (by simpa using h)
    have hrest : rest.length = j + 1 := by simpa using h
    refine ⟨low ++ [Scalar.ofNat (2 * (j + 3)) * c], by rw [hlow]; simp, by simp [hlen], fun x => ?_⟩
    have hk : k = j + 3 := by simp [k]
    have hslope := slopeAt_add_three x j
    simp only [combine_concat, hsum, hlen, List.reverse_cons, List.length_append, List.length_reverse, hrest, hk,
      Scalar.ofNat_real]
    rw [add_assoc, add_assoc]
    push_cast
    simp only [List.length_cons, List.length_nil, zero_add, add_assoc, Nat.reduceAdd, hslope]
    ring
  | case2 c rest found ih =>
    obtain ⟨low, hlow, hlen, hsum⟩ := ih (by simpa using h)
    have hrest : rest.length = 2 := by simpa using h
    refine ⟨low ++ [4.0 * c], by rw [hlow]; simp, by simp [hlen], fun x => ?_⟩
    simp only [combine_concat, hsum, hlen, List.reverse_cons, List.length_reverse, hrest, basisAt_one, slopeAt_two,
      Scalar.four_real]
    ring
  | case3 c rest found =>
    obtain ⟨d, rfl⟩ := List.length_eq_one_iff.mp (show rest.length = 1 by simpa using h)
    refine ⟨[c], rfl, rfl, fun x => ?_⟩
    rw [show [c, d].reverse = [d] ++ [c] from rfl, combine_concat, combine_single, combine_single]
    simp
  -- only a constant is left, and the shapes of the other cases do not occur
  | case4 j rev found h₃ h₂ h₁ =>
    match j, rev with
    | 0, [c] => exact ⟨[], rfl, rfl, fun x => by simp [combine_single]⟩
    | 1, c :: rest => exact (h₁ c rest rfl rfl).elim
    | 2, c :: rest => exact (h₂ c rest rfl rfl).elim
    | j + 3, c :: b :: a :: rest => exact (h₃ j c b a rest rfl rfl).elim

/-- **The downward recurrence differentiates the series.** -/
theorem combine_differentiate (cs : List ℝ) (x : ℝ) :
    combine (basisAt x) (differentiate cs) = combine (slopeAt x) cs := by
  unfold differentiate
  cases hcs : cs with
  | nil => rfl
  | cons c rest =>
    obtain ⟨low, hlow, -, hsum⟩ := differentiateDown_eq (cs.length - 1) cs.reverse [] (by simp [hcs])
    rw [← hcs, hlow, List.append_nil, hsum, List.reverse_reverse]

/-- **The series of the derivative** has the derivative of the series for its value. -/
theorem hasDerivAt_evaluate (cs : List ℝ) (x : ℝ) : HasDerivAt (evaluate cs) (evaluate (differentiate cs) x) x := by
  rw [funext (evaluate_eq cs), evaluate_eq, combine_differentiate]
  exact hasDerivAt_combine x cs

end Chebyshev

end OrbitFit
