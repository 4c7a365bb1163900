import Mathlib
import OrbitFit.Proofs.Newcomb.Size

/-!
# OrbitFit.Proofs.Newcomb.Mirror — the operators on the two axes are mirror images

An operator `Y[k,0]` comes out of a direct sweep, from the two before it at `s + 1` and `s + 2`.  An operator `Y[0,k]`
comes out of a reverse sweep, by other factors, from the two before it at `s - 1` and `s - 2`.  On the axes no guard
leaves a term out (`evaluate_rho_axis`, `evaluate_sigma_axis`), and either recurrence becomes the other one when `-s`
is read for `s`.  Reduced series are determined by their values, so not only the values are mirror images but the
lists of coefficients as well.

* `Series.eq_of_eval₂`, `Series.toPolynomial_eq_of_evaluate`: series with the same values have the same polynomial.
* `evaluate_mirrored`: the two-step induction along the axes.
* `mirror_afterAll`: what a cache answers on one axis and on the other.
-/

open Polynomial

namespace OrbitFit

/-! ## Mirrored polynomials -/

namespace Poly

/-- The polynomial at `-s`: every other coefficient with the opposite sign. -/
def mirrored (p : Poly ℝ) : Poly ℝ := ⟨p.coeffs.mapIdx fun j c => (-1) ^ j * c⟩

theorem toPolynomial_mirrored (p : Poly ℝ) : p.mirrored.toPolynomial = p.toPolynomial.comp (-X) := by
  ext j
  have hneg : (-X : ℝ[X]) = C (-1) * X := by simp
  rw [hneg, comp_C_mul_X_coeff, toPolynomial, toPolynomial, coeff_ofCoeffs, coeff_ofCoeffs, mirrored,
    List.getD_eq_getElem?_getD, List.getD_eq_getElem?_getD, List.getElem?_mapIdx]
  cases p.coeffs[j]? with
  | none => simp
  | some c => simp [mul_comm]

theorem natDegree_mirrored (p : Poly ℝ) : p.mirrored.toPolynomial.natDegree = p.toPolynomial.natDegree := by
  rw [toPolynomial_mirrored, natDegree_comp, natDegree_neg, natDegree_X, mul_one]

theorem Reduced.mirrored {p : Poly ℝ} (h : p.Reduced) : p.mirrored.Reduced := by
  unfold Reduced
  rw [natDegree_mirrored, ← h, Poly.mirrored, List.length_mapIdx]

end Poly

namespace Series

/-- A polynomial in two variables is determined by its values. -/
theorem eq_of_eval₂ {P Q : ℝ[X][X]} (h : ∀ n s : ℝ, P.eval₂ (evalRingHom s) n = Q.eval₂ (evalRingHom s) n) :
    P = Q := by
  ext1 k
  refine Polynomial.funext fun s => ?_
  have hmap : P.map (evalRingHom s) = Q.map (evalRingHom s) := Polynomial.funext fun n => by
    rw [eval_map, eval_map, h n s]
  have hcoeff := congrArg (coeff · k) hmap
  simpa only [coeff_map, coe_evalRingHom] using hcoeff

theorem toPolynomial_eq_of_evaluate {a b : Series ℝ} (h : ∀ n s, a.evaluate n s = b.evaluate n s) :
    a.toPolynomial = b.toPolynomial :=
  eq_of_eval₂ fun n s => by rw [← evaluate_eq, ← evaluate_eq, h]

theorem toPolynomial_map_mirrored (a : Series ℝ) :
    toPolynomial (a.map Poly.mirrored) = a.toPolynomial.map (compRingHom (-X)) := by
  unfold toPolynomial
  induction a with
  | nil => simp
  | cons p a ih =>
    rw [List.map_cons, List.map_cons, ofCoeffs_cons, ih, List.map_cons, ofCoeffs_cons, Poly.toPolynomial_mirrored]
    simp

theorem evaluate_map_mirrored (a : Series ℝ) (n s : ℝ) :
    Series.evaluate (a.map Poly.mirrored) n s = a.evaluate n (-s) := by
  rw [evaluate_eq, toPolynomial_map_mirrored, eval₂_map, evaluate_eq]
  congr 1
  ext <;> simp

end Series

/-! ## Along the axes -/

namespace Newcomb

section Axes

/-- The recurrence on the axis of direct sweeps. -/
theorem evaluate_rho_axis (k : ℕ) (n s : ℝ) : 4 * ((k : ℝ) + 2) * (operator (k + 2) 0).evaluate n s =
    2 * (2 * s - n) * (operator (k + 1) 0).evaluate n (s + 1) + (s - n) * (operator k 0).evaluate n (s + 2) := by
  have h := evaluate_operator (by omega : 1 ≤ k + 2 + 0) n s
  simpa using h

/-- The recurrence on the axis of reverse sweeps. -/
theorem evaluate_sigma_axis (k : ℕ) (n s : ℝ) : 4 * ((k : ℝ) + 2) * (operator 0 (k + 2)).evaluate n s =
    -(2 * (2 * s + n)) * (operator 0 (k + 1)).evaluate n (s - 1) +
      -(s + n) * (operator 0 k).evaluate n (s - 2) := by
  have h := evaluate_operator (by omega : 1 ≤ 0 + (k + 2)) n s
  simpa using h

/-- **The values on one axis are those on the other at the opposite `s`.** -/
theorem evaluate_mirrored (k : ℕ) (n s : ℝ) : (operator 0 k).evaluate n (-s) = (operator k 0).evaluate n s := by
  induction k using Nat.twoStepInduction generalizing s with
  | zero => simp [operator_zero_zero, Series.evaluate, Poly.eval]
  | one => rw [operator_one_zero, operator_zero_one, evaluate_linear, evaluate_linear]; ring
  | more k ih ih' =>
    have hk : 4 * ((k : ℝ) + 2) ≠ 0 := by positivity
    have h1 : (operator 0 (k + 1)).evaluate n (-s - 1) = (operator (k + 1) 0).evaluate n (s + 1) := by
      rw [← ih', neg_add']
    have h2 : (operator 0 k).evaluate n (-s - 2) = (operator k 0).evaluate n (s + 2) := by
      rw [← ih, neg_add']
    refine mul_left_cancel₀ hk ?_
    rw [evaluate_sigma_axis, evaluate_rho_axis, h1, h2]
    ring

/-- **The operators on one axis are the mirror images of those on the other**, coefficient by coefficient. -/
theorem operator_mirrored (k : ℕ) : operator 0 k = (operator k 0).map Poly.mirrored := by
  have hvalues : ∀ n s, (operator 0 k).evaluate n s = Series.evaluate ((operator k 0).map Poly.mirrored) n s := by
    intro n s
    rw [Series.evaluate_map_mirrored, ← evaluate_mirrored, neg_neg]
  -- equal values are equal polynomials; the lists are equal as both are as long and have reduced entries
  have hlength : (operator 0 k).length = ((operator k 0).map Poly.mirrored).length := by
    rw [List.length_map, length_operator, length_operator]
    unfold operatorLength
    omega
  have hreduced : ∀ p ∈ (operator k 0).map Poly.mirrored, p.Reduced := by
    intro p hp
    obtain ⟨q, hq, rfl⟩ := List.mem_map.mp hp
    exact (reduced_operator k 0 q hq).mirrored
  exact Series.ext_reduced hlength (reduced_operator 0 k) hreduced (Series.toPolynomial_eq_of_evaluate hvalues)

end Axes

/-! ## What a cache answers -/

/-- **The two axes of a cache are mirror images**, whatever was asked of it before on either side: the list at `(0, k)`
is the one at `(k, 0)` with `-s` for `s` in every entry, and the value at `(k, 0)` and `s` is the one at `(0, k)` and
`-s`. -/
theorem mirror_afterAll (first second : List NewcombCache.Request) (k : ℕ) :
    (∃ y c sweeps c' sweeps', (NewcombCache.afterAll first).get k 0 = .ok (y, c, sweeps) ∧
        (NewcombCache.afterAll second).get 0 k = .ok (y.map Poly.mirrored, c', sweeps')) ∧
      ∀ n s : ℝ, ∃ x c c', (NewcombCache.afterAll first).value k 0 n s = .ok (x, c) ∧
        (NewcombCache.afterAll second).value 0 k n (-s) = .ok (x, c') := by
  have hfirst := NewcombCache.coherent_afterAll first
  have hsecond := NewcombCache.coherent_afterAll second
  constructor
  · obtain ⟨c, sweeps, hc, -⟩ := NewcombCache.get_eq hfirst k 0
    obtain ⟨c', sweeps', hc', -⟩ := NewcombCache.get_eq hsecond 0 k
    rw [operator_mirrored] at hc'
    exact ⟨operator k 0, c, sweeps, c', sweeps', hc, hc'⟩
  · intro n s
    obtain ⟨c, hc, -⟩ := NewcombCache.value_eq hfirst k 0 n s
    obtain ⟨c', hc', -⟩ := NewcombCache.value_eq hsecond 0 k n (-s)
    rw [evaluate_mirrored] at hc'
    exact ⟨(operator k 0).evaluate n s, c, c', hc, hc'⟩

end Newcomb

end OrbitFit
