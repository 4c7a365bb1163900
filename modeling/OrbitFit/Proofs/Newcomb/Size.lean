import Mathlib
import OrbitFit.Proofs.Newcomb.Values
import OrbitFit.Proofs.Series.Degree

/-!
# OrbitFit.Proofs.Newcomb.Size — how large an operator is

The list of an operator starts as zeros and is as long as they are: no term is longer.  Its length says little about
the degree, which is lower as soon as both indices are positive.  Read in two variables, an operator is a sum of
homogeneous components, and a line through the origin meets the component of degree `m` in the coefficient of `t ^ m`.
So what `top_operator` says along every line is what the components are.

* `length_operator`, `reduced_operator`: the list and its entries.
* `coeff_alongLine`, `HasTop.component_eq`: the components of a function with a leading term.
* `size_afterAll`: the size of the operators that a cache answers with.
-/

open Polynomial

namespace OrbitFit

namespace Newcomb

/-! ## The list -/

section Lists

/-- A term that is not longer than the total leaves the length as it is. -/
theorem length_addIf {guard : Prop} [Decidable guard] {y t : Series ℝ} {L : ℕ} (hy : y.length = L)
    (ht : guard → t.length ≤ L) : (addIf guard y t).length = L := by
  unfold addIf
  by_cases h : guard
  · rw [if_pos h, Series.length_sum, hy, max_eq_left (ht h)]
  · rw [if_neg h, hy]

theorem reduced_addIf {guard : Prop} [Decidable guard] {y t : Series ℝ} (hy : ∀ p ∈ y, p.Reduced)
    (ht : ∀ p ∈ t, p.Reduced) : ∀ p ∈ addIf guard y t, p.Reduced := by
  unfold addIf
  split_ifs
  · exact Series.reduced_sum hy ht
  · exact hy

theorem operatorLength_lt {r s rho sigma : ℕ} (hr : r ≤ rho) (hs : s ≤ sigma) (hlt : r + s < rho + sigma) :
    operatorLength r s < operatorLength rho sigma := by
  unfold operatorLength
  omega

/-- The list of a term, with a factor of two entries and an operator of lower indices as it is or shifted. -/
theorem length_term_le {factor source : Series ℝ} {r s rho sigma : ℕ} (hf : factor.length = 2)
    (hsource : source.length = operatorLength r s) (hr : r ≤ rho) (hs : s ≤ sigma) (hlt : r + s < rho + sigma) :
    (factor.multiply source).length ≤ operatorLength rho sigma := by
  have hlength : (factor.multiply source).length = operatorLength r s + 1 := by
    rw [Series.length_multiply, hf, hsource]
    omega
  exact hlength ▸ operatorLength_lt hr hs hlt

theorem length_recurrence {Y : ℕ → ℕ → Series ℝ} {rho sigma : ℕ}
    (h : ∀ r s, r + s < rho + sigma → (Y r s).length = operatorLength r s) :
    (recurrence Y rho sigma).length = operatorLength rho sigma := by
  have hshift : ∀ {r s : ℕ} (k : ℝ), r + s < rho + sigma → ((Y r s).shift k).length = operatorLength r s :=
    fun k hlt => (Series.length_shift _ k).trans (h _ _ hlt)
  unfold recurrence
  refine length_addIf (length_addIf (length_addIf (length_addIf (length_addIf
    (Series.length_zeros _) ?_) ?_) ?_) ?_) ?_
  · exact fun hg => length_term_le rfl (hshift _ (by omega)) (by omega) (by omega) (by omega)
  · exact fun hg => length_term_le rfl (hshift _ (by omega)) (by omega) (by omega) (by omega)
  · exact fun hg => length_term_le rfl (hshift _ (by omega)) (by omega) (by omega) (by omega)
  · exact fun hg => length_term_le rfl (hshift _ (by omega)) (by omega) (by omega) (by omega)
  · exact fun hg => length_term_le rfl (h _ _ (by omega)) (by omega) (by omega) (by omega)

/-- **The length of an operator** is that of the zeros it starts from. -/
theorem length_operator (rho sigma : ℕ) : (operator rho sigma).length = operatorLength rho sigma := by
  induction hN : rho + sigma using Nat.strong_induction_on generalizing rho sigma with
  | _ N ih =>
    by_cases h : 1 ≤ rho + sigma
    · rw [operator_eq h]
      exact length_recurrence fun r s hlt => ih (r + s) (hN ▸ hlt) r s rfl
    · obtain ⟨rfl, rfl⟩ : rho = 0 ∧ sigma = 0 := by omega
      rw [operator_zero_zero]
      rfl

theorem reduced_recurrence (Y : ℕ → ℕ → Series ℝ) (rho sigma : ℕ) : ∀ p ∈ recurrence Y rho sigma, p.Reduced := by
  unfold recurrence
  exact reduced_addIf (reduced_addIf (reduced_addIf (reduced_addIf (reduced_addIf (Series.reduced_zeros _)
    (Series.reduced_multiply _ _)) (Series.reduced_multiply _ _)) (Series.reduced_multiply _ _))
    (Series.reduced_multiply _ _)) (Series.reduced_multiply _ _)

/-- **The entries of an operator are reduced**: each goes through a sum. -/
theorem reduced_operator (rho sigma : ℕ) : ∀ p ∈ operator rho sigma, p.Reduced := by
  by_cases h : 1 ≤ rho + sigma
  · rw [operator_eq h]
    exact reduced_recurrence operator rho sigma
  · obtain ⟨rfl, rfl⟩ : rho = 0 ∧ sigma = 0 := by omega
    rw [operator_zero_zero]
    intro p hp
    obtain rfl := List.mem_singleton.mp hp
    simp [Poly.Reduced, Poly.toPolynomial, ofCoeffs]

end Lists

/-! ## Homogeneous components -/

section Components

open MvPolynomial (homogeneousComponent)

variable {P : MvPolynomial (Fin 2) ℝ} {d : ℕ} {top : ℝ → ℝ → ℝ}

/-- Polynomials along the line through the origin in a direction. -/
noncomputable def alongLine (v : Fin 2 → ℝ) : MvPolynomial (Fin 2) ℝ →ₐ[ℝ] ℝ[X] :=
  MvPolynomial.aeval fun i => C (v i) * X

theorem eval_alongLine (v : Fin 2 → ℝ) (P : MvPolynomial (Fin 2) ℝ) (t : ℝ) :
    (alongLine v P).eval t = MvPolynomial.eval (fun i => v i * t) P := by
  have hhom : (evalRingHom t).comp (alongLine v).toRingHom = MvPolynomial.eval fun i => v i * t := by
    ext <;> simp [alongLine]
  exact DFunLike.congr_fun hhom P

/-- **A line meets the component of degree `m` in the coefficient of degree `m`.** -/
theorem coeff_alongLine (v : Fin 2 → ℝ) (P : MvPolynomial (Fin 2) ℝ) (m : ℕ) :
    (alongLine v P).coeff m = MvPolynomial.eval v (homogeneousComponent m P) := by
  induction P using MvPolynomial.induction_on' with
  | add P Q hP hQ => rw [map_add, coeff_add, hP, hQ, map_add, map_add]
  | monomial u c =>
    have hline : alongLine v (MvPolynomial.monomial u c) =
        monomial u.degree (MvPolynomial.eval v (MvPolynomial.monomial u c)) := by
      rw [alongLine, MvPolynomial.aeval_monomial, MvPolynomial.eval_monomial, ← C_mul_X_pow_eq_monomial,
        Finsupp.prod_fintype _ _ (by simp), Finsupp.prod_fintype _ _ (by simp), Fin.prod_univ_two,
        Fin.prod_univ_two, Finsupp.degree_eq_sum, Fin.sum_univ_two]
      simp only [algebraMap_eq, map_mul, map_pow]
      ring
    rw [hline, coeff_monomial, MvPolynomial.homogeneousComponent_of_mem
      ((MvPolynomial.mem_homogeneousSubmodule _ _).mpr (MvPolynomial.isHomogeneous_monomial c rfl))]
    by_cases hm : m = u.degree
    · rw [if_pos hm, if_pos hm.symm]
    · rw [if_neg hm, if_neg (Ne.symm hm), map_zero]

/-- Along a line the leading term is the coefficient of degree `d`.  The first variable takes the place of `s`. -/
theorem HasTop.degree_alongLine (h : HasTop (fun n s => MvPolynomial.eval ![s, n] P) d top) (v : Fin 2 → ℝ) :
    (alongLine v P).natDegree ≤ d ∧ (alongLine v P).coeff d = top (v 1) (v 0) := by
  obtain ⟨p, hp, hpc, hpe⟩ := h (v 1) (v 0) 0
  have hline : alongLine v P = p := by
    refine Polynomial.funext fun t => ?_
    have hpoint : ![v 0 * t + 0, v 1 * t] = fun i => v i * t := by
      funext i
      fin_cases i <;> simp
    rw [eval_alongLine, ← hpoint]
    exact (hpe t).symm
  exact hline ▸ ⟨hp, hpc⟩

theorem HasTop.component_eq_zero (h : HasTop (fun n s => MvPolynomial.eval ![s, n] P) d top) {m : ℕ} (hm : d < m) :
    homogeneousComponent m P = 0 := by
  refine MvPolynomial.funext fun v => ?_
  rw [← coeff_alongLine, map_zero]
  exact coeff_eq_zero_of_natDegree_lt ((h.degree_alongLine v).1.trans_lt hm)

/-- The component of highest degree is the leading term. -/
theorem HasTop.component_eq (h : HasTop (fun n s => MvPolynomial.eval ![s, n] P) d top)
    {Q : MvPolynomial (Fin 2) ℝ} (hQ : ∀ v, MvPolynomial.eval v Q = top (v 1) (v 0)) :
    homogeneousComponent d P = Q := by
  refine MvPolynomial.funext fun v => ?_
  rw [← coeff_alongLine, hQ, (h.degree_alongLine v).2]

theorem HasTop.totalDegree_le (h : HasTop (fun n s => MvPolynomial.eval ![s, n] P) d top) : P.totalDegree ≤ d := by
  refine Finset.sup_le fun u hu => ?_
  by_contra hlt
  have hdegree : d < u.degree := not_le.mp hlt
  have hcoeff := MvPolynomial.coeff_homogeneousComponent u.degree P u
  rw [h.component_eq_zero hdegree, MvPolynomial.coeff_zero, if_pos rfl] at hcoeff
  exact MvPolynomial.mem_support_iff.mp hu hcoeff.symm

theorem HasTop.totalDegree_eq (h : HasTop (fun n s => MvPolynomial.eval ![s, n] P) d top) {a b : ℝ}
    (ht : top a b ≠ 0) : P.totalDegree = d := by
  refine le_antisymm h.totalDegree_le (not_lt.mp fun hlt => ht ?_)
  have hline := h.degree_alongLine ![b, a]
  rw [coeff_alongLine, MvPolynomial.homogeneousComponent_eq_zero _ _ hlt, map_zero] at hline
  exact hline.2.symm

end Components

/-! ## The size of an operator -/

section Size

open Series (variableS variableN)

/-- The leading form of the operator at a pair of indices as a polynomial, up to a positive factor. -/
noncomputable def leadingPolynomial (rho sigma : ℕ) : MvPolynomial (Fin 2) ℝ :=
  (variableS - MvPolynomial.C 0.5 * variableN) ^ rho * (-variableS - MvPolynomial.C 0.5 * variableN) ^ sigma

theorem eval_leadingPolynomial (rho sigma : ℕ) (v : Fin 2 → ℝ) :
    MvPolynomial.eval v (leadingPolynomial rho sigma) = leadingForm rho sigma (v 1) (v 0) := by
  have hhalf : (0.5 : ℝ) * v 1 = v 1 / 2 := by
    norm_num
    ring
  simp only [leadingPolynomial, leadingForm, map_mul, map_pow, map_sub, map_neg, MvPolynomial.eval_C,
    Series.eval_variableS, Series.eval_variableN, hhalf]

/-- **The size of an operator**, whatever was asked of the cache before.  The list has `ρ + σ + min ρ σ + 1` entries.
The entry for `n ^ k` has one coefficient more than its degree, which is at most `ρ + σ - k`, and is the zero
polynomial for greater `k`.  The total degree is `ρ + σ`, and the component of that degree is a positive multiple of
`(s - n / 2) ^ ρ * (-s - n / 2) ^ σ`.  No operator vanishes. -/
theorem size_afterAll (history : List NewcombCache.Request) (rho sigma : ℕ) : ∃ y c sweeps,
    (NewcombCache.afterAll history).get rho sigma = .ok (y, c, sweeps) ∧
      y.length = rho + sigma + min rho sigma + 1 ∧
      (∀ k p, y[k]? = some p → p.coeffs.length = p.toPolynomial.natDegree + 1 ∧
        p.toPolynomial.natDegree ≤ rho + sigma - k ∧ (rho + sigma < k → p = 0)) ∧
      y.toBivariate.totalDegree = rho + sigma ∧
      (∃ m > 0, MvPolynomial.homogeneousComponent (rho + sigma) y.toBivariate =
        MvPolynomial.C m * leadingPolynomial rho sigma) ∧
      ∃ n s, y.evaluate n s ≠ 0 := by
  obtain ⟨c, sweeps, hget, -⟩ := NewcombCache.get_eq (NewcombCache.coherent_afterAll history) rho sigma
  obtain ⟨m, hm, hvalue⟩ := top_operator rho sigma
  have htop : HasTop (fun n s => MvPolynomial.eval ![s, n] (operator rho sigma).toBivariate) (rho + sigma)
      (fun a b => m * leadingForm rho sigma a b) :=
    hvalue.congr rfl (fun n s => (Series.eval_toBivariate _ n s).symm) fun _ _ => rfl
  -- the leading form does not vanish in the direction of the second argument
  have hne : m * leadingForm rho sigma 0 1 ≠ 0 := mul_ne_zero hm.ne' (leadingForm_zero_one rho sigma)
  refine ⟨operator rho sigma, c, sweeps, hget, length_operator rho sigma, fun k p hp => ?_, htop.totalDegree_eq hne,
    ⟨m, hm, htop.component_eq fun v => by rw [map_mul, MvPolynomial.eval_C, eval_leadingPolynomial]⟩, ?_⟩
  · have hreduced : p.Reduced := reduced_operator rho sigma p (List.mem_of_getElem? hp)
    obtain ⟨hdegree, hzero⟩ := Series.degree_entry_le htop.totalDegree_le hp
    exact ⟨hreduced, hdegree, fun hk => hreduced.eq_zero (hzero hk)⟩
  · by_contra hall
    push Not at hall
    exact hne (hvalue.eq_zero hall 0 1)

end Size

end Newcomb

end OrbitFit
