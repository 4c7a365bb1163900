import Mathlib
import OrbitFit.Proofs.Series.Evaluation

/-!
# OrbitFit.Proofs.Series.Degree — how long the lists are

A list of coefficients can be longer than the degree asks for.  Sums of polynomials are trimmed, so whatever goes
through one is as short as it can be (`Poly.Reduced`); the entries of a product of series are such sums.  The list of
the entries itself is never trimmed: its length follows from the lengths of the operands alone.

* `Poly.length_trim`: what is trimmed has one coefficient more than its degree.
* `Series.reduced_multiply`, `Series.reduced_sum`, `Series.reduced_shift`: the entries stay reduced.
* `Series.ext_reduced`: such series are equal as lists if they have the same length and the same polynomial.
* `Series.coeff_toBivariate`, `Series.degree_entry_le`: the entries in a polynomial in two variables, and their degree.
-/

open Polynomial

namespace OrbitFit

/-! ## Coefficient lists -/

section Coefficients

theorem natDegree_ofCoeffs {cs : List ℝ} (h : cs ≠ []) (hl : cs.getLast h ≠ 0) :
    cs.length = (ofCoeffs cs).natDegree + 1 := by
  have hpos : 0 < cs.length := List.length_pos_of_ne_nil h
  have htop : (ofCoeffs cs).coeff (cs.length - 1) ≠ 0 := by
    rwa [coeff_ofCoeffs, List.getD_eq_getElem _ _ (by omega), ← List.getLast_eq_getElem h]
  have hle : (ofCoeffs cs).natDegree ≤ cs.length - 1 := by
    refine natDegree_le_iff_coeff_eq_zero.mpr fun k hk => ?_
    rw [coeff_ofCoeffs, List.getD_eq_default _ _ (by omega)]
  have := natDegree_eq_of_le_of_coeff_ne_zero hle htop
  omega

end Coefficients

namespace Poly

/-! ## Polynomials -/

/-- The polynomial has no zeros at the end: one coefficient more than its degree. -/
def Reduced (p : Poly ℝ) : Prop := p.coeffs.length = p.toPolynomial.natDegree + 1

theorem Reduced.ne_nil {p : Poly ℝ} (h : p.Reduced) : p.coeffs ≠ [] := by
  intro hp
  rw [Reduced, hp, List.length_nil] at h
  omega

/-- Reduced polynomials are determined by their elements of the polynomial ring. -/
theorem Reduced.ext {p q : Poly ℝ} (hp : p.Reduced) (hq : q.Reduced) (h : p.toPolynomial = q.toPolynomial) :
    p = q := by
  have hlength : p.coeffs.length = q.coeffs.length := by rw [hp, hq, h]
  have hcoeffs : p.coeffs = q.coeffs := by
    refine List.ext_getElem hlength fun j hj hj' => ?_
    have hcoeff := congrArg (coeff · j) h
    simp only [toPolynomial, coeff_ofCoeffs] at hcoeff
    rwa [List.getD_eq_getElem _ _ hj, List.getD_eq_getElem _ _ hj'] at hcoeff
  cases p
  cases q
  exact congrArg Poly.mk hcoeffs

/-- There is one reduced polynomial without value. -/
theorem Reduced.eq_zero {p : Poly ℝ} (h : p.Reduced) (hp : p.toPolynomial = 0) : p = 0 := by
  obtain ⟨cs⟩ := p
  rw [Reduced, hp, natDegree_zero] at h
  obtain ⟨c, rfl⟩ := List.length_eq_one_iff.mp h
  have hc : c = 0 := by simpa [toPolynomial, ofCoeffs] using hp
  rw [hc]
  rfl

theorem length_trim {cs : List ℝ} (h : cs ≠ []) : (trim cs).length = (ofCoeffs cs).natDegree + 1 := by
  rw [← ofCoeffs_trim cs]
  unfold trim
  split
  · rename_i hzero
    have hzero : ∀ c ∈ cs, c = 0 := by simpa using hzero
    rw [ofCoeffs_eq_zero fun c hc => hzero c (List.mem_of_mem_take hc), natDegree_zero, List.length_take]
    have := List.length_pos_of_ne_nil h
    omega
  · rename_i hkept
    have hkept : (cs.reverse.dropWhile fun c => @BEq.beq ℝ Scalar.toBEq c 0) ≠ [] := hkept
    refine natDegree_ofCoeffs (by simpa using hkept) ?_
    rw [List.getLast_reverse]
    simpa using List.head_dropWhile_not (fun c => @BEq.beq ℝ Scalar.toBEq c 0) hkept

theorem reduced_trim {cs : List ℝ} (h : cs ≠ []) : (⟨trim cs⟩ : Poly ℝ).Reduced := by
  show (trim cs).length = (ofCoeffs (trim cs)).natDegree + 1
  rw [length_trim h, ofCoeffs_trim]

/-- **Sums are reduced**, also when the operands are not. -/
theorem reduced_add {p : Poly ℝ} (h : p.coeffs ≠ []) (q : Poly ℝ) : (p + q).Reduced := by
  refine reduced_trim ?_
  have hp : trim p.coeffs ≠ [] := by
    rw [← List.length_pos_iff, length_trim h]
    omega
  obtain ⟨c, cs, hcs⟩ := List.exists_cons_of_ne_nil hp
  rw [hcs]
  cases trim q.coeffs <;> simp [addCoeffs]

theorem reduced_zero : (0 : Poly ℝ).Reduced := by
  rw [Reduced, toPolynomial_zero, natDegree_zero]
  rfl

theorem reduced_foldl_add {p : Poly ℝ} (h : p.Reduced) (qs : List (Poly ℝ)) : (qs.foldl (· + ·) p).Reduced := by
  induction qs generalizing p with
  | nil => exact h
  | cons q qs ih => exact ih (reduced_add h.ne_nil q)

/-- What is put into a polynomial comes out reduced: every step down the powers is a sum. -/
theorem reduced_comp {p : Poly ℝ} (h : p.coeffs ≠ []) (q : Poly ℝ) : (p.comp q).Reduced := by
  have hfold : ∀ (lower : List ℝ) (value : Poly ℝ), value.Reduced →
      (lower.foldl (fun value c => const c + value * q) value).Reduced := by
    intro lower
    induction lower with
    | nil => exact fun value hvalue => hvalue
    | cons c lower ih => exact fun value _ => ih _ (reduced_add (List.cons_ne_nil c []) _)
  unfold comp
  cases hrev : p.coeffs.reverse with
  | nil => exact absurd (List.reverse_eq_nil_iff.mp hrev) h
  | cons last lower => exact hfold lower _ (reduced_add (List.cons_ne_nil last []) _)

end Poly

namespace Series

/-! ## Entries of a series -/

section Entries

variable {a b : Series ℝ}

theorem reduced_zeros (length : ℕ) : ∀ p ∈ (zeros length : Series ℝ), p.Reduced := by
  intro p hp
  rw [List.eq_of_mem_replicate hp]
  exact Poly.reduced_zero

/-- The entries of a product are sums that start from zero. -/
theorem reduced_multiply (a b : Series ℝ) : ∀ p ∈ a.multiply b, p.Reduced := by
  intro p hp
  obtain ⟨k, -, rfl⟩ := List.mem_map.mp hp
  exact Poly.reduced_foldl_add Poly.reduced_zero _

theorem reduced_sum (ha : ∀ p ∈ a, p.Reduced) (hb : ∀ p ∈ b, p.Reduced) : ∀ p ∈ a.sum b, p.Reduced := by
  fun_induction Series.sum a b with
  | case1 b => exact hb
  | case2 a => exact ha
  | case3 p a q b ih =>
    rw [List.forall_mem_cons] at ha hb ⊢
    exact ⟨Poly.reduced_add ha.1.ne_nil q, ih ha.2 hb.2⟩

theorem reduced_shift (ha : ∀ p ∈ a, p.Reduced) (k : ℝ) : ∀ p ∈ a.shift k, p.Reduced := by
  intro p hp
  obtain ⟨q, hq, rfl⟩ := List.mem_map.mp hp
  exact Poly.reduced_comp (ha q hq).ne_nil _

theorem coeff_toPolynomial {k : ℕ} (h : k < a.length) : a.toPolynomial.coeff k = a[k].toPolynomial := by
  rw [toPolynomial, coeff_ofCoeffs, List.getD_eq_getElem _ _ (by simpa using h), List.getElem_map]

/-- **A series of reduced entries is determined by its length and its polynomial.** -/
theorem ext_reduced (hlength : a.length = b.length) (ha : ∀ p ∈ a, p.Reduced) (hb : ∀ p ∈ b, p.Reduced)
    (h : a.toPolynomial = b.toPolynomial) : a = b := by
  refine List.ext_getElem hlength fun k hk hk' => ?_
  refine (ha _ (List.getElem_mem hk)).ext (hb _ (List.getElem_mem hk')) ?_
  rw [← coeff_toPolynomial hk, ← coeff_toPolynomial hk', h]

end Entries

/-! ## Lengths -/

section Lengths

@[simp] theorem length_zeros (length : ℕ) : (zeros length : Series ℝ).length = length := List.length_replicate

@[simp] theorem length_shift (a : Series ℝ) (k : ℝ) : (a.shift k).length = a.length := List.length_map _

@[simp] theorem length_multiply (a b : Series ℝ) : (a.multiply b).length = a.length + b.length - 1 := by
  simp [multiply]

@[simp] theorem length_sum (a b : Series ℝ) : (a.sum b).length = max a.length b.length := by
  fun_induction Series.sum a b with
  | case1 b => simp
  | case2 a => simp
  | case3 p a q b ih => simp [ih]

end Lengths

/-! ## Two variables -/

section Bivariate

/-- The exponents of `s` and `n`, in this order. -/
noncomputable def exponents (j k : ℕ) : Fin 2 →₀ ℕ := Finsupp.single 0 j + Finsupp.single 1 k

theorem exponents_eq_iff {i j k l : ℕ} : exponents i k = exponents j l ↔ i = j ∧ k = l := by
  constructor
  · intro h
    exact ⟨by simpa [exponents] using DFunLike.congr_fun h 0, by simpa [exponents] using DFunLike.congr_fun h 1⟩
  · rintro ⟨rfl, rfl⟩
    rfl

theorem degree_exponents (j k : ℕ) : (exponents j k).degree = j + k := by
  simp [exponents, map_add, Finsupp.degree_single]

/-- The variable of the coefficients. -/
noncomputable def variableS : MvPolynomial (Fin 2) ℝ := MvPolynomial.X 0

/-- The variable of the powers that a series is arranged by. -/
noncomputable def variableN : MvPolynomial (Fin 2) ℝ := MvPolynomial.X 1

@[simp] theorem eval_variableS (v : Fin 2 → ℝ) : MvPolynomial.eval v variableS = v 0 := MvPolynomial.eval_X 0

@[simp] theorem eval_variableN (v : Fin 2 → ℝ) : MvPolynomial.eval v variableN = v 1 := MvPolynomial.eval_X 1

/-- A series as a polynomial in two variables, `s` the first and `n` the second. -/
noncomputable def toBivariate (a : Series ℝ) : MvPolynomial (Fin 2) ℝ :=
  Bivariate.equivMvPolynomial ℝ a.toPolynomial

theorem coeff_equivMvPolynomial (P : ℝ[X][X]) (j k : ℕ) :
    (Bivariate.equivMvPolynomial ℝ P).coeff (exponents j k) = (P.coeff k).coeff j := by
  induction P using Polynomial.induction_on' with
  | add P Q hP hQ => rw [map_add, MvPolynomial.coeff_add, hP, hQ, coeff_add, coeff_add]
  | monomial l p =>
    induction p using Polynomial.induction_on' with
    | add p q hp hq =>
      rw [map_add, map_add, MvPolynomial.coeff_add, hp, hq, coeff_add, coeff_add]
    | monomial i c =>
      have hmonomial : Bivariate.equivMvPolynomial ℝ (monomial l (monomial i c)) =
          MvPolynomial.monomial (exponents i l) c := by
        rw [← C_mul_X_pow_eq_monomial, ← C_mul_X_pow_eq_monomial]
        simp [MvPolynomial.monomial_eq, exponents, Finsupp.prod_fintype, mul_assoc]
      rw [hmonomial, MvPolynomial.coeff_monomial]
      simp only [exponents_eq_iff, coeff_monomial]
      by_cases hk : l = k <;> by_cases hj : i = j <;> simp [hk, hj, coeff_monomial]

theorem eval_toBivariate (a : Series ℝ) (n s : ℝ) : MvPolynomial.eval ![s, n] a.toBivariate = a.evaluate n s := by
  rw [evaluate_eq, toBivariate]
  have hhom : (MvPolynomial.eval ![s, n]).comp (Bivariate.equivMvPolynomial ℝ : ℝ[X][X] →+* MvPolynomial (Fin 2) ℝ) =
      eval₂RingHom (evalRingHom s) n := by
    ext <;> simp
  exact DFunLike.congr_fun hhom a.toPolynomial

/-- The coefficients of the entry for `n ^ k` are those of the monomials with that power of `n`. -/
theorem coeff_toBivariate {a : Series ℝ} {k : ℕ} {p : Poly ℝ} (hp : a[k]? = some p) (j : ℕ) :
    a.toBivariate.coeff (exponents j k) = p.toPolynomial.coeff j := by
  rw [toBivariate, coeff_equivMvPolynomial, toPolynomial, coeff_ofCoeffs, List.getD_eq_getElem?_getD,
    List.getElem?_map, hp]
  rfl

/-- An entry of a series of total degree at most `d`. -/
theorem degree_entry_le {a : Series ℝ} {d k : ℕ} {p : Poly ℝ} (hd : a.toBivariate.totalDegree ≤ d)
    (hp : a[k]? = some p) : p.toPolynomial.natDegree ≤ d - k ∧ (d < k → p.toPolynomial = 0) := by
  have hzero : ∀ j, d < j + k → p.toPolynomial.coeff j = 0 := by
    intro j hj
    rw [← coeff_toBivariate hp]
    refine MvPolynomial.coeff_eq_zero_of_totalDegree_lt (hd.trans_lt ?_)
    rwa [← Finsupp.degree_apply, degree_exponents]
  constructor
  · exact natDegree_le_iff_coeff_eq_zero.mpr fun j hj => hzero j (by omega)
  · intro hk
    ext j
    exact hzero j (by omega)

end Bivariate

end Series

end OrbitFit
