import OrbitFit.Proofs.ExactScalar
import OrbitFit.Series.Basic

/-!
# OrbitFit.Proofs.Series.Evaluation — what the operations on series mean

`ofCoeffs` reads a list of coefficients as a polynomial over any commutative semiring.  A `Poly` is read with
its numbers as coefficients (`Poly.toPolynomial`), a `Series` with the polynomials of its entries
(`Series.toPolynomial`).  Sums, convolutions, compositions and shifts of lists become the operations of the
polynomial rings, whatever zeros were trimmed, and `evaluate` becomes evaluation.

* `Series.evaluate_eq_sum`, `Poly.eval_eq_sum`: the values as sums over the coefficients.
* `Series.evaluate_operations`: the operations act on the values.
-/

open Polynomial

namespace OrbitFit

/-! ## Coefficient lists -/

section Coefficients

variable {R : Type} [CommSemiring R]

/-- The polynomial of a list of coefficients, lowest power first. -/
noncomputable def ofCoeffs : List R → R[X]
  | [] => 0
  | c :: cs => C c + X * ofCoeffs cs

@[simp] theorem ofCoeffs_nil : ofCoeffs ([] : List R) = 0 := rfl

theorem ofCoeffs_cons (c : R) (cs : List R) : ofCoeffs (c :: cs) = C c + X * ofCoeffs cs := rfl

theorem coeff_ofCoeffs (cs : List R) (k : ℕ) : (ofCoeffs cs).coeff k = cs.getD k 0 := by
  induction cs generalizing k with
  | nil => simp
  | cons c cs ih =>
    rw [ofCoeffs_cons, coeff_add]
    cases k with
    | zero => simp
    | succ k => rw [coeff_X_mul, ih, coeff_C_succ]; simp

theorem ofCoeffs_append (cs ds : List R) : ofCoeffs (cs ++ ds) = ofCoeffs cs + X ^ cs.length * ofCoeffs ds := by
  induction cs with
  | nil => simp
  | cons c cs ih =>
    rw [List.cons_append, ofCoeffs_cons, ih, ofCoeffs_cons, List.length_cons]
    ring

/-- The value of a list of coefficients, each of them read as an element of a ring and sent to where the value lies. -/
theorem eval₂_ofCoeffs {α S : Type} [CommSemiring S] (φ : α → R) (f : R →+* S) (as : List α) (x : S) :
    (ofCoeffs (as.map φ)).eval₂ f x = ∑ k : Fin as.length, f (φ as[k]) * x ^ (k : ℕ) := by
  induction as with
  | nil => simp
  | cons a as ih =>
    rw [List.map_cons, ofCoeffs_cons, eval₂_add, eval₂_C, eval₂_mul, eval₂_X, ih]
    simp only [List.length_cons]
    rw [Fin.sum_univ_succ, Finset.mul_sum]
    congr 1
    · simp
    · refine Finset.sum_congr rfl fun k _ => ?_
      simp [pow_succ]
      ring

theorem ofCoeffs_eq_zero {cs : List R} (h : ∀ c ∈ cs, c = 0) : ofCoeffs cs = 0 := by
  induction cs with
  | nil => rfl
  | cons c cs ih =>
    rw [ofCoeffs_cons, h c (by simp), ih (fun d hd => h d (by simp [hd]))]
    simp

/-- A sum over those pairs of entries whose places add up is a coefficient of the product.  `φ` reads the
entries as elements of a ring. -/
theorem sum_pairs {α : Type} [Add α] [Mul α] [Zero α] {φ : α → R} (hadd : ∀ a b, φ (a + b) = φ a + φ b)
    (hzero : φ 0 = 0) (hmul : ∀ a b, φ (a * b) = φ a * φ b) (as bs : List α) (k : ℕ) :
    φ (((List.range (k + 1)).filterMap fun i => Option.map₂ (· * ·) as[i]? bs[k - i]?).foldl (· + ·) 0) =
      (ofCoeffs (as.map φ) * ofCoeffs (bs.map φ)).coeff k := by
  -- the sum starts from any value, and a place that misses one of the lists counts as zero
  have hfold : ∀ (l : List ℕ) (z : α),
      φ ((l.filterMap fun i => Option.map₂ (· * ·) as[i]? bs[k - i]?).foldl (· + ·) z) =
        φ z + (l.map fun i => (as.map φ).getD i 0 * (bs.map φ).getD (k - i) 0).sum := by
    intro l
    induction l with
    | nil => intro z; simp
    | cons i l ih =>
      intro z
      rw [List.filterMap_cons, List.map_cons, List.sum_cons]
      cases ha : as[i]? with
      | none => simp [ih, List.getD_eq_getElem?_getD, ha]
      | some a =>
        cases hb : bs[k - i]? with
        | none => simp [ih, List.getD_eq_getElem?_getD, hb]
        | some b => simp [ih, List.getD_eq_getElem?_getD, ha, hb, hadd, hmul, add_assoc]
  rw [hfold, hzero, zero_add, coeff_mul, Finset.Nat.sum_antidiagonal_eq_sum_range_succ_mk]
  simp only [coeff_ofCoeffs]
  rfl

/-- The list of the coefficients of a product is the product. -/
theorem ofCoeffs_convolution {as bs : List R} {g : ℕ → R}
    (hg : ∀ k, g k = (ofCoeffs as * ofCoeffs bs).coeff k) :
    ofCoeffs ((List.range (as.length + bs.length - 1)).map g) = ofCoeffs as * ofCoeffs bs := by
  ext k
  rw [coeff_ofCoeffs]
  by_cases hk : k < as.length + bs.length - 1
  · rw [List.getD_eq_getElem _ _ (by simpa using hk)]
    simp [hg]
  · rw [List.getD_eq_default _ _ (by simpa using hk), coeff_mul]
    refine (Finset.sum_eq_zero fun ij hij => ?_).symm
    have hsum : ij.1 + ij.2 = k := by simpa using hij
    rw [coeff_ofCoeffs, coeff_ofCoeffs]
    by_cases hi : as.length ≤ ij.1
    · rw [List.getD_eq_default _ _ hi, zero_mul]
    · rw [List.getD_eq_default bs _ (by omega), mul_zero]

end Coefficients

/-! ## Polynomials -/

namespace Poly

/-- A polynomial by its coefficients as an element of the polynomial ring. -/
noncomputable def toPolynomial (p : Poly ℝ) : ℝ[X] := ofCoeffs p.coeffs

/-- Trimming drops zeros at the end, and the first coefficient stays. -/
theorem exists_trim (cs : List ℝ) : ∃ kept zeros, cs = kept ++ zeros ∧ (∀ c ∈ zeros, c = 0) ∧
    trim cs = if kept = [] then cs.take 1 else kept := by
  have hsplit := List.takeWhile_append_dropWhile (p := fun c => @BEq.beq ℝ Scalar.toBEq c 0) (l := cs.reverse)
  refine ⟨(cs.reverse.dropWhile fun c => @BEq.beq ℝ Scalar.toBEq c 0).reverse,
    (cs.reverse.takeWhile fun c => @BEq.beq ℝ Scalar.toBEq c 0).reverse, ?_, ?_, ?_⟩
  · rw [← List.reverse_append, hsplit, List.reverse_reverse]
  · intro c hc
    simpa using List.mem_takeWhile_imp (List.mem_reverse.mp hc)
  · unfold trim
    split
    · rename_i h
      rw [h, List.reverse_nil, if_pos rfl]
    · rename_i h
      rw [if_neg (by simpa using h)]

theorem ofCoeffs_trim (cs : List ℝ) : ofCoeffs (trim cs) = ofCoeffs cs := by
  obtain ⟨kept, zeros, hcs, hzero, htrim⟩ := exists_trim cs
  rw [htrim]
  by_cases hk : kept = []
  · rw [hk, List.nil_append] at hcs
    rw [← hcs] at hzero
    rw [if_pos hk, ofCoeffs_eq_zero hzero]
    exact ofCoeffs_eq_zero (fun c hc => hzero c (List.mem_of_mem_take hc))
  · rw [if_neg hk, hcs, ofCoeffs_append, ofCoeffs_eq_zero hzero, mul_zero, add_zero]

theorem ofCoeffs_addCoeffs (cs ds : List ℝ) : ofCoeffs (addCoeffs cs ds) = ofCoeffs cs + ofCoeffs ds := by
  fun_induction addCoeffs cs ds with
  | case1 ds => simp
  | case2 cs => simp
  | case3 c cs d ds ih =>
    rw [ofCoeffs_cons, ih, ofCoeffs_cons, ofCoeffs_cons, C_add]
    ring

theorem ofCoeffs_convolve (cs ds : List ℝ) : ofCoeffs (convolve cs ds) = ofCoeffs cs * ofCoeffs ds := by
  refine ofCoeffs_convolution (fun k => ?_)
  have h := sum_pairs (φ := (id : ℝ → ℝ)) (fun _ _ => rfl) rfl (fun _ _ => rfl) cs ds k
  rw [List.map_id, List.map_id] at h
  rw [← h]
  unfold Scalar.sum
  congr 2
  funext i
  cases cs[i]? <;> cases ds[k - i]? <;> rfl

@[simp] theorem toPolynomial_zero : (0 : Poly ℝ).toPolynomial = 0 := by
  show ofCoeffs [(0 : ℝ)] = 0
  simp [ofCoeffs]

@[simp] theorem toPolynomial_const (c : ℝ) : (const c).toPolynomial = C c := by
  simp [toPolynomial, const, ofCoeffs]

@[simp] theorem toPolynomial_add (p q : Poly ℝ) :
    (p + q).toPolynomial = p.toPolynomial + q.toPolynomial := by
  show ofCoeffs (trim (addCoeffs (trim p.coeffs) (trim q.coeffs))) = _
  rw [ofCoeffs_trim, ofCoeffs_addCoeffs, ofCoeffs_trim, ofCoeffs_trim]
  rfl

@[simp] theorem toPolynomial_mul (p q : Poly ℝ) :
    (p * q).toPolynomial = p.toPolynomial * q.toPolynomial := by
  show ofCoeffs (trim (if (trim p.coeffs).length < (trim q.coeffs).length then _ else _)) = _
  rw [ofCoeffs_trim]
  -- the shorter list comes second in the product that is formed, which the ring does not see
  split_ifs
  · rw [ofCoeffs_convolve, ofCoeffs_trim, ofCoeffs_trim, mul_comm]
    rfl
  · rw [ofCoeffs_convolve, ofCoeffs_trim, ofCoeffs_trim]
    rfl

theorem eval_ofCoeffs (cs : List ℝ) (x : ℝ) :
    (ofCoeffs cs).eval x = cs.foldr (fun c value => c + value * x) 0 := by
  induction cs with
  | nil => simp
  | cons c cs ih =>
    rw [ofCoeffs_cons, List.foldr_cons, ← ih]
    simp [mul_comm]

theorem eval_eq (p : Poly ℝ) (x : ℝ) : p.eval x = p.toPolynomial.eval x := by
  unfold toPolynomial eval
  rw [eval_ofCoeffs, ← List.foldl_reverse]
  cases p.coeffs.reverse with
  | nil => rfl
  | cons last lower => simp

/-- The value of a polynomial is the sum of its coefficients times the powers. -/
theorem eval_eq_sum (p : Poly ℝ) (x : ℝ) : p.eval x = ∑ j : Fin p.coeffs.length, p.coeffs[j] * x ^ (j : ℕ) := by
  have h := eval₂_ofCoeffs (fun c : ℝ => c) (RingHom.id ℝ) p.coeffs x
  rw [List.map_id'] at h
  rw [eval_eq]
  exact h

theorem comp_ofCoeffs (cs : List ℝ) (q : ℝ[X]) :
    (ofCoeffs cs).comp q = cs.foldr (fun c value => C c + value * q) 0 := by
  induction cs with
  | nil => simp
  | cons c cs ih =>
    rw [ofCoeffs_cons, List.foldr_cons, ← ih]
    simp [mul_comm]

theorem toPolynomial_comp (p q : Poly ℝ) : (p.comp q).toPolynomial = p.toPolynomial.comp q.toPolynomial := by
  have hfold : ∀ (lower : List ℝ) (value : Poly ℝ),
      (lower.foldl (fun value c => const c + value * q) value).toPolynomial =
        lower.foldl (fun value c => C c + value * q.toPolynomial) value.toPolynomial := by
    intro lower
    induction lower with
    | nil => intro value; rfl
    | cons c lower ih => intro value; rw [List.foldl_cons, List.foldl_cons, ih]; simp
  have hp : p.toPolynomial.comp q.toPolynomial =
      p.coeffs.reverse.foldl (fun value c => C c + value * q.toPolynomial) 0 := by
    rw [toPolynomial, comp_ofCoeffs, ← List.foldl_reverse]
  rw [hp]
  unfold comp
  cases hrev : p.coeffs.reverse with
  | nil =>
    rw [List.reverse_eq_nil_iff] at hrev
    simp [toPolynomial, hrev]
  | cons last lower => simp [hfold]

theorem toPolynomial_shift (p : Poly ℝ) (k : ℝ) :
    (p.shift k).toPolynomial = p.toPolynomial.comp (X + C k) := by
  unfold shift
  rw [toPolynomial_comp]
  congr 1
  simp [toPolynomial, ofCoeffs, add_comm]

end Poly

/-! ## Series -/

namespace Series

/-- A series as a polynomial in `n` over the polynomials in `s`. -/
noncomputable def toPolynomial (a : Series ℝ) : ℝ[X][X] := ofCoeffs (a.map Poly.toPolynomial)

theorem toPolynomial_zeros (length : ℕ) : toPolynomial (zeros length) = 0 := by
  refine ofCoeffs_eq_zero (fun c hc => ?_)
  obtain ⟨p, hp, rfl⟩ := List.mem_map.mp hc
  rw [List.eq_of_mem_replicate hp]
  exact Poly.toPolynomial_zero

theorem toPolynomial_sum (a b : Series ℝ) : (a.sum b).toPolynomial = a.toPolynomial + b.toPolynomial := by
  unfold toPolynomial
  fun_induction Series.sum a b with
  | case1 b => simp
  | case2 a => simp
  | case3 p a q b ih =>
    rw [List.map_cons, ofCoeffs_cons, ih, List.map_cons, List.map_cons, ofCoeffs_cons, ofCoeffs_cons,
      Poly.toPolynomial_add, C_add]
    ring

theorem toPolynomial_multiply (a b : Series ℝ) :
    (a.multiply b).toPolynomial = a.toPolynomial * b.toPolynomial := by
  unfold toPolynomial multiply
  rw [List.map_map]
  have hlen : a.length + b.length - 1 =
      (a.map Poly.toPolynomial).length + (b.map Poly.toPolynomial).length - 1 := by simp
  rw [hlen]
  refine ofCoeffs_convolution (fun k => ?_)
  rw [← sum_pairs Poly.toPolynomial_add Poly.toPolynomial_zero Poly.toPolynomial_mul]
  show (productCoeff a b k).toPolynomial = _
  unfold productCoeff
  congr 3
  funext i
  cases a[i]? <;> cases b[k - i]? <;> rfl

theorem toPolynomial_shift (a : Series ℝ) (k : ℝ) :
    (a.shift k).toPolynomial = a.toPolynomial.map (compRingHom (X + C k)) := by
  unfold toPolynomial shift
  induction a with
  | nil => simp
  | cons p a ih =>
    rw [List.map_cons, List.map_cons, ofCoeffs_cons, ih, List.map_cons, ofCoeffs_cons, Poly.toPolynomial_shift]
    simp

/-- The value of a series is that of its polynomial. -/
theorem evaluate_eq (a : Series ℝ) (n s : ℝ) :
    a.evaluate n s = a.toPolynomial.eval₂ (evalRingHom s) n := by
  have hfold : ∀ (a : Series ℝ) (total power : ℝ),
      (a.foldl (fun (acc : ℝ × ℝ) p => (acc.1 + p.eval s * acc.2, acc.2 * n)) (total, power)).1 =
        total + power * a.toPolynomial.eval₂ (evalRingHom s) n := by
    intro a
    induction a with
    | nil => intro total power; simp [toPolynomial]
    | cons p a ih =>
      intro total power
      have hcons : toPolynomial (p :: a) = C p.toPolynomial + X * toPolynomial a := rfl
      rw [List.foldl_cons, ih, hcons, Poly.eval_eq, eval₂_add, eval₂_C, eval₂_mul, eval₂_X, coe_evalRingHom]
      ring
  rw [evaluate, hfold a 0 1, zero_add, one_mul]

/-- The value of a series is the sum of its coefficients at `s` times the powers of `n`. -/
theorem evaluate_eq_sum (a : Series ℝ) (n s : ℝ) :
    a.evaluate n s = ∑ k : Fin a.length, a[k].eval s * n ^ (k : ℕ) := by
  rw [evaluate_eq, toPolynomial, eval₂_ofCoeffs]
  refine Finset.sum_congr rfl fun k _ => ?_
  rw [coe_evalRingHom, ← Poly.eval_eq]

/-! ## Values -/

theorem evaluate_zeros (length : ℕ) (n s : ℝ) : (zeros length).evaluate n s = 0 := by
  rw [evaluate_eq, toPolynomial_zeros, eval₂_zero]

theorem evaluate_sum (a b : Series ℝ) (n s : ℝ) : (a.sum b).evaluate n s = a.evaluate n s + b.evaluate n s := by
  rw [evaluate_eq, toPolynomial_sum, eval₂_add, ← evaluate_eq, ← evaluate_eq]

theorem evaluate_multiply (a b : Series ℝ) (n s : ℝ) :
    (a.multiply b).evaluate n s = a.evaluate n s * b.evaluate n s := by
  rw [evaluate_eq, toPolynomial_multiply, eval₂_mul, ← evaluate_eq, ← evaluate_eq]

theorem evaluate_shift (a : Series ℝ) (k n s : ℝ) : (a.shift k).evaluate n s = a.evaluate n (s + k) := by
  rw [evaluate_eq, toPolynomial_shift, eval₂_map, evaluate_eq]
  congr 1
  ext
  · simp
  · simp [add_comm]

/-- **A series is a function of two numbers, and the operations on series are those on functions**: it is the double
sum over its coefficients, a product of series is the product of the values, a sum is their sum, and a shift moves
the second number, by any amount. -/
theorem evaluate_operations (a b : Series ℝ) (n s k : ℝ) :
    (a.evaluate n s =
        ∑ i : Fin a.length, (∑ j : Fin a[i].coeffs.length, a[i].coeffs[j] * s ^ (j : ℕ)) * n ^ (i : ℕ)) ∧
      (a.multiply b).evaluate n s = a.evaluate n s * b.evaluate n s ∧
      (a.sum b).evaluate n s = a.evaluate n s + b.evaluate n s ∧
      (a.shift k).evaluate n s = a.evaluate n (s + k) := by
  refine ⟨?_, evaluate_multiply a b n s, evaluate_sum a b n s, evaluate_shift a k n s⟩
  rw [evaluate_eq_sum]
  exact Finset.sum_congr rfl fun i _ => by rw [Poly.eval_eq_sum]

end Series

end OrbitFit
