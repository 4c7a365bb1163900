import OrbitFit.Proofs.Series.Degree

/-!
# OrbitFit.Proofs.Series.Laws — sums, products and shifts obey the laws of a ring

Two series may have the same values and still differ as lists: in zeros at the end of the list, and in zeros at the
end of the coefficients of an entry.  The operations leave neither to chance.  The length of a result follows from the
lengths of the operands, and its entries are trimmed, also where leading coefficients cancel or where `sum` copies the
end of the longer operand.  So the laws of the polynomial ring in two variables hold for the lists themselves.

* `Poly.trimmed_iff_reduced`: what it means to be trimmed, by the last coefficient and by the degree.
* `Series.Proper`: the lists that the operations are meant for, and that they stay among them.
* `Series.ring_laws`: the laws.
-/

open Polynomial

namespace OrbitFit

/-! ## Trimmed polynomials -/

namespace Poly

/-- A single coefficient, or a last one that is not zero. -/
def Trimmed (p : Poly ℝ) : Prop := p.coeffs.length = 1 ∨ ∃ c, p.coeffs.getLast? = some c ∧ c ≠ 0

theorem natDegree_ofCoeffs_single (c : ℝ) : (ofCoeffs [c]).natDegree = 0 := by
  rw [ofCoeffs_cons, ofCoeffs_nil, mul_zero, add_zero, natDegree_C]

theorem Trimmed.reduced {p : Poly ℝ} (h : p.Trimmed) : p.Reduced := by
  obtain ⟨cs⟩ := p
  rcases h with hone | ⟨c, hlast, hc⟩
  · obtain ⟨c, rfl⟩ := List.length_eq_one_iff.mp hone
    exact congrArg (· + 1) (natDegree_ofCoeffs_single c).symm
  · have hne : cs ≠ [] := by
      rintro rfl
      cases hlast
    rw [List.getLast?_eq_getLast_of_ne_nil hne, Option.some_inj] at hlast
    exact natDegree_ofCoeffs hne (hlast.trans_ne hc)

theorem Reduced.trimmed {p : Poly ℝ} (h : p.Reduced) : p.Trimmed := by
  have hne := h.ne_nil
  obtain ⟨cs⟩ := p
  have hlength : cs.length = (ofCoeffs cs).natDegree + 1 := h
  by_cases hdegree : (ofCoeffs cs).natDegree = 0
  · exact Or.inl (by rw [hlength, hdegree])
  · have hzero : ofCoeffs cs ≠ 0 := fun h0 => hdegree (by rw [h0, natDegree_zero])
    have htop : (ofCoeffs cs).coeff (cs.length - 1) ≠ 0 := by
      rw [hlength, Nat.add_sub_cancel, coeff_natDegree]
      exact leadingCoeff_ne_zero.mpr hzero
    rw [coeff_ofCoeffs, List.getD_eq_getElem _ _ (by omega), ← List.getLast_eq_getElem hne] at htop
    exact Or.inr ⟨_, List.getLast?_eq_getLast_of_ne_nil hne, htop⟩

/-- **Trimmed polynomials have one coefficient more than their degree**, and no others have. -/
theorem trimmed_iff_reduced {p : Poly ℝ} : p.Trimmed ↔ p.Reduced := ⟨Trimmed.reduced, Reduced.trimmed⟩

end Poly

namespace Series

/-! ## Proper series -/

section Proper

/-- One entry at least, and every entry trimmed. -/
structure Proper (a : Series ℝ) : Prop where
  ne_nil : a ≠ []
  trimmed : ∀ p ∈ a, p.Trimmed

/-- The series that is one everywhere. -/
noncomputable def one : Series ℝ := [Poly.const 1]

@[simp] theorem toPolynomial_one : toPolynomial one = 1 := by
  simp [toPolynomial, one, ofCoeffs]

@[simp] theorem length_one : one.length = 1 := rfl

variable {a b : Series ℝ}

theorem proper_of_reduced (hlength : 0 < a.length) (h : ∀ p ∈ a, p.Reduced) : a.Proper :=
  ⟨List.ne_nil_of_length_pos hlength, fun p hp => (h p hp).trimmed⟩

theorem Proper.reduced (ha : a.Proper) : ∀ p ∈ a, p.Reduced := fun p hp => (ha.trimmed p hp).reduced

theorem Proper.length_pos (ha : a.Proper) : 0 < a.length := List.length_pos_of_ne_nil ha.ne_nil

theorem Proper.multiply (ha : a.Proper) (hb : b.Proper) : (a.multiply b).Proper := by
  have hlow := ha.length_pos
  have hlow' := hb.length_pos
  refine proper_of_reduced ?_ (reduced_multiply a b)
  rw [length_multiply]
  omega

theorem Proper.sum (ha : a.Proper) (hb : b.Proper) : (a.sum b).Proper := by
  refine proper_of_reduced ?_ (reduced_sum ha.reduced hb.reduced)
  rw [length_sum]
  exact lt_max_of_lt_left ha.length_pos

theorem Proper.shift (ha : a.Proper) (k : ℝ) : (a.shift k).Proper := by
  refine proper_of_reduced ?_ (reduced_shift ha.reduced k)
  rw [length_shift]
  exact ha.length_pos

/-- **Proper series are equal if they have the same length and the same polynomial.** -/
theorem Proper.ext (ha : a.Proper) (hb : b.Proper) (hlength : a.length = b.length)
    (h : a.toPolynomial = b.toPolynomial) : a = b :=
  ext_reduced hlength ha.reduced hb.reduced h

end Proper

/-! ## The laws -/

section Laws

variable {a b c : Series ℝ}

theorem multiply_comm (a b : Series ℝ) : a.multiply b = b.multiply a := by
  refine ext_reduced ?_ (reduced_multiply a b) (reduced_multiply b a) ?_
  · rw [length_multiply, length_multiply, add_comm]
  · rw [toPolynomial_multiply, toPolynomial_multiply, mul_comm]

theorem Proper.multiply_assoc (ha : a.Proper) (hb : b.Proper) (hc : c.Proper) :
    (a.multiply b).multiply c = a.multiply (b.multiply c) := by
  refine ((ha.multiply hb).multiply hc).ext (ha.multiply (hb.multiply hc)) ?_ ?_
  · have hlow := hb.length_pos
    simp only [length_multiply]
    omega
  · simp only [toPolynomial_multiply, mul_assoc]

theorem Proper.multiply_one (ha : a.Proper) : a.multiply one = a := by
  refine ext_reduced ?_ (reduced_multiply a one) ha.reduced ?_
  · rw [length_multiply, length_one, Nat.add_sub_cancel]
  · rw [toPolynomial_multiply, toPolynomial_one, mul_one]

theorem Proper.sum_comm (ha : a.Proper) (hb : b.Proper) : a.sum b = b.sum a := by
  refine (ha.sum hb).ext (hb.sum ha) ?_ ?_
  · rw [length_sum, length_sum, max_comm]
  · rw [toPolynomial_sum, toPolynomial_sum, add_comm]

theorem Proper.sum_assoc (ha : a.Proper) (hb : b.Proper) (hc : c.Proper) :
    (a.sum b).sum c = a.sum (b.sum c) := by
  refine ((ha.sum hb).sum hc).ext (ha.sum (hb.sum hc)) ?_ ?_
  · simp only [length_sum, max_assoc]
  · simp only [toPolynomial_sum, add_assoc]

theorem Proper.multiply_sum (ha : a.Proper) (hb : b.Proper) (hc : c.Proper) :
    a.multiply (b.sum c) = (a.multiply b).sum (a.multiply c) := by
  refine (ha.multiply (hb.sum hc)).ext ((ha.multiply hb).sum (ha.multiply hc)) ?_ ?_
  · simp only [length_multiply, length_sum]
    omega
  · simp only [toPolynomial_multiply, toPolynomial_sum, mul_add]

theorem Proper.shift_multiply (ha : a.Proper) (hb : b.Proper) (k : ℝ) :
    (a.multiply b).shift k = (a.shift k).multiply (b.shift k) := by
  refine ((ha.multiply hb).shift k).ext ((ha.shift k).multiply (hb.shift k)) ?_ ?_
  · simp only [length_multiply, length_shift]
  · simp only [toPolynomial_multiply, toPolynomial_shift, Polynomial.map_mul]

theorem Proper.shift_sum (ha : a.Proper) (hb : b.Proper) (k : ℝ) :
    (a.sum b).shift k = (a.shift k).sum (b.shift k) := by
  refine ((ha.sum hb).shift k).ext ((ha.shift k).sum (hb.shift k)) ?_ ?_
  · simp only [length_sum, length_shift]
  · simp only [toPolynomial_sum, toPolynomial_shift, Polynomial.map_add]

/-- One shift after another is the shift by both. -/
theorem compRingHom_shift (j k : ℝ) :
    (compRingHom (X + C k)).comp (compRingHom (X + C j)) = compRingHom (X + C (j + k)) := by
  refine Polynomial.ringHom_ext (fun c => by simp) ?_
  simp only [RingHom.comp_apply, coe_compRingHom_apply, X_comp, add_comp, C_comp, C_add]
  ring

theorem Proper.shift_shift (ha : a.Proper) (j k : ℝ) : (a.shift j).shift k = a.shift (j + k) := by
  refine ((ha.shift j).shift k).ext (ha.shift (j + k)) ?_ ?_
  · simp only [length_shift]
  · rw [toPolynomial_shift, toPolynomial_shift, toPolynomial_shift, Polynomial.map_map, compRingHom_shift]

theorem Proper.shift_zero (ha : a.Proper) : a.shift 0 = a := by
  refine (ha.shift 0).ext ha (length_shift a 0) ?_
  have hid : compRingHom (X + C 0) = RingHom.id ℝ[X] := by
    ext <;> simp
  rw [toPolynomial_shift, hid, Polynomial.map_id]

/-- **The operations on series obey the laws of a ring, list by list**: products are commutative and associative and
have a unit, sums are commutative and associative, products distribute over sums, and a shift, by any amount, respects
sums and products, adds up with other shifts and does nothing at zero.  The lengths of the results follow from those of
the operands, and all results are trimmed again. -/
theorem ring_laws (ha : a.Proper) (hb : b.Proper) (hc : c.Proper) (j k : ℝ) :
    (a.multiply b = b.multiply a ∧ (a.multiply b).multiply c = a.multiply (b.multiply c) ∧
        a.multiply one = a ∧ one.multiply a = a) ∧
      (a.sum b = b.sum a ∧ (a.sum b).sum c = a.sum (b.sum c)) ∧
      a.multiply (b.sum c) = (a.multiply b).sum (a.multiply c) ∧
      ((a.multiply b).shift k = (a.shift k).multiply (b.shift k) ∧
        (a.sum b).shift k = (a.shift k).sum (b.shift k) ∧
        (a.shift j).shift k = a.shift (j + k) ∧ a.shift 0 = a) ∧
      ((a.multiply b).length = a.length + b.length - 1 ∧ (a.sum b).length = max a.length b.length ∧
        (a.shift k).length = a.length) ∧
      (a.multiply b).Proper ∧ (a.sum b).Proper ∧ (a.shift k).Proper := by
  refine ⟨⟨multiply_comm a b, ha.multiply_assoc hb hc, ha.multiply_one, ?_⟩,
    ⟨ha.sum_comm hb, ha.sum_assoc hb hc⟩, ha.multiply_sum hb hc,
    ⟨ha.shift_multiply hb k, ha.shift_sum hb k, ha.shift_shift j k, ha.shift_zero⟩,
    ⟨length_multiply a b, length_sum a b, length_shift a k⟩, ha.multiply hb, ha.sum hb, ha.shift k⟩
  rw [multiply_comm, ha.multiply_one]

/-- Series of different lengths, two of which have leading coefficients that cancel in their sum. -/
theorem ring_laws_cancelling : ∃ a b c : Series ℝ,
    a = [⟨[1, 1]⟩, ⟨[2]⟩] ∧ b = [⟨[3]⟩, ⟨[0, 1]⟩, ⟨[0, 5]⟩] ∧ c = [⟨[0]⟩, ⟨[1, -1]⟩] ∧
      a.Proper ∧ b.Proper ∧ c.Proper ∧
      a.multiply [⟨[3]⟩, ⟨[1]⟩, ⟨[0, 5]⟩] = (a.multiply b).sum (a.multiply c) ∧
      (a.sum b).shift (-1) = (a.shift (-1)).sum (b.shift (-1)) ∧ (a.shift 1).shift (-1) = a := by
  obtain ⟨a, ha⟩ : ∃ a : Series ℝ, a = [⟨[1, 1]⟩, ⟨[2]⟩] := ⟨_, rfl⟩
  obtain ⟨b, hb⟩ : ∃ b : Series ℝ, b = [⟨[3]⟩, ⟨[0, 1]⟩, ⟨[0, 5]⟩] := ⟨_, rfl⟩
  obtain ⟨c, hc⟩ : ∃ c : Series ℝ, c = [⟨[0]⟩, ⟨[1, -1]⟩] := ⟨_, rfl⟩
  have hA : a.Proper := ⟨by simp [ha], by simp [ha, Poly.Trimmed]⟩
  have hB : b.Proper := ⟨by simp [hb], by simp [hb, Poly.Trimmed]⟩
  have hC : c.Proper := ⟨by simp [hc], by simp [hc, Poly.Trimmed]⟩
  have hD : Proper [⟨[3]⟩, ⟨[1]⟩, ⟨[0, 5]⟩] := ⟨by simp, by simp [Poly.Trimmed]⟩
  have hsum : b.sum c = [⟨[3]⟩, ⟨[1]⟩, ⟨[0, 5]⟩] := by
    refine (hB.sum hC).ext hD (by simp [hb, hc]) ?_
    rw [toPolynomial_sum, hb, hc]
    simp [toPolynomial, Poly.toPolynomial, ofCoeffs]
    ring
  obtain ⟨-, -, hdistributes, ⟨-, hshift, hback, hzero⟩, -⟩ := ring_laws hA hB hC 1 (-1)
  rw [hsum] at hdistributes
  rw [add_neg_cancel, hzero] at hback
  exact ⟨a, b, c, ha, hb, hc, hA, hB, hC, hdistributes, hshift, hback⟩

end Laws

end Series

end OrbitFit
