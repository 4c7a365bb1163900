import OrbitFit.Newcomb.Cache
import OrbitFit.Proofs.ExactScalar

/-!
# OrbitFit.Proofs.Newcomb.Operator — the operators without a cache

`operator ρ σ` is the recurrence read as a definition: three seeds, and from there five guarded terms built
from operators of smaller index sum.  No table and no order of computation takes part in it.

* `operator_eq`: the recurrence gives the seeds of index sum one as well, so computing them anew is harmless.
* `combine_eq`: terms collected from a table make up the operator if the table holds what they are built from.
-/

namespace OrbitFit

namespace Poly

theorem add_def (p q : Poly ℝ) : p + q = p.add q := rfl

theorem mul_def (p q : Poly ℝ) : p * q = p.mul q := rfl

theorem zero_def : (0 : Poly ℝ) = ⟨[0]⟩ := rfl

@[simp] theorem trim_single (c : ℝ) : trim [c] = [c] := by
  by_cases h : c = 0 <;> simp [trim, h]

theorem trim_pair {c d : ℝ} (h : d ≠ 0) : trim [c, d] = [c, d] := by
  simp [trim, h]

theorem single_mul_one (c : ℝ) : (⟨[c]⟩ : Poly ℝ) * ⟨[1]⟩ = ⟨[c]⟩ := by
  simp [mul_def, Poly.mul, convolve, Scalar.sum]

theorem pair_mul_one {c d : ℝ} (h : d ≠ 0) : (⟨[c, d]⟩ : Poly ℝ) * ⟨[1]⟩ = ⟨[c, d]⟩ := by
  simp [mul_def, Poly.mul, trim_pair h, convolve, Scalar.sum, List.range_succ]

theorem zero_add_single (c : ℝ) : (0 : Poly ℝ) + ⟨[c]⟩ = ⟨[c]⟩ := by
  simp [zero_def, add_def, Poly.add, addCoeffs]

theorem zero_add_pair {c d : ℝ} (h : d ≠ 0) : (0 : Poly ℝ) + ⟨[c, d]⟩ = ⟨[c, d]⟩ := by
  simp [zero_def, add_def, Poly.add, trim_pair h, addCoeffs]

theorem shift_one (k : ℝ) : (⟨[1]⟩ : Poly ℝ).shift k = ⟨[1]⟩ := by
  simp [shift, comp, const, add_def, mul_def, Poly.mul, convolve, List.range_succ, Scalar.sum, Poly.add,
    addCoeffs, trim]

end Poly

namespace Newcomb

/-! ## Definitions -/

section Defs

/-- A sum with one more term, if its guard holds. -/
noncomputable def addIf (guard : Prop) [Decidable guard] (total term : Series ℝ) : Series ℝ :=
  if guard then total.sum term else total

/-- The factors at a pair of indices in exact arithmetic. -/
noncomputable def exactFactors (rho sigma : ℕ) : Factors ℝ :=
  factorsOver (4.0 * (rho + sigma)) (rho + sigma + 1)

/-- The five guarded terms at a pair of indices, added up in order, with `Y` for the operators of smaller index
sum. -/
noncomputable def recurrence (Y : ℕ → ℕ → Series ℝ) (rho sigma : ℕ) : Series ℝ :=
  let f := exactFactors rho sigma
  let y := Series.zeros (operatorLength rho sigma)
  let y := addIf (sigma + 1 ≤ rho) y (f.lowerRho.multiply ((Y (rho - 1) sigma).shift (Scalar.ofInt 1)))
  let y := addIf (sigma + 2 ≤ rho) y (f.lowerRhoTwice.multiply ((Y (rho - 2) sigma).shift (Scalar.ofInt 2)))
  let y := addIf (1 ≤ sigma) y (f.lowerSigma.multiply ((Y rho (sigma - 1)).shift (Scalar.ofInt (-1))))
  let y := addIf (2 ≤ sigma) y (f.lowerSigmaTwice.multiply ((Y rho (sigma - 2)).shift (Scalar.ofInt (-2))))
  addIf (1 ≤ rho ∧ 1 ≤ sigma) y (f.lowerBoth.multiply (Y (rho - 1) (sigma - 1)))

/-- The operator at a pair of indices. -/
noncomputable def operator (rho sigma : ℕ) : Series ℝ :=
  if rho + sigma = 0 then [⟨[1]⟩]
  else if rho = 1 ∧ sigma = 0 then [⟨[0, 1]⟩, ⟨[-0.5]⟩]
  else if rho = 0 ∧ sigma = 1 then [⟨[0, -1]⟩, ⟨[-0.5]⟩]
  -- the empty series is never read: every source has a smaller index sum
  else recurrence (fun r s => if _ : r + s < rho + sigma then operator r s else []) rho sigma
termination_by rho + sigma

end Defs

theorem operator_zero_zero : operator 0 0 = [⟨[1]⟩] := by
  rw [operator, if_pos rfl]

theorem operator_one_zero : operator 1 0 = [⟨[0, 1]⟩, ⟨[-0.5]⟩] := by
  rw [operator, if_neg (by decide), if_pos ⟨rfl, rfl⟩]

theorem operator_zero_one : operator 0 1 = [⟨[0, -1]⟩, ⟨[-0.5]⟩] := by
  rw [operator, if_neg (by decide), if_neg (by decide), if_pos ⟨rfl, rfl⟩]

/-! ## The recurrence -/

section Recurrence

theorem addIf_congr {guard : Prop} [Decidable guard] {y y' t t' : Series ℝ} (hy : y = y') (ht : guard → t = t') :
    addIf guard y t = addIf guard y' t' := by
  unfold addIf
  by_cases h : guard
  · rw [if_pos h, if_pos h, hy, ht h]
  · rw [if_neg h, if_neg h, hy]

/-- The recurrence reads operators of smaller index sum only. -/
theorem recurrence_congr {Y Z : ℕ → ℕ → Series ℝ} {rho sigma : ℕ}
    (h : ∀ r s, r + s < rho + sigma → Y r s = Z r s) : recurrence Y rho sigma = recurrence Z rho sigma := by
  unfold recurrence
  refine addIf_congr (addIf_congr (addIf_congr (addIf_congr (addIf_congr rfl ?_) ?_) ?_) ?_) ?_
  · intro hg; rw [h (rho - 1) sigma (by omega)]
  · intro hg; rw [h (rho - 2) sigma (by omega)]
  · intro hg; rw [h rho (sigma - 1) (by omega)]
  · intro hg; rw [h rho (sigma - 2) (by omega)]
  · intro hg; rw [h (rho - 1) (sigma - 1) (by omega)]

/-- A factor of two coefficients times the operator at `(0, 0)`. -/
theorem zeros_sum_multiply_one {c d e : ℝ} (h : d ≠ 0) :
    (Series.zeros 2).sum (Series.multiply [⟨[c, d]⟩, ⟨[e]⟩] [⟨[1]⟩]) = [⟨[c, d]⟩, ⟨[e]⟩] := by
  simp [Series.zeros, Series.multiply, Series.productCoeff, List.range_succ, List.replicate_succ, Series.sum,
    Poly.pair_mul_one h, Poly.single_mul_one, Poly.zero_add_pair h, Poly.zero_add_single]

theorem recurrence_one_zero : recurrence operator 1 0 = operator 1 0 := by
  rw [operator_one_zero]
  simp [recurrence, addIf, exactFactors, factorsOver, operatorLength, operator_zero_zero, Series.shift,
    Poly.shift_one]
  rw [zeros_sum_multiply_one (by norm_num)]
  norm_num

theorem recurrence_zero_one : recurrence operator 0 1 = operator 0 1 := by
  rw [operator_zero_one]
  simp [recurrence, addIf, exactFactors, factorsOver, operatorLength, operator_zero_zero, Series.shift,
    Poly.shift_one]
  rw [zeros_sum_multiply_one (by norm_num)]
  norm_num

/-- **The recurrence holds at every pair of indices but the first**, also where the operator is a seed. -/
theorem operator_eq {rho sigma : ℕ} (h : 1 ≤ rho + sigma) :
    operator rho sigma = recurrence operator rho sigma := by
  by_cases h1 : rho = 1 ∧ sigma = 0
  · obtain ⟨rfl, rfl⟩ := h1
    exact recurrence_one_zero.symm
  by_cases h2 : rho = 0 ∧ sigma = 1
  · obtain ⟨rfl, rfl⟩ := h2
    exact recurrence_zero_one.symm
  rw [operator, if_neg (by omega), if_neg h1, if_neg h2]
  exact recurrence_congr (fun r s hlt => dif_pos hlt)

end Recurrence

/-! ## Terms collected from a table -/

section Combine

theorem factors_eq {rho sigma : ℕ} (h : 1 ≤ rho + sigma) :
    factors (rho : ℤ) sigma = (.ok (exactFactors rho sigma) : Except (Fault ℝ) _) := by
  have hne : (rho : ℝ) + sigma ≠ 0 := by exact_mod_cast (by omega : rho + sigma ≠ 0)
  simp only [factors, ratioChecked_real, bind, Except.bind, Scalar.beq_real]
  rw [if_neg]
  · simp [exactFactors]
    norm_num
    rfl
  · simp [hne]
    norm_num

theorem foldlM_ok {α β ε : Type} {f : β → α → Except ε β} {g : β → α → β} (l : List α) (b : β)
    (h : ∀ b, ∀ a ∈ l, f b a = .ok (g b a)) : l.foldlM f b = .ok (l.foldl g b) := by
  induction l generalizing b with
  | nil => rfl
  | cons a l ih =>
    rw [List.foldlM_cons, h b a (by simp)]
    exact ih (g b a) (fun b' a' ha' => h b' a' (by simp [ha']))

/-- A sum over the terms that take part is a sum over all terms with their guards. -/
theorem foldl_guarded {Y : ℕ × ℕ → Series ℝ} (l : List (Bool × Term ℝ)) (y : Series ℝ) :
    (l.filterMap fun entry => if entry.1 then some entry.2 else none).foldl
        (fun total t => Series.sum total (t.apply (Y t.source))) y =
      l.foldl (fun total entry => addIf (entry.1 = true) total (entry.2.apply (Y entry.2.source))) y := by
  induction l generalizing y with
  | nil => rfl
  | cons entry l ih =>
    obtain ⟨guard, t⟩ := entry
    cases guard with
    | true => exact ih _
    | false => exact ih _

/-- Terms collected from a table make up the operator, if the table holds the operators they are built from. -/
theorem combine_eq {lookup : ℕ × ℕ → Except (Fault ℝ) (Series ℝ)} {rho sigma : ℕ} (h : 1 ≤ rho + sigma)
    (hl : ∀ t ∈ terms (exactFactors rho sigma) rho sigma,
      lookup t.source = .ok (operator t.source.1 t.source.2)) :
    combine lookup rho sigma = .ok (operator rho sigma) := by
  rw [operator_eq h]
  unfold combine
  rw [factors_eq h]
  show (terms (exactFactors rho sigma) rho sigma).foldlM _ _ = _
  rw [foldlM_ok (g := fun total t => Series.sum total (t.apply (operator t.source.1 t.source.2)))]
  · unfold terms
    rw [foldl_guarded (Y := fun key => operator key.1 key.2)]
    simp [recurrence, Term.apply]
  · intro total t ht
    rw [hl t ht]
    rfl

end Combine

end Newcomb

end OrbitFit
