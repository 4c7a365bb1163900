import OrbitFit.Proofs.Newcomb.History
import OrbitFit.Proofs.Series.Evaluation

/-!
# OrbitFit.Proofs.Newcomb.Values — the recurrence of the theory and the values of a cache

The theory states its recurrence with all five terms, an operator being zero only where an index is negative.
The guards of the table also drop the terms of lower `ρ` wherever their source lies on the other side of the
diagonal.

* `evaluate_operator`: what the values satisfy, guards and all.
* `top_operator`: along every line an operator is a polynomial of degree `ρ + σ`, and its leading coefficient is
  a positive multiple of `(s - n/2) ^ ρ * (-s - n/2) ^ σ`.  So no operator vanishes, and no dropped term does.
* `fullRecurrence_iff`: the recurrence of the theory holds for all `n` and `s` exactly where no term is dropped.
-/

open Polynomial

namespace OrbitFit

namespace Newcomb

/-! ## The guarded recurrence in values -/

section Guarded

theorem evaluate_addIf (guard : Prop) [Decidable guard] (y t : Series ℝ) (n s : ℝ) :
    (addIf guard y t).evaluate n s = y.evaluate n s + if guard then t.evaluate n s else 0 := by
  unfold addIf
  by_cases h : guard
  · rw [if_pos h, if_pos h, Series.evaluate_sum]
  · rw [if_neg h, if_neg h, add_zero]

theorem evaluate_linear (a b c n s : ℝ) : Series.evaluate [⟨[a, b]⟩, ⟨[c]⟩] n s = a + b * s + c * n := by
  simp [Series.evaluate, Poly.eval]

theorem evaluate_constant (a c n s : ℝ) : Series.evaluate [⟨[a]⟩, ⟨[c]⟩] n s = a + c * n := by
  simp [Series.evaluate, Poly.eval]

/-- The values of the five factors over a denominator. -/
theorem evaluate_factorsOver (den next n s : ℝ) :
    (factorsOver den next).lowerRho.evaluate n s = 2 * (2 * s - n) / den ∧
      (factorsOver den next).lowerRhoTwice.evaluate n s = (s - n) / den ∧
      (factorsOver den next).lowerSigma.evaluate n s = -(2 * (2 * s + n)) / den ∧
      (factorsOver den next).lowerSigmaTwice.evaluate n s = -(s + n) / den ∧
      (factorsOver den next).lowerBoth.evaluate n s = 2 * (2 * next + 3 * n) / den := by
  simp only [factorsOver, evaluate_linear, evaluate_constant]
  norm_num
  refine ⟨?_, ?_, ?_, ?_, ?_⟩ <;> ring

/-- The values of the operators satisfy the recurrence with its guards. -/
theorem evaluate_operator {rho sigma : ℕ} (h : 1 ≤ rho + sigma) (n s : ℝ) :
    4 * ((rho : ℝ) + sigma) * (operator rho sigma).evaluate n s =
      (if sigma + 1 ≤ rho then 2 * (2 * s - n) * (operator (rho - 1) sigma).evaluate n (s + 1) else 0) +
      (if sigma + 2 ≤ rho then (s - n) * (operator (rho - 2) sigma).evaluate n (s + 2) else 0) +
      (if 1 ≤ sigma then -(2 * (2 * s + n)) * (operator rho (sigma - 1)).evaluate n (s - 1) else 0) +
      (if 2 ≤ sigma then -(s + n) * (operator rho (sigma - 2)).evaluate n (s - 2) else 0) +
      (if 1 ≤ rho ∧ 1 ≤ sigma then
        2 * (2 * rho + 2 * sigma + 2 + 3 * n) * (operator (rho - 1) (sigma - 1)).evaluate n s else 0) := by
  have hne : (rho : ℝ) + sigma ≠ 0 := by exact_mod_cast (by omega : rho + sigma ≠ 0)
  obtain ⟨h0, h1, h2, h3, h4⟩ := evaluate_factorsOver (4 * ((rho : ℝ) + sigma)) (rho + sigma + 1) n s
  rw [operator_eq h]
  simp only [recurrence, exactFactors, Scalar.four_real, Scalar.ofInt_real, Int.cast_neg, Int.cast_ofNat,
    Int.cast_one, evaluate_addIf, Series.evaluate_multiply, Series.evaluate_shift, Series.evaluate_zeros,
    h0, h1, h2, h3, h4, ← sub_eq_add_neg, zero_add]
  have hden : 4 * ((rho : ℝ) + sigma) ≠ 0 := mul_ne_zero (by norm_num) hne
  have hnext : 2 * (2 * ((rho : ℝ) + sigma + 1) + 3 * n) = 2 * (2 * rho + 2 * sigma + 2 + 3 * n) := by ring
  generalize 4 * ((rho : ℝ) + sigma) = den at hden ⊢
  rw [mul_add den, mul_add den, mul_add den, mul_add den]
  simp only [mul_ite_zero, ← mul_assoc, mul_div_cancel₀ _ hden, hnext]

end Guarded

/-! ## Leading terms -/

section Leading

/-- Along every line through `(0, k)` the function is a polynomial of degree at most `d`, and its coefficient at
`d` is a function of the direction alone. -/
def HasTop (f : ℝ → ℝ → ℝ) (d : ℕ) (top : ℝ → ℝ → ℝ) : Prop :=
  ∀ a b k : ℝ, ∃ p : ℝ[X], p.natDegree ≤ d ∧ p.coeff d = top a b ∧ ∀ t, p.eval t = f (a * t) (b * t + k)

variable {f g F G : ℝ → ℝ → ℝ} {d e : ℕ}

theorem HasTop.congr (hf : HasTop f d F) (hd : d = e) (hfg : ∀ n s, f n s = g n s) (hFG : ∀ a b, F a b = G a b) :
    HasTop g e G := by
  subst hd
  rwa [show g = f from funext fun n => funext fun s => (hfg n s).symm,
    show G = F from funext fun a => funext fun b => (hFG a b).symm]

theorem HasTop.add (hf : HasTop f d F) (hg : HasTop g d G) :
    HasTop (fun n s => f n s + g n s) d (fun a b => F a b + G a b) := by
  intro a b k
  obtain ⟨p, hp, hpc, hpe⟩ := hf a b k
  obtain ⟨q, hq, hqc, hqe⟩ := hg a b k
  refine ⟨p + q, natDegree_add_le_of_degree_le hp hq, ?_, fun t => ?_⟩
  · rw [coeff_add, hpc, hqc]
  · rw [eval_add, hpe, hqe]

theorem HasTop.mul (hf : HasTop f d F) (hg : HasTop g e G) :
    HasTop (fun n s => f n s * g n s) (d + e) (fun a b => F a b * G a b) := by
  intro a b k
  obtain ⟨p, hp, hpc, hpe⟩ := hf a b k
  obtain ⟨q, hq, hqc, hqe⟩ := hg a b k
  refine ⟨p * q, natDegree_mul_le.trans (add_le_add hp hq), ?_, fun t => ?_⟩
  · rw [coeff_mul_add_eq_of_natDegree_le hp hq, hpc, hqc]
  · rw [eval_mul, hpe, hqe]

theorem HasTop.const_mul (hf : HasTop f d F) (c : ℝ) :
    HasTop (fun n s => c * f n s) d (fun a b => c * F a b) := by
  intro a b k
  obtain ⟨p, hp, hpc, hpe⟩ := hf a b k
  refine ⟨C c * p, (natDegree_C_mul_le c p).trans hp, ?_, fun t => ?_⟩
  · rw [coeff_C_mul, hpc]
  · rw [eval_mul, eval_C, hpe]

/-- A shift in `s` moves the line and keeps its direction. -/
theorem HasTop.shift (hf : HasTop f d F) (j : ℝ) : HasTop (fun n s => f n (s + j)) d F := by
  intro a b k
  obtain ⟨p, hp, hpc, hpe⟩ := hf a b (k + j)
  exact ⟨p, hp, hpc, fun t => (hpe t).trans (by simp only [add_assoc])⟩

theorem HasTop.raise (hf : HasTop f d F) (h : d < e) : HasTop f e (fun _ _ => 0) := by
  intro a b k
  obtain ⟨p, hp, -, hpe⟩ := hf a b k
  exact ⟨p, hp.trans h.le, coeff_eq_zero_of_natDegree_lt (hp.trans_lt h), hpe⟩

theorem hasTop_zero (d : ℕ) : HasTop (fun _ _ => 0) d (fun _ _ => 0) :=
  fun _ _ _ => ⟨0, by simp, by simp, by simp⟩

theorem hasTop_affine (u w z : ℝ) : HasTop (fun n s => u * s + w * n + z) 1 (fun a b => u * b + w * a) := by
  intro a b k
  refine ⟨C (u * b + w * a) * X + C (u * k + z), natDegree_linear_le, by simp, fun t => ?_⟩
  simp
  ring

theorem HasTop.ite (guard : Prop) [Decidable guard] (hf : guard → HasTop f d F) :
    HasTop (fun n s => if guard then f n s else 0) d (fun a b => if guard then F a b else 0) := by
  by_cases h : guard
  · simpa only [if_pos h] using hf h
  · simpa only [if_neg h] using hasTop_zero d

/-- A function that vanishes everywhere has no leading term. -/
theorem HasTop.eq_zero (hf : HasTop f d F) (h : ∀ n s, f n s = 0) (a b : ℝ) : F a b = 0 := by
  obtain ⟨p, -, hpc, hpe⟩ := hf a b 0
  have hp : p = 0 := Polynomial.funext (fun t => by rw [hpe, h, eval_zero])
  rw [← hpc, hp, coeff_zero]

/-- The leading form of the operator at a pair of indices, up to a positive factor. -/
noncomputable def leadingForm (rho sigma : ℕ) (a b : ℝ) : ℝ := (b - a / 2) ^ rho * (-b - a / 2) ^ sigma

theorem leadingForm_succ_left (rho sigma : ℕ) (a b : ℝ) :
    leadingForm (rho + 1) sigma a b = (b - a / 2) * leadingForm rho sigma a b := by
  unfold leadingForm
  ring

theorem leadingForm_succ_right (rho sigma : ℕ) (a b : ℝ) :
    leadingForm rho (sigma + 1) a b = (-b - a / 2) * leadingForm rho sigma a b := by
  unfold leadingForm
  ring

/-- What the induction knows of the operators of smaller index sum. -/
def LeadsBelow (N : ℕ) : Prop :=
  ∀ r s, r + s < N → ∃ c > 0,
    HasTop (fun n x => (operator r s).evaluate n x) (r + s) (fun a b => c * leadingForm r s a b)

/-- The term of the next lower `ρ` leads, if it takes part. -/
theorem top_lowerRho {rho sigma : ℕ} (ih : LeadsBelow (rho + sigma)) :
    ∃ c ≥ 0, (sigma + 1 ≤ rho → 0 < c) ∧
      HasTop (fun n s => if sigma + 1 ≤ rho then
        2 * (2 * s - n) * (operator (rho - 1) sigma).evaluate n (s + 1) else 0)
        (rho + sigma) (fun a b => c * leadingForm rho sigma a b) := by
  by_cases hg : sigma + 1 ≤ rho
  · obtain ⟨r, rfl⟩ : ∃ r, rho = r + 1 := ⟨rho - 1, by omega⟩
    obtain ⟨c, hc, hT⟩ := ih r sigma (by omega)
    refine ⟨4 * c, by positivity, fun _ => by positivity, ?_⟩
    refine ((hasTop_affine 4 (-2) 0).mul (hT.shift 1)).congr (by omega) (fun n s => ?_) (fun a b => ?_)
    · rw [if_pos hg, Nat.add_sub_cancel]
      ring
    · rw [leadingForm_succ_left]
      ring
  · exact ⟨0, le_rfl, fun h => absurd h hg,
      (hasTop_zero _).congr rfl (fun n s => (if_neg hg).symm) (fun a b => (zero_mul _).symm)⟩

/-- The term of the next lower `σ` leads, if it takes part. -/
theorem top_lowerSigma {rho sigma : ℕ} (ih : LeadsBelow (rho + sigma)) :
    ∃ c ≥ 0, (1 ≤ sigma → 0 < c) ∧
      HasTop (fun n s => if 1 ≤ sigma then
        -(2 * (2 * s + n)) * (operator rho (sigma - 1)).evaluate n (s - 1) else 0)
        (rho + sigma) (fun a b => c * leadingForm rho sigma a b) := by
  by_cases hg : 1 ≤ sigma
  · obtain ⟨r, rfl⟩ : ∃ r, sigma = r + 1 := ⟨sigma - 1, by omega⟩
    obtain ⟨c, hc, hT⟩ := ih rho r (by omega)
    refine ⟨4 * c, by positivity, fun _ => by positivity, ?_⟩
    refine ((hasTop_affine (-4) (-2) 0).mul (hT.shift (-1))).congr (by omega) (fun n s => ?_) (fun a b => ?_)
    · rw [if_pos hg, Nat.add_sub_cancel, ← sub_eq_add_neg]
      ring
    · rw [leadingForm_succ_right]
      ring
  · exact ⟨0, le_rfl, fun h => absurd h hg,
      (hasTop_zero _).congr rfl (fun n s => (if_neg hg).symm) (fun a b => (zero_mul _).symm)⟩

/-- A term of an index sum lower by two lies below the leading form. -/
theorem top_lowerTwice {rho sigma : ℕ} (ih : LeadsBelow (rho + sigma)) (guard : Prop) [Decidable guard]
    {r x : ℕ} (h : guard → r + x + 2 = rho + sigma) (u w z j : ℝ) :
    HasTop (fun n s => if guard then (u * s + w * n + z) * (operator r x).evaluate n (s + j) else 0)
      (rho + sigma) (fun _ _ => 0) := by
  refine (HasTop.ite guard (fun hg => ?_)).congr rfl (fun n s => rfl) (fun a b => ite_self _)
  obtain ⟨c, hc, hT⟩ := ih r x (by have := h hg; omega)
  exact ((hasTop_affine u w z).mul (hT.shift j)).raise (by have := h hg; omega)

theorem top_step {rho sigma : ℕ} (h : 1 ≤ rho + sigma) (ih : LeadsBelow (rho + sigma)) :
    ∃ c > 0, HasTop (fun n s => (operator rho sigma).evaluate n s) (rho + sigma)
      (fun a b => c * leadingForm rho sigma a b) := by
  obtain ⟨c0, hc0, hp0, h0⟩ := top_lowerRho ih
  obtain ⟨c2, hc2, hp2, h2⟩ := top_lowerSigma ih
  -- the three terms of an index sum lower by two have no part in the leading form
  have h1 := top_lowerTwice ih (sigma + 2 ≤ rho) (r := rho - 2) (x := sigma) (by omega) 1 (-1) 0 2
  have h3 := top_lowerTwice ih (2 ≤ sigma) (r := rho) (x := sigma - 2) (by omega) (-1) (-1) 0 (-2)
  have h4 := top_lowerTwice ih (1 ≤ rho ∧ 1 ≤ sigma) (r := rho - 1) (x := sigma - 1) (by omega)
    0 6 (2 * (2 * rho + 2 * sigma + 2)) 0
  have hpos : 0 < c0 + c2 := by
    by_cases hs : 1 ≤ sigma
    · exact add_pos_of_nonneg_of_pos hc0 (hp2 hs)
    · exact add_pos_of_pos_of_nonneg (hp0 (by omega)) hc2
  have hsum : (0 : ℝ) < rho + sigma := by exact_mod_cast h
  refine ⟨(c0 + c2) / (4 * (rho + sigma)), by positivity, ?_⟩
  refine (((((h0.add h1).add h2).add h3).add h4).const_mul (1 / (4 * ((rho : ℝ) + sigma)))).congr rfl
    (fun n s => ?_) (fun a b => by ring)
  have hy := evaluate_operator h n s
  have e1 : 1 * s + -1 * n + 0 = s - n := by ring
  have e3 : -1 * s + -1 * n + 0 = -(s + n) := by ring
  have e4 : 0 * s + 6 * n + 2 * (2 * (rho : ℝ) + 2 * sigma + 2) = 2 * (2 * rho + 2 * sigma + 2 + 3 * n) := by ring
  rw [e1, e3, e4, add_zero, ← sub_eq_add_neg, ← hy, one_div, inv_mul_cancel_left₀ (by positivity)]

/-- **The leading term of an operator** is a positive multiple of its leading form. -/
theorem top_operator (rho sigma : ℕ) :
    ∃ c > 0, HasTop (fun n s => (operator rho sigma).evaluate n s) (rho + sigma)
      (fun a b => c * leadingForm rho sigma a b) := by
  induction hN : rho + sigma using Nat.strong_induction_on generalizing rho sigma with
  | _ N ih =>
    by_cases h : 1 ≤ rho + sigma
    · subst hN
      exact top_step h (fun r s hlt => ih (r + s) hlt r s rfl)
    · obtain ⟨rfl, rfl⟩ : rho = 0 ∧ sigma = 0 := by omega
      subst hN
      refine ⟨1, one_pos, fun a b k => ⟨1, by simp, by simp [leadingForm], fun t => ?_⟩⟩
      simp [operator_zero_zero, Series.evaluate, Poly.eval]

end Leading

/-! ## The recurrence of the theory -/

section Theory

/-- The recurrence of the theory for a family of functions. -/
def FullRecurrence (Y : ℤ → ℤ → ℝ → ℝ → ℝ) (rho sigma : ℤ) (n s : ℝ) : Prop :=
  4 * ((rho : ℝ) + sigma) * Y rho sigma n s =
    2 * (2 * s - n) * Y (rho - 1) sigma n (s + 1) + (s - n) * Y (rho - 2) sigma n (s + 2) -
      2 * (2 * s + n) * Y rho (sigma - 1) n (s - 1) - (s + n) * Y rho (sigma - 2) n (s - 2) +
      2 * (2 * rho + 2 * sigma + 2 + 3 * n) * Y (rho - 1) (sigma - 1) n s

open NewcombCache in
/-- The value that a cache gives after a sequence of calls, zero at a pair with a negative index. -/
noncomputable def valueAfter (history : List Request) (rho sigma : ℤ) (n s : ℝ) : ℝ :=
  match (afterAll history).value rho sigma n s with
  | .ok (x, _) => x
  | .error _ => 0

/-- The terms of lower `ρ` that the guards leave out although their indices are natural. -/
noncomputable def dropped (rho sigma : ℕ) (n s : ℝ) : ℝ :=
  (if 1 ≤ rho ∧ rho ≤ sigma then 2 * (2 * s - n) * (operator (rho - 1) sigma).evaluate n (s + 1) else 0) +
    if 2 ≤ rho ∧ rho ≤ sigma + 1 then (s - n) * (operator (rho - 2) sigma).evaluate n (s + 2) else 0

theorem valueAfter_sub (history : List NewcombCache.Request) (rho sigma i j : ℕ) (n s : ℝ) :
    valueAfter history ((rho : ℤ) - i) ((sigma : ℤ) - j) n s =
      if i ≤ rho ∧ j ≤ sigma then (operator (rho - i) (sigma - j)).evaluate n s else 0 := by
  unfold valueAfter
  by_cases h : i ≤ rho ∧ j ≤ sigma
  · obtain ⟨c, hc, -⟩ :=
      NewcombCache.value_eq (NewcombCache.coherent_afterAll history) (rho - i) (sigma - j) n s
    rw [if_pos h, ← Nat.cast_sub h.1, ← Nat.cast_sub h.2, hc]
  · rw [if_neg h, NewcombCache.value_negative _ (by omega)]

/-- A term under a guard that splits into two. -/
theorem mul_guard_split {p q r : Prop} [Decidable p] [Decidable q] [Decidable r] (h : p ↔ q ∨ r)
    (hqr : ¬ (q ∧ r)) (x v : ℝ) :
    x * (if p then v else 0) = (if q then x * v else 0) + if r then x * v else 0 := by
  by_cases hq : q
  · have hr : ¬ r := fun hr => hqr ⟨hq, hr⟩
    rw [if_pos (h.mpr (Or.inl hq)), if_pos hq, if_neg hr, add_zero]
  · by_cases hr : r
    · rw [if_pos (h.mpr (Or.inr hr)), if_neg hq, if_pos hr, zero_add]
    · rw [if_neg (fun hp => (h.mp hp).elim hq hr), if_neg hq, if_neg hr, mul_zero, add_zero]

theorem neg_guarded (p : Prop) [Decidable p] (x v : ℝ) :
    (if p then -x * v else 0) = -(x * if p then v else 0) := by
  split_ifs <;> ring

/-- The recurrence of the theory holds where the dropped terms vanish. -/
theorem fullRecurrence_iff_dropped (history : List NewcombCache.Request) (rho sigma : ℕ) (n s : ℝ) :
    FullRecurrence (valueAfter history) rho sigma n s ↔ dropped rho sigma n s = 0 := by
  have e00 := valueAfter_sub history rho sigma 0 0 n s
  have e10 := valueAfter_sub history rho sigma 1 0 n (s + 1)
  have e20 := valueAfter_sub history rho sigma 2 0 n (s + 2)
  have e01 := valueAfter_sub history rho sigma 0 1 n (s - 1)
  have e02 := valueAfter_sub history rho sigma 0 2 n (s - 2)
  have e11 := valueAfter_sub history rho sigma 1 1 n s
  simp only [Nat.cast_zero, Nat.cast_one, Nat.cast_ofNat, sub_zero, Nat.sub_zero, Nat.zero_le, true_and,
    and_true, if_true] at e00 e10 e20 e01 e02 e11
  unfold FullRecurrence dropped
  rw [e00, e10, e20, e01, e02, e11]
  push_cast
  by_cases h : 1 ≤ rho + sigma
  · have hy := evaluate_operator h n s
    -- of the two terms of lower `ρ`, what the recurrence takes and what it drops add up to the whole term
    rw [mul_guard_split (q := sigma + 1 ≤ rho) (r := 1 ≤ rho ∧ rho ≤ sigma) (by omega) (by omega),
      mul_guard_split (q := sigma + 2 ≤ rho) (r := 2 ≤ rho ∧ rho ≤ sigma + 1) (by omega) (by omega),
      hy, neg_guarded, neg_guarded, mul_ite_zero _ (2 * (2 * (rho : ℝ) + 2 * sigma + 2 + 3 * n))]
    constructor <;> intro h' <;> linarith
  · obtain ⟨rfl, rfl⟩ : rho = 0 ∧ sigma = 0 := by omega
    simp

theorem leadingForm_zero_one (rho sigma : ℕ) : leadingForm rho sigma 0 1 ≠ 0 := by
  simp [leadingForm]

/-- Wherever terms are dropped, what is dropped does not vanish. -/
theorem exists_dropped_ne_zero (rho sigma : ℕ) (hr : 1 ≤ rho) (hs : 1 ≤ sigma) (h : rho ≤ sigma + 1) :
    ∃ n s, dropped rho sigma n s ≠ 0 := by
  by_contra hall
  push Not at hall
  by_cases hle : rho ≤ sigma
  · -- the term of the next lower `ρ` leads
    obtain ⟨c, hc, hT⟩ := top_operator (rho - 1) sigma
    have h1 := (hasTop_affine 4 (-2) 0).mul (hT.shift 1)
    obtain ⟨c', -, hT'⟩ := top_operator (rho - 2) sigma
    have h2 : HasTop (fun n s => if 2 ≤ rho ∧ rho ≤ sigma + 1 then
        (1 * s + -1 * n + 0) * (operator (rho - 2) sigma).evaluate n (s + 2) else 0)
        (1 + (rho - 1 + sigma)) (fun _ _ => 0) :=
      (HasTop.ite _ fun hg => ((hasTop_affine 1 (-1) 0).mul (hT'.shift 2)).raise (by omega)).congr rfl
        (fun _ _ => rfl) (fun a b => ite_self _)
    have h0 := (h1.add h2).eq_zero (fun n s => by
      have e1 : 4 * s + -2 * n + 0 = 2 * (2 * s - n) := by ring
      have e2 : 1 * s + -1 * n + 0 = s - n := by ring
      have hd := hall n s
      rw [dropped, if_pos ⟨hr, hle⟩] at hd
      simpa only [e1, e2] using hd) 0 1
    have := leadingForm_zero_one (rho - 1) sigma
    simp [hc.ne', this] at h0
  · -- just below the diagonal only the term of the second lower `ρ` is dropped
    obtain ⟨c, hc, hT⟩ := top_operator (rho - 2) sigma
    have h1 := (hasTop_affine 1 (-1) 0).mul (hT.shift 2)
    have h0 := h1.eq_zero (fun n s => by
      have e2 : 1 * s + -1 * n + 0 = s - n := by ring
      have hd := hall n s
      rw [dropped, if_neg (by omega), if_pos ⟨by omega, h⟩, zero_add] at hd
      simpa only [e2] using hd) 0 1
    have := leadingForm_zero_one (rho - 2) sigma
    simp [hc.ne', this] at h0

/-- **The recurrence of the theory** holds for all `n` and `s` exactly on the axes and from `ρ = σ + 2` on: next
to the diagonal, on it and beyond it a term of lower `ρ` is missing. -/
theorem fullRecurrence_iff (history : List NewcombCache.Request) (rho sigma : ℕ) :
    (∀ n s : ℝ, FullRecurrence (valueAfter history) rho sigma n s) ↔
      rho = 0 ∨ sigma = 0 ∨ sigma + 2 ≤ rho := by
  simp only [fullRecurrence_iff_dropped]
  constructor
  · intro h
    by_contra hc
    obtain ⟨n, s, hne⟩ := exists_dropped_ne_zero rho sigma (by omega) (by omega) (by omega)
    exact hne (h n s)
  · intro h n s
    rw [dropped, if_neg (by omega), if_neg (by omega), add_zero]

/-- At `(1, 1)` the term built from the operator at `(0, 1)` is missing. -/
theorem not_fullRecurrence_one_one : ¬ FullRecurrence (valueAfter []) 1 1 0 1 := by
  have h := fullRecurrence_iff_dropped [] 1 1 0 1
  rw [Nat.cast_one] at h
  rw [h]
  simp [dropped, operator_zero_one, Series.evaluate, Poly.eval]

end Theory

end Newcomb

end OrbitFit
