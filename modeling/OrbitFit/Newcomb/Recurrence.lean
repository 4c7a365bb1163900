import OrbitFit.Series.Basic

/-!
# OrbitFit.Newcomb.Recurrence — modified Newcomb operators by recurrence

The operators `Y[ρ,σ](n, s)` of the semi-analytical satellite theory are series in `n` with polynomial
coefficients in `s`.  Three seeds start them, and five terms built from operators of smaller index sum give
the next one: each is a factor, divided by `4 (ρ + σ)`, times an operator shifted in `s`.  A term takes part
only under its guard, which is a condition on the indices.
-/

namespace OrbitFit.Newcomb

variable {α : Type} [Scalar α]

/-- The operators that the recurrence starts from. -/
def seeds : List ((Nat × Nat) × Series α) :=
  [((0, 0), [⟨[1]⟩]), ((1, 0), [⟨[0, 1]⟩, ⟨[-0.5]⟩]), ((0, 1), [⟨[0, -1]⟩, ⟨[-0.5]⟩])]

/-- The five factors of the recurrence, in the order of its terms. -/
structure Factors (α : Type) where
  lowerRho : Series α
  lowerRhoTwice : Series α
  lowerSigma : Series α
  lowerSigmaTwice : Series α
  lowerBoth : Series α

/-- The factors in the order of the terms. -/
def Factors.toList (f : Factors α) : List (Series α) :=
  [f.lowerRho, f.lowerRhoTwice, f.lowerSigma, f.lowerSigmaTwice, f.lowerBoth]

/-- The factors over a denominator other than zero; `next` is the index sum plus one. -/
def factorsOver (den next : α) : Factors α where
  lowerRho := [⟨[0, 4.0 / den]⟩, ⟨[-2.0 / den]⟩]
  lowerRhoTwice := [⟨[0, 1 / den]⟩, ⟨[-1.0 / den]⟩]
  lowerSigma := [⟨[0, -4.0 / den]⟩, ⟨[-2.0 / den]⟩]
  lowerSigmaTwice := [⟨[0, -1.0 / den]⟩, ⟨[-1.0 / den]⟩]
  lowerBoth := [⟨[4.0 * next / den]⟩, ⟨[6.0 / den]⟩]

/-- The factors for a pair of indices whose sum is not zero. -/
def factors (rho sigma : Int) : Except (Fault α) (Factors α) := do
  let den := 4.0 * (← ratioChecked (α := α) (rho + sigma) 1)
  if den == 0 then throw .divisionByZero
  return factorsOver den (← ratioChecked (rho + sigma + 1) 1)

/-- The number of powers of `n` in an operator that the recurrence gives. -/
def operatorLength (rho sigma : Nat) : Nat := rho + sigma + min rho sigma + 1

/-- One term of the recurrence: its factor, the indices of the operator it is built from, and the shift of
that operator in `s`. -/
structure Term (α : Type) where
  factor : Series α
  source : Nat × Nat
  offset : Int

/-- The terms that take part at a pair of indices. -/
def terms (f : Factors α) (rho sigma : Nat) : List (Term α) :=
  [(decide (sigma + 1 ≤ rho), ⟨f.lowerRho, (rho - 1, sigma), 1⟩),
    (decide (sigma + 2 ≤ rho), ⟨f.lowerRhoTwice, (rho - 2, sigma), 2⟩),
    (decide (1 ≤ sigma), ⟨f.lowerSigma, (rho, sigma - 1), -1⟩),
    (decide (2 ≤ sigma), ⟨f.lowerSigmaTwice, (rho, sigma - 2), -2⟩),
    (decide (1 ≤ rho ∧ 1 ≤ sigma), ⟨f.lowerBoth, (rho - 1, sigma - 1), 0⟩)].filterMap
    fun (entry : Bool × Term α) => if entry.1 then some entry.2 else none

/-- A term's contribution, given the operator it is built from. -/
def Term.apply (t : Term α) (operator : Series α) : Series α :=
  Series.multiply t.factor (if t.offset == 0 then operator else Series.shift operator (Scalar.ofInt t.offset))

/-- The operator at a pair of indices from those of smaller index sum, which `lookup` supplies. -/
def combine (lookup : Nat × Nat → Except (Fault α) (Series α)) (rho sigma : Nat) :
    Except (Fault α) (Series α) := do
  let f ← factors rho sigma
  (terms f rho sigma).foldlM (fun total t => do
    return Series.sum total (t.apply (← lookup t.source))) (Series.zeros (operatorLength rho sigma))

omit [Scalar α] in
/-- Every term is built from an operator of smaller index sum. -/
theorem source_sum_lt {f : Factors α} {rho sigma : Nat} {t : Term α} (h : t ∈ terms f rho sigma) :
    t.source.1 + t.source.2 < rho + sigma := by
  simp only [terms, List.filterMap_cons, List.filterMap_nil] at h
  grind

end OrbitFit.Newcomb
