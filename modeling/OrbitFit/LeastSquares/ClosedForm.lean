import OrbitFit.NdArray.Product
import OrbitFit.Objective

/-!
# OrbitFit.LeastSquares.ClosedForm — models given by a formula

Models whose values and derivatives are formulas in the point.  They are what a solver is tried on: a linear
model, an exponential, a long bent valley, and a model that ignores the point.  As objectives they count what
they are asked for, and can be made to break down after a number of values.
-/

namespace OrbitFit

/-- A model given by a formula.  Its arrays are given by nested lists, which are read at each use. -/
inductive ClosedForm (α : Type) where
  /-- a matrix times the point -/
  | linear (matrix : Nested α)
  /-- `p₀ exp (p₁ t)` at each time `t` -/
  | exponential (times : Nested α)
  /-- `10 (p₁ - p₀²)` and `1 - p₀` -/
  | valley
  /-- the same array everywhere -/
  | constant (values : Nested α)

/-- How often a model was asked. -/
structure Usage where
  values : Nat
  derivatives : Nat
  deriving Repr, DecidableEq, Inhabited

namespace ClosedForm

variable {α : Type} [Scalar α]

def value : ClosedForm α → List α → Except (Fault α) (NdArray α)
  | linear matrix, p => do (← NdArray.ofNested matrix).timesVector p
  | exponential times, a :: b :: _ => do
    return (← NdArray.ofNested times).map fun t => a * Scalar.exp (b * t)
  | valley, x :: y :: _ => .ok (NdArray.ofList [10.0 * (y - x * x), 1 - x])
  | constant values, _ => NdArray.ofNested values
  | _, _ => .error .indexOutOfRange

/-- An array whose entries are replaced by rows of one length. -/
def spreadRows (width : Nat) (row : α → List α) (a : NdArray α) : NdArray α :=
  NdArray.arrange (a.shape ++ [width]) (a.data.flatMap row)

/-- The derivatives at a point, a row for each component. -/
def derivatives : ClosedForm α → List α → Except (Fault α) (NdArray α)
  | linear matrix, _ => NdArray.ofNested matrix
  | exponential times, a :: b :: _ => do
    return spreadRows 2 (fun t => [Scalar.exp (b * t), a * t * Scalar.exp (b * t)])
      (← NdArray.ofNested times)
  | valley, x :: _ :: _ => .ok (NdArray.arrange [2, 2] [(-20.0) * x, 10.0, -1, 0])
  | constant values, p => do
    return spreadRows p.length (fun _ => p.map fun _ => 0) (← NdArray.ofNested values)
  | _, _ => .error .indexOutOfRange

/-- The model as an objective that counts.  It gives derivatives if it is `analytic`, and with a breakdown
it fails on every value beyond the limit. -/
def objective (m : ClosedForm α) (analytic : Bool) (breakdown : Option (Int × Fault α)) :
    Objective α Usage where
  value point := do
    modify fun u => { u with values := u.values + 1 }
    let u ← get
    match breakdown with
    | some (limit, fault) => if limit < (u.values : Int) then throw fault
    | none => pure ()
    Action.ofExcept (m.value point.data)
  jacobian :=
    if analytic then some fun point => do
      modify fun u => { u with derivatives := u.derivatives + 1 }
      Action.ofExcept (m.derivatives point.data)
    else none

end ClosedForm

end OrbitFit
