import OrbitFit.Settings

/-!
# OrbitFit.LeastSquares.Strategy — a solver as what it asks for

A least-squares solver is a strategy: it asks for residuals or derivatives at points of its choice, goes on
with the answers, and ends with an outcome or a fault.  A strategy never sees a failed answer; whoever runs
it stops there.
-/

namespace OrbitFit

/-- What a solver does next. -/
inductive Strategy (α β : Type) where
  | done (result : β)
  | stop (fault : Fault α)
  | residual (point : List α) (next : List α → Strategy α β)
  | jacobian (point : List α) (next : List (List α) → Strategy α β)

namespace Strategy

variable {α β γ : Type}

/-- One strategy, then another that depends on its result. -/
def bind : Strategy α β → (β → Strategy α γ) → Strategy α γ
  | done result, f => f result
  | stop fault, _ => stop fault
  | residual point next, f => residual point fun answer => (next answer).bind f
  | jacobian point next, f => jacobian point fun answer => (next answer).bind f

instance : Monad (Strategy α) where
  pure := done
  bind := bind

/-- Ask for the residuals at a point. -/
def askResidual (point : List α) : Strategy α (List α) := residual point done

/-- Ask for the derivatives of the residuals at a point. -/
def askJacobian (point : List α) : Strategy α (List (List α)) := jacobian point done

end Strategy

/-- The algorithm that a solver uses. -/
inductive Method where
  /-- damped least squares, for at least as many residuals as unknowns -/
  | lm
  /-- its variant for fewer residuals than unknowns -/
  | trf
  deriving Repr, DecidableEq, Inhabited

namespace Method

def name : Method → String
  | lm => "lm"
  | trf => "trf"

/-- The method for a number of residuals and a number of unknowns. -/
def choose (residuals unknowns : Nat) : Method := if unknowns ≤ residuals then lm else trf

end Method

/-- What a solver is given. -/
structure SolverProblem (α : Type) where
  method : Method
  start : List α
  /-- derivatives can be asked for -/
  analytic : Bool
  scheme : DifferenceScheme
  threshold : α
  maxEvaluations : Int

/-- How a solver ends. -/
structure SolverOutcome (α : Type) where
  point : List α
  /-- half the sum of the squared residuals -/
  cost : α
  /-- why it stopped; `0` when it did not converge, and negative when there was nothing to solve -/
  status : Int
  deriving Repr

abbrev Solver (α : Type) := SolverProblem α → Strategy α (SolverOutcome α)

end OrbitFit
