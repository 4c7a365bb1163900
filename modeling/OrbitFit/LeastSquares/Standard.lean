import OrbitFit.LeastSquares.Damped
import OrbitFit.LeastSquares.TrustRegion

/-!
# OrbitFit.LeastSquares.Standard — the solver of the library

The standard solver checks the guess and the threshold, asks for the residuals and their derivatives at the
guess, and goes on by the method that the problem names.
-/

namespace OrbitFit.Solver

variable {α : Type} [Scalar α]

/-- The relative resolution of a double, below which no threshold is meaningful. -/
def resolution : α := 2.220446049250313e-16

/-- The fault of a threshold that is too small for a method. -/
def thresholdFault : Method → Fault α
  | .lm => .toleranceTooSmall
  | .trf => .noUsableTolerance

/-- The most evaluations that damped least squares can count. -/
def countLimit : Int := 2147483647

def standard : Solver α := fun p => do
  if p.start.any fun x => !(x == x) then .stop .guessInfeasible
  else if p.threshold < resolution then .stop (thresholdFault p.method)
  else
    let (values, known) ← (Evaluation.start p.start).residual
    let (columns, known) ← known.columns p
    if values.any fun x => !Scalar.isFinite x then .stop .startNotFinite
    else if columns.length != p.start.length then
      .stop (.derivativeShape values.length p.start.length columns.length)
    else
      match p.method with
      | .lm => if countLimit < p.maxEvaluations then .stop .overflow else Damped.solve p known values columns
      | .trf => TrustRegion.solve p known values columns

end OrbitFit.Solver
