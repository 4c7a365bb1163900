import OrbitFit.LeastSquares.Strategy
import OrbitFit.NdArray.Product
import OrbitFit.Objective

/-!
# OrbitFit.LeastSquares.Optimizer — weighted fits with a budget of evaluations

An optimizer minimises `Σ wᵢ (targetᵢ - modelᵢ)²`.  It is a run: it asks for values of the model, hears an
array or a fault, and ends with an optimum or a fault.  `weighted` makes an optimizer of a least-squares
solver.  It hands the solver the residuals `√wᵢ (modelᵢ - targetᵢ)`, counts every evaluation, allows no more
than the budget, and passes the faults of the model on as they are.
-/

namespace OrbitFit

/-- What an optimizer does next. -/
inductive Run (α β : Type) where
  | done (result : Except (Fault α) β)
  | value (point : NdArray α) (next : Except (Fault α) (NdArray α) → Run α β)
  | jacobian (point : NdArray α) (next : Except (Fault α) (NdArray α) → Run α β)

namespace Run

variable {α β σ : Type}

/-- Run against an objective.  The number counts the values asked for. -/
def against (o : Objective α σ) : Run α β → StateM σ (Except (Fault α) β × Nat)
  | done result => pure (result, 0)
  | value point next => do
    let answer ← (o.value point).run
    let (result, count) ← (next answer).against o
    return (result, count + 1)
  | jacobian point next => do
    match o.jacobian with
    | some derivatives =>
      let answer ← (derivatives point).run
      (next answer).against o
    | none => (next (.error .indexOutOfRange)).against o

end Run

/-- What an optimizer is given. -/
structure FitProblem (α : Type) where
  maxEvaluations : Int
  target : NdArray α
  weight : NdArray α
  guess : NdArray α
  /-- the objective gives derivatives -/
  analytic : Bool

/-- The outcome of a fit that converged. -/
structure Optimum (α : Type) where
  point : NdArray α
  evaluations : Nat
  /-- half the weighted sum of squares -/
  cost : α
  status : Int
  /-- the method that the optimizer reports to have converged by, if it reports anything -/
  method : Option Method

/-- A way to solve weighted fits. -/
abbrev Optimizer (α : Type) := FitProblem α → Run α (Optimum α)

namespace Optimizer

variable {α : Type} [Scalar α]

/-- The residuals of a model, each times the root of its weight. -/
def weightedResidual (weight model target : List α) : List α :=
  List.zipWith (fun w (p : α × α) => Scalar.sqrt w * (p.1 - p.2)) weight (model.zip target)

def weightedJacobian (weight : List α) (rows : List (List α)) : List (List α) :=
  List.zipWith (fun w row => row.map (Scalar.sqrt w * ·)) weight rows

/-- The number of unknowns of a problem. -/
def unknowns (p : FitProblem α) : Nat := p.guess.size

/-- The method that a problem is solved by. -/
def method (p : FitProblem α) : Method := Method.choose p.target.size (unknowns p)

/-- The fault of a model's answer: a wrong shape, or an entry that is not finite. -/
def modelFault? (target model : NdArray α) : Option (Fault α) :=
  if model.shape != target.shape then some (.modelShape model.shape target.shape)
  else if !model.data.all Scalar.isFinite then some .modelNotFinite
  else none

/-- The fault of a target with several extents, given the derivatives of its model: the weights, along the
first extent, have to fit them. -/
def rankFault (target derivatives : NdArray α) : Fault α :=
  let weights := match target.shape with
    | n :: extents => n :: 1 :: extents
    | [] => []
  if (commonShape? weights derivatives.shape).isSome then .modelRank target.shape
  else .operandShapes weights derivatives.shape

/-- How a problem whose target has several extents ends once the model has a value. -/
def refuseRank (p : FitProblem α) (point : List α) : Run α (Optimum α) :=
  if p.analytic then
    .jacobian (NdArray.ofList point) fun
      | .error fault => .done (.error fault)
      | .ok derivatives => .done (.error (rankFault p.target derivatives))
  else .done (.error .startRank)

/-- A solver's strategy as a run, with the evaluations made before it. -/
def follow (p : FitProblem α) : Strategy α (SolverOutcome α) → Nat → Run α (Optimum α)
  | .stop fault, _ => .done (.error fault)
  | .done outcome, count =>
    .done (if outcome.status == 0 then .error (.noConvergence count p.maxEvaluations)
      else .ok ⟨NdArray.ofList outcome.point, count, outcome.cost, outcome.status, some (method p)⟩)
  | .residual point next, count =>
    if p.maxEvaluations ≤ (count : Int) then .done (.error (.noConvergence count p.maxEvaluations))
    else .value (NdArray.ofList point) fun
      | .error fault => .done (.error fault)
      | .ok model =>
        match modelFault? p.target model with
        | some fault => .done (.error fault)
        | none =>
          if 1 < p.target.shape.length then refuseRank p point
          else follow p (next (weightedResidual p.weight.data model.data p.target.data)) (count + 1)
  | .jacobian point next, count =>
    if p.target.shape.isEmpty then .done (.error .indexOutOfRange)
    else .jacobian (NdArray.ofList point) fun
      | .error fault => .done (.error fault)
      | .ok derivatives => follow p (next (weightedJacobian p.weight.data derivatives.rows)) count

/-- The fault of a problem, if it has one. -/
def problemFault? (p : FitProblem α) : Option (Fault α) :=
  if p.target.shape != p.weight.shape then some (.weightShape p.target.shape p.weight.shape)
  else if p.weight.data.any fun w => decide (w ≤ 0) then some .weightSign
  else none

/-- Solve weighted fits by a least-squares solver. -/
def weighted (solver : Solver α) (threshold : α) (scheme : DifferenceScheme) : Optimizer α := fun p =>
  match problemFault? p with
  | some fault => .done (.error fault)
  | none =>
    if p.maxEvaluations ≤ 0 then .done (.error .evaluationLimit)
    else if 1 < p.guess.shape.length then .done (.error .guessRank)
    else follow p (solver ⟨method p, p.guess.data, p.analytic, scheme, threshold, p.maxEvaluations⟩) 0

end Optimizer

end OrbitFit
