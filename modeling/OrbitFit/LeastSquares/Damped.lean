import OrbitFit.LeastSquares.Damping
import OrbitFit.LeastSquares.Evaluation

/-!
# OrbitFit.LeastSquares.Damped — damped least squares

The method of Levenberg and Marquardt.  At a point the residuals are replaced by a linear function of the
step, with the unknowns scaled by the greatest lengths that their columns of derivatives have had so far.  A
step minimises that model within a region of trust, up to a tenth of its radius, which a damping parameter
enforces.  The region grows or shrinks by how well the model foretold the new sum of squares, and a step that
gained too little is not taken.
-/

namespace OrbitFit.Damped

variable {α : Type} [Scalar α]

/-- The greatest cosine between the residuals, of length `total`, and a column of derivatives. -/
def greatestCosine (t : Triangle α) (lengths : List α) (total : α) : α :=
  if total == 0 then 0
  else
    let slopes := t.transposeApply (t.rhs.map (· / total))
    (slopes.zip (t.ofUnknowns lengths)).foldl (fun best (slope, length) =>
      if length == 0 then best else Scalar.maximum best (Scalar.abs (slope / length))) 0

/-- A step that was tried, with the model's promise and what came of it. -/
structure Trial (α : Type) where
  /-- the length of the scaled step -/
  length : α
  /-- the length of the residuals behind it -/
  total : α
  /-- the part by which the sum of squares fell -/
  actual : α
  /-- the part by which the model said it would fall -/
  predicted : α
  /-- the derivative of the model along the step -/
  slope : α

namespace Trial

/-- What came of a step against what was promised. -/
def ratio (t : Trial α) : α := if t.predicted == 0 then 0 else t.actual / t.predicted

/-- The region of trust and the damping parameter after a step from residuals of length `before`. -/
def adjust (t : Trial α) (region damping before : α) : α × α :=
  if t.ratio ≤ 0.25 then
    let factor := if 0 ≤ t.actual then 0.5 else 0.5 * t.slope / (t.slope + 0.5 * t.actual)
    let factor := if before ≤ 0.1 * t.total ∨ factor < 0.1 then 0.1 else factor
    (factor * Scalar.minimum region (t.length / 0.1), damping / factor)
  else if damping == 0 ∨ 0.75 ≤ t.ratio then (t.length / 0.5, 0.5 * damping)
  else (region, damping)

/-- The status after a step, `0` to go on: the sum of squares no longer falls, the region of trust is
negligible beside the length of the unknowns, or both. -/
def status (t : Trial α) (threshold region size : α) : Int :=
  let flat : Bool := Scalar.abs t.actual ≤ threshold ∧ t.predicted ≤ threshold ∧ 0.5 * t.ratio ≤ 1
  let small : Bool := region ≤ threshold * size
  if flat && small then 4 else if flat then 2 else if small then 3 else 0

end Trial

structure Iterate (α : Type) where
  /-- what is known at the point that was looked at last -/
  known : Evaluation α
  point : List α
  values : List α
  /-- the length of the residuals -/
  total : α
  /-- the scales of the unknowns -/
  scales : List α
  /-- the length of the scaled unknowns -/
  size : α
  model : Triangle α
  /-- the radius of the region of trust, in scaled unknowns -/
  region : α
  damping : α
  /-- no step has been taken yet -/
  first : Bool

namespace Iterate

/-- The end of the iteration.  The derivatives at the point are part of the outcome, so they are asked for
where they are not known. -/
def finish (p : SolverProblem α) (it : Iterate α) (status : Int) : Strategy α (SolverOutcome α) := do
  let _ ← (it.known.moveTo it.point).columns p
  return .atPoint it.point it.values status

/-- A step tried: the point behind it, its residuals, and how it did. -/
def tryStep (it : Iterate α) (s : DampedStep α) :
    Strategy α (List α × List α × Trial α × Evaluation α) := do
  let step := s.step.map fun x => -x
  let point := List.zipWith (· + ·) it.point step
  let length := guardedLength (DampedStep.scaled it.scales step)
  let (values, known) ← (it.known.moveTo point).residual
  let total := guardedLength values
  let quotient := total / it.total
  let along := guardedLength (it.model.apply (it.model.ofUnknowns step)) / it.total
  let across := Scalar.sqrt s.damping * length / it.total
  return (point, values,
    { length, total
      actual := if 0.1 * total < it.total then 1 - quotient * quotient else -1
      predicted := along * along + across * across / 0.5
      slope := -(along * along + across * across) }, known)

/-- The linear model at the point, or the end where the residuals are at a right angle to all columns. -/
def renewed (p : SolverProblem α) (it : Iterate α) : Strategy α (Except (SolverOutcome α) (Iterate α)) := do
  let (columns, known) ← (it.known.moveTo it.point).columns p
  let lengths := columns.map guardedLength
  let model := Triangle.ofColumns columns it.values
  let it := { it with known, model }
  if greatestCosine model lengths it.total ≤ p.threshold then
    return .error (← it.finish p 1)
  else return .ok { it with scales := List.zipWith Scalar.maximum it.scales lengths }

end Iterate

/-- Steps until the problem is solved, at most `fuel` more of them. -/
def iterate (p : SolverProblem α) (it : Iterate α) : (fuel : Nat) → Strategy α (SolverOutcome α)
  | 0 => it.finish p 0
  | fuel + 1 => do
    let s := DampedStep.within it.model it.scales it.region it.damping
    let (point, values, trial, known) ← it.tryStep s
    let region := if it.first then Scalar.minimum it.region trial.length else it.region
    let (region, damping) := trial.adjust region s.damping it.total
    let it :=
      if 1e-4 ≤ trial.ratio then
        { it with
          point, values, total := trial.total, first := false
          size := guardedLength (DampedStep.scaled it.scales point) }
      else it
    let it := { it with known, region, damping }
    let status := trial.status p.threshold region it.size
    if status != 0 then it.finish p status
    else if trial.ratio < 1e-4 then iterate p it fuel
    else if fuel = 0 then it.finish p 0
    else
      match ← it.renewed p with
      | .error outcome => return outcome
      | .ok it => iterate p it fuel

/-- The method from the start with its residuals and derivatives.  The first region of trust is a hundred
times the length of the start.  Without unknowns there is nothing to solve. -/
def solve (p : SolverProblem α) (known : Evaluation α) (values : List α) (columns : List (List α)) :
    Strategy α (SolverOutcome α) := do
  if p.start.isEmpty then return .atPoint p.start values (-1)
  let scales := columns.map fun column =>
    let length := guardedLength column
    if length == 0 then 1 else length
  let size := guardedLength (DampedStep.scaled scales p.start)
  let reach := 100.0 * size
  let it : Iterate α :=
    { known, point := p.start, values, total := guardedLength values, scales, size, model := ⟨[], []⟩
      region := if reach == 0 then 100.0 else reach, damping := 0, first := true }
  match ← it.renewed p with
  | .error outcome => return outcome
  | .ok it => iterate p it (max 1 (p.maxEvaluations.toNat - 1))

end OrbitFit.Damped
