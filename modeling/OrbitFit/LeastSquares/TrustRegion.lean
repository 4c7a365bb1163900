import OrbitFit.LeastSquares.Evaluation
import OrbitFit.LeastSquares.Orthogonal

/-!
# OrbitFit.LeastSquares.TrustRegion — fewer residuals than unknowns

With fewer residuals than unknowns the linear model has many minima.  Each step is as long as the radius of
the region of trust, which shrinks until the steps fit; its direction is that of the shortest minimum, damped
along the axes that the model hardly depends on.
-/

namespace OrbitFit.TrustRegion

variable {α : Type} [Scalar α]

/-- A linear model by the axes of the residuals: for each axis how much it is stretched, its direction in
scaled unknowns, and the part of the residuals along it. -/
structure StretchedAxis (α : Type) where
  stretch : α
  direction : List α
  part : α

/-- The axes of a matrix given by its columns, with the parts of the residuals. -/
def axesOf (columns : List (List α)) (values : List α) : List (StretchedAxis α) :=
  let rows := (List.range values.length).map fun i => columns.map fun column => column.getD i 0
  (Orthogonal.diagonalise rows).map fun a =>
    let stretch := magnitude a.image
    ⟨stretch, if stretch == 0 then a.image else a.image.map (· / stretch), Scalar.dot a.axis values⟩

/-- The parts of a step along the axes for a damping parameter. -/
def coordinates (axes : List (StretchedAxis α)) (damping : α) : List α :=
  axes.map fun a => a.stretch * a.part / (a.stretch * a.stretch + damping)

/-- The derivative of the length of a step by its damping parameter. -/
def lengthSlope (axes : List (StretchedAxis α)) (damping length : α) : α :=
  -(Scalar.sum (axes.map fun a =>
      let drive := a.stretch * a.part
      let resistance := a.stretch * a.stretch + damping
      drive * drive / (resistance * resistance * resistance))) / length

/-- A damping parameter inside its bounds. -/
def inside (low high damping : α) : α :=
  if damping < low ∨ high < damping then Scalar.maximum (0.001 * high) (Scalar.sqrt (low * high))
  else damping

/-- Newton's iteration for the damping parameter that makes the step as long as the region, at most `fuel` steps
of it. -/
def searchDamping (axes : List (StretchedAxis α)) (region low high damping : α) : (fuel : Nat) → α
  | 0 => damping
  | fuel + 1 =>
    let damping := inside low high damping
    let length := magnitude (coordinates axes damping)
    let excess := length - region
    let high := if excess < 0 then damping else high
    let ratio := excess / lengthSlope axes damping length
    let low := Scalar.maximum low (damping - ratio)
    let next := damping - (excess + region) * ratio / region
    if Scalar.abs excess < 0.01 * region then next else searchDamping axes region low high next fuel

/-- The damping parameter for a region of trust, searched from `start`, and the scaled step. -/
def scaledStep (axes : List (StretchedAxis α)) (unknowns : Nat) (region start : α) : α × List α :=
  let high := magnitude (axes.map fun a => a.stretch * a.part) / region
  let first := if start == 0 then Scalar.maximum (0.001 * high) (Scalar.sqrt (0 * high)) else start
  let damping := searchDamping axes region 0 high first 10
  let step := (axes.zip (coordinates axes damping)).foldl (fun sum (a, y) => addScaled sum (-y) a.direction)
    (List.replicate unknowns 0)
  let factor := region / magnitude step
  (damping, step.map (· * factor))

structure Iterate (α : Type) where
  /-- what is known at the point that was looked at last -/
  known : Evaluation α
  point : List α
  values : List α
  cost : α
  columns : List (List α)
  /-- the scales of the unknowns -/
  scales : List α
  /-- the radius of the region of trust, in scaled unknowns -/
  region : α
  damping : α

def half (values : List α) : α := 0.5 * Scalar.dot values values

/-- The derivatives of half the sum of squares.  One residual that is zero makes all of them zero. -/
def gradient (columns : List (List α)) (values : List α) : List α :=
  match values with
  | [x] => if x == 0 then columns.map fun _ => 0 else columns.map fun column => x * column.headD 0
  | _ => columns.map fun column => Scalar.dot column values

/-- The lengths of the columns of derivatives. -/
def lengthsOf (columns : List (List α)) : List α := columns.map magnitude

/-- The greater of two scales, undefined if one of them is. -/
def greaterScale (x y : α) : α := if y == y then (if x < y then y else x) else y

namespace Iterate

def scaledColumns (it : Iterate α) : List (List α) :=
  List.zipWith (fun column d => column.map (· * (1 / d))) it.columns it.scales

/-- No derivative of half the sum of squares reaches the threshold. -/
def isFlat (it : Iterate α) (threshold : α) : Bool :=
  (gradient it.columns it.values).all fun g => Scalar.abs g < threshold

/-- The residuals are negligible beside what the unknowns contribute to them, to half of the digits of a double.
They are rounding in the model then, and a step along them would leave a good point. -/
def isFitted (it : Iterate α) : Bool :=
  let contributions := List.zipWith (fun column x => column.map fun d => Scalar.abs (d * x)) it.columns it.point
  let greatest := contributions.flatten.foldl Scalar.maximum 0
  Scalar.isFinite greatest && decide (magnitude it.values ≤ 1e-7 * greatest)

/-- The iteration at a better point with its derivatives. -/
def advance (p : SolverProblem α) (it : Iterate α) (point values : List α) (cost : α) :
    Strategy α (Iterate α) := do
  let (columns, known) ← (it.known.moveTo point).columns p
  return { it with
    known, point, values, cost, columns
    scales := List.zipWith greaterScale it.scales (lengthsOf columns) }

end Iterate

/-- The sum of columns of `residuals` entries, each times a number. -/
def combine (columns : List (List α)) (residuals : Nat) (xs : List α) : List α :=
  (columns.zip xs).foldl (fun sum (column, x) => addScaled sum x column) (List.replicate residuals 0)

/-- By how much the model says that half the sum of squares falls. -/
def predictedFall (columns : List (List α)) (gradient step : List α) (residuals : Nat) : α :=
  -(half (combine columns residuals step) + Scalar.dot step gradient)

/-- The region of trust after a step of a length, and what came of the step against what was promised. -/
def nextRegion (region actual predicted length : α) : α × α :=
  let ratio :=
    if 0 < predicted then actual / predicted
    else if predicted == 0 && actual == 0 then 1
    else 0
  if ratio < 0.25 then (0.25 * length, ratio)
  else if 0.75 < ratio ∧ 0.95 * region < length then (region * 2.0, ratio)
  else (region, ratio)

/-- The status after a step, `0` to go on: half the sum of squares no longer falls, the step is negligible
beside the unknowns, or both. -/
def statusOf (threshold actual cost step size ratio : α) : Int :=
  let flat : Bool := actual < threshold * cost ∧ 0.25 < ratio
  let small : Bool := step < threshold * (threshold + size)
  if flat && small then 4 else if flat then 2 else if small then 3 else 0

/-- Steps until the problem is solved, at most `fuel` more of them. -/
def iterate (p : SolverProblem α) (it : Iterate α) : (fuel : Nat) → Strategy α (SolverOutcome α)
  | 0 => return .atPoint it.point it.values 0
  | fuel + 1 => do
    let columns := it.scaledColumns
    if columns.any fun column => column.any fun x => !Scalar.isFinite x then .stop .matrixNotFinite
    else
      let axes := axesOf columns it.values
      let (damping, scaled) := scaledStep axes it.point.length it.region it.damping
      let slopes := List.zipWith (fun d g => 1 / d * g) it.scales (gradient it.columns it.values)
      let predicted := predictedFall columns slopes scaled it.values.length
      let step := List.zipWith (fun d s => 1 / d * s) it.scales scaled
      let point := List.zipWith (· + ·) it.point step
      let (values, known) ← (it.known.moveTo point).residual
      let it := { it with known, damping }
      let length := magnitude scaled
      if values.any fun x => !Scalar.isFinite x then
        iterate p { it with region := 0.25 * length } fuel
      else
        let cost := half values
        let actual := it.cost - cost
        let (region, ratio) := nextRegion it.region actual predicted length
        let status := statusOf p.threshold actual it.cost (magnitude step) (magnitude it.point) ratio
        let it :=
          if status != 0 then it else { it with region, damping := damping * (it.region / region) }
        let it ← if 0 < actual then it.advance p point values cost else pure it
        if status != 0 then return .atPoint it.point it.values status
        else if 0 < actual && it.isFlat p.threshold then return .atPoint it.point it.values 1
        else iterate p it fuel

/-- The method from the start with its residuals and derivatives.  A start that fits is kept after one look
beside it.  The first region of trust is as large as the length of the start. -/
def solve (p : SolverProblem α) (known : Evaluation α) (values : List α) (columns : List (List α)) :
    Strategy α (SolverOutcome α) := do
  let scales := (lengthsOf columns).map fun length => if length == 0 then 1 else length
  let region := magnitude (List.zipWith (· * ·) p.start scales)
  let it : Iterate α :=
    { known, point := p.start, values, cost := half values, columns, scales
      region := if region == 0 then 1 else region, damping := 0 }
  if it.isFlat p.threshold then return .atPoint p.start values 1
  else if it.isFitted then
    let _ ← Strategy.askResidual (p.start.map fun x => x + Difference.step Difference.fine x)
    return .atPoint p.start values 3
  else iterate p it (p.maxEvaluations.toNat - 1)

end OrbitFit.TrustRegion
