import OrbitFit.LeastSquares.Strategy

/-!
# OrbitFit.LeastSquares.Evaluation — residuals and derivatives asked for once

A solver keeps what it was told at the point that it looked at last, and asks again only for another point.
Derivatives are asked for where the problem has them; elsewhere they are quotients of differences, which
need the residuals at points beside it.
-/

namespace OrbitFit

variable {α : Type} [Scalar α]

/-! ### Derivatives by differences -/

namespace Difference

/-- The relative step of a difference with one evaluation: the root of the resolution of a double. -/
def fine : α := 1.4901161193847656e-8

/-- The relative step of a difference with an evaluation on either side: the cubic root. -/
def coarse : α := 6.055454452393343e-6

/-- The step of a difference in an entry, away from zero. -/
def step (relative x : α) : α :=
  let size := relative * Scalar.maximum 1 (Scalar.abs x)
  if x < 0 then -size else size

/-- The quotients of two lists' differences by one number. -/
def quotients (after before : List α) (dx : α) : List α :=
  List.zipWith (fun a b => (a - b) / dx) after before

/-- The column of derivatives in entry `i` by one evaluation ahead. -/
def forwardColumn (point values : List α) (i : Nat) (x : α) : Strategy α (List α) := do
  let ahead := x + step fine x
  let after ← Strategy.askResidual (point.set i ahead)
  return quotients after values (ahead - x)

/-- The column of derivatives in entry `i` by an evaluation on either side. -/
def centralColumn (point : List α) (i : Nat) (x : α) : Strategy α (List α) := do
  let size := Scalar.abs (step coarse x)
  let low := x - size
  let high := x + size
  let before ← Strategy.askResidual (point.set i low)
  let after ← Strategy.askResidual (point.set i high)
  return quotients after before (high - low)

end Difference

/-- The columns of a matrix given by its rows; a matrix without rows has `width` columns. -/
def columnsOf (width : Nat) (rows : List (List α)) : List (List α) :=
  (List.range ((rows.head?.map List.length).getD width)).map fun j => rows.map fun row => row.getD j 0

/-- What is known at one point. -/
structure Evaluation (α : Type) where
  point : List α
  residual? : Option (List α)
  /-- the derivatives, a column for each unknown -/
  columns? : Option (List (List α))

namespace Evaluation

/-- Nothing is known at a point. -/
def start (point : List α) : Evaluation α := ⟨point, none, none⟩

/-- What is known at a point, if it is the same point. -/
def moveTo (e : Evaluation α) (point : List α) : Evaluation α :=
  if point.length == e.point.length && (point.zip e.point).all fun (x, y) => x == y then e else start point

def residual (e : Evaluation α) : Strategy α (List α × Evaluation α) :=
  match e.residual? with
  | some values => return (values, e)
  | none => do
    let values ← Strategy.askResidual e.point
    return (values, { e with residual? := some values })

/-- The columns of derivatives at the point. -/
def columns (p : SolverProblem α) (e : Evaluation α) : Strategy α (List (List α) × Evaluation α) :=
  match e.columns? with
  | some columns => return (columns, e)
  | none =>
    if p.analytic then do
      let columns := columnsOf e.point.length (← Strategy.askJacobian e.point)
      return (columns, { e with columns? := some columns })
    else do
      let (values, e) ← e.residual
      let columns ← e.point.zipIdx.mapM fun (x, i) =>
        match p.scheme with
        | .forward => Difference.forwardColumn e.point values i x
        | .central => Difference.centralColumn e.point i x
      return (columns, { e with columns? := some columns })

end Evaluation

/-- The outcome at a point with a status. -/
def SolverOutcome.atPoint (point values : List α) (status : Int) : SolverOutcome α :=
  ⟨point, 0.5 * Scalar.dot values values, status⟩

end OrbitFit
