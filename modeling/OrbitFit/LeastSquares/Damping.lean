import OrbitFit.LeastSquares.Triangle

/-!
# OrbitFit.LeastSquares.Damping — steps within a region of trust

The damped step minimises the sum of squares of a linear problem plus a damping parameter times the square of
the step's scaled length.  `DampedStep.within` finds the parameter for which the scaled length is the radius
of the region of trust up to a tenth; where the free step is short enough there is no damping.
-/

namespace OrbitFit

variable {α : Type} [Scalar α]

/-- A row of a triangular matrix with its right-hand side. -/
structure TriangleRow (α : Type) where
  diagonal : α
  /-- the entries right of the diagonal -/
  right : List α
  rhs : α

namespace TriangleRow

/-- A row and an added one turned in their plane until the added one starts with zero.  The results are the
row, and the added row without its start. -/
def absorb (row : TriangleRow α) (head : α) (rest : List α) (rhs : α) : TriangleRow α × List α × α :=
  let (c, s) :=
    if Scalar.abs row.diagonal < Scalar.abs head then
      let cotangent := row.diagonal / head
      let s := 0.5 / Scalar.sqrt (0.25 + 0.25 * (cotangent * cotangent))
      (s * cotangent, s)
    else
      let tangent := head / row.diagonal
      let c := 0.5 / Scalar.sqrt (0.25 + 0.25 * (tangent * tangent))
      (c, c * tangent)
  (⟨c * row.diagonal + s * head, List.zipWith (fun r e => c * r + s * e) row.right rest,
      c * row.rhs + s * rhs⟩,
    List.zipWith (fun r e => -s * r + c * e) row.right rest, -s * row.rhs + c * rhs)

/-- The rows after an added row has been turned into them. -/
def absorbAll : List (TriangleRow α) → List α → α → List (TriangleRow α)
  | row :: rows, head :: rest, rhs =>
    if head == 0 then row :: absorbAll rows rest rhs
    else
      let (row, rest, rhs) := row.absorb head rest rhs
      row :: absorbAll rows rest rhs
  | rows, _, _ => rows

/-- The rows after a diagonal matrix has been put below them, from the first row to the last; `fuel` is the
number of rows. -/
def absorbDiagonal : (fuel : Nat) → List (TriangleRow α) → List α → List (TriangleRow α)
  | fuel + 1, rows, weight :: weights =>
    let added := weight :: weights.map fun _ => 0
    match if weight == 0 then rows else absorbAll rows added 0 with
    | row :: rest => row :: absorbDiagonal fuel rest weights
    | [] => []
  | _, rows, _ => rows

/-- The solution of a triangular system by its rows; unknowns from the first zero of the diagonal on are
zero. -/
def solve (rows : List (TriangleRow α)) : List α :=
  (rows.takeWhile fun row => !(row.diagonal == 0)).foldr
    (fun row solved => (row.rhs - Scalar.dot row.right solved) / row.diagonal :: solved) []

/-- The solution of a system with the transpose of the rows. -/
def forwardSubstitute : List (TriangleRow α) → List α → List α
  | row :: rows, b :: bs =>
    let x := b / row.diagonal
    x :: forwardSubstitute rows (List.zipWith (fun b r => b - r * x) bs row.right)
  | _, _ => []

end TriangleRow

def Triangle.rows (t : Triangle α) : List (TriangleRow α) :=
  (t.columns.zip t.rhs).zipIdx.map fun ((c, b), i) =>
    ⟨c.diagonal, (t.columns.drop (i + 1)).map fun d => d.above.getD i 0, b⟩

/-- A step with its damping parameter. -/
structure DampedStep (α : Type) where
  step : List α
  damping : α

namespace DampedStep

/-- The smallest positive normal number. -/
def tiny : α := 2.2250738585072014e-308

def scaled (scales xs : List α) : List α := List.zipWith (· * ·) scales xs

/-- What a step is compared by when its damping is corrected: its direction in scaled unknowns, scaled once
more, in the order of the columns. -/
def direction (t : Triangle α) (scales scaledStep : List α) (length : α) : List α :=
  List.zipWith (fun d x => d * (x / length)) (t.ofUnknowns scales) (t.ofUnknowns scaledStep)

/-- The solution for one damping parameter. -/
structure Candidate (α : Type) where
  /-- the rows of the problem with damping -/
  rows : List (TriangleRow α)
  step : List α
  /-- the step in scaled unknowns -/
  scaledStep : List α
  /-- the length of the scaled step -/
  length : α

/-- The solution for a damping parameter. -/
def candidate (t : Triangle α) (scales : List α) (damping : α) : Candidate α :=
  let root := Scalar.sqrt damping
  let rows := TriangleRow.absorbDiagonal t.size t.rows ((t.ofUnknowns scales).map (root * ·))
  let step := t.toUnknowns (TriangleRow.solve rows)
  let scaledStep := scaled scales step
  ⟨rows, step, scaledStep, guardedLength scaledStep⟩

/-- A damping parameter, a small one in place of zero. -/
def positive (high damping : α) : α :=
  if damping == 0 then Scalar.maximum tiny (0.001 * high) else damping

/-- An iteration for the damping parameter between two bounds that ends when the step is as long as the radius,
or cannot be made longer; `fuel` more steps of it are made at most. -/
def search (t : Triangle α) (scales : List α) (region low high damping lastExcess : α) :
    (fuel : Nat) → DampedStep α
  | 0 =>
    let damping := positive high damping
    ⟨(candidate t scales damping).step, damping⟩
  | fuel + 1 =>
    let damping := positive high damping
    let c := candidate t scales damping
    let excess := c.length - region
    if Scalar.abs excess ≤ 0.1 * region ∨ (low == 0 ∧ excess ≤ lastExcess ∧ lastExcess < 0) then
      ⟨c.step, damping⟩
    else
      let rate := guardedLength
        (TriangleRow.forwardSubstitute c.rows (direction t scales c.scaledStep c.length))
      let correction := excess / region / rate / rate
      let low := if 0 < excess then Scalar.maximum low damping else low
      let high := if excess < 0 then Scalar.minimum high damping else high
      search t scales region low high (Scalar.maximum low (damping + correction)) excess fuel

/-- The step back within a region of trust, its damping searched from `start`. -/
def within (t : Triangle α) (scales : List α) (region start : α) : DampedStep α :=
  let regular := t.regular
  let free := t.toUnknowns (Triangle.backSubstitute regular t.rhs)
  let scaledStep := scaled scales free
  let length := guardedLength scaledStep
  let excess := length - region
  if excess ≤ 0.1 * region then ⟨free, 0⟩
  else
    let low :=
      if regular.length = t.size then
        let rate := guardedLength
          (Triangle.forwardSubstitute t.columns (direction t scales scaledStep length))
        excess / region / rate / rate
      else 0
    let gradient := guardedLength (List.zipWith (· / ·) (t.transposeApply t.rhs) (t.ofUnknowns scales))
    let high := gradient / region
    let high := if high == 0 then tiny / Scalar.minimum region 0.1 else high
    let first := Scalar.minimum (Scalar.maximum start low) high
    let first := if first == 0 then gradient / length else first
    search t scales region low high first excess 9

end DampedStep

end OrbitFit
