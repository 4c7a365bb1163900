import OrbitFit.LeastSquares.Length

/-!
# OrbitFit.LeastSquares.Triangle — linear least squares in triangular form

A matrix is given by its columns, one for each unknown.  `Triangle.ofColumns` reflects it to triangular
form, the right-hand side along with it; the longest of the columns that are left is always taken next, so
that the diagonal falls.  Systems with the triangle and with its transpose are solved by substitution.
-/

namespace OrbitFit

structure TriangleColumn (α : Type) where
  /-- the unknown that the column belongs to -/
  place : Nat
  /-- the entries above the diagonal, from the top -/
  above : List α
  diagonal : α

/-- A triangular matrix with a right-hand side. -/
structure Triangle (α : Type) where
  columns : List (TriangleColumn α)
  rhs : List α

/-- A column while it is being reduced. -/
structure PartialColumn (α : Type) where
  place : Nat
  /-- the entries in the rows that are finished -/
  above : List α
  /-- the entries in the rows that are left -/
  below : List α
  /-- the length of `below`, brought up to date row by row -/
  length : α
  /-- the length of `below` when it was last computed -/
  reference : α

/-- A list with its head and the entry at a place exchanged. -/
def exchangeHead {β : Type} (place : Nat) : List β → List β
  | x :: xs =>
    match place, xs[place - 1]? with
    | _ + 1, some y => y :: xs.set (place - 1) x
    | _, _ => x :: xs
  | [] => []

variable {α : Type} [Scalar α]

namespace PartialColumn

/-- An untouched column. -/
def start (place : Nat) (entries : List α) : PartialColumn α :=
  let length := guardedLength entries
  ⟨place, [], entries, length, length⟩

/-- The place of the longest column, the first of equals. -/
def longest (columns : List (PartialColumn α)) : Nat :=
  match columns.map length with
  | [] => 0
  | x :: xs =>
    ((xs.zipIdx 1).foldl (fun best entry => if best.1 < entry.1 then entry else best) (x, 0)).2

/-- The column with its next row finished, all entries left as they are. -/
def keep (c : PartialColumn α) : PartialColumn α :=
  { c with above := c.above ++ [c.below.headD 0], below := c.below.tail }

/-- The column with new entries and its next row finished.  The length is brought up to date by the entry
that leaves it, and computed anew when too much of it has been cancelled. -/
def advance (c : PartialColumn α) (entries : List α) : PartialColumn α :=
  let next : PartialColumn α := { c with below := entries }.keep
  if c.length == 0 then next
  else
    let part := entries.headD 0 / c.length
    let length := c.length * Scalar.sqrt (Scalar.maximum 0 (1 - part * part))
    let quotient := length / c.reference
    if 2.220446049250313e-16 < 0.05 * (quotient * quotient) then { next with length }
    else
      let length := guardedLength next.below
      { next with length, reference := length }

end PartialColumn

/-- A list reflected in the mirror with a normal whose head is half of its squared length. -/
def reflect (normal xs : List α) : List α :=
  addScaled xs (-(Scalar.dot normal xs / normal.headD 0)) normal

namespace Triangle

/-- The triangular form of columns being reduced, with the entries of the right-hand side. -/
def reduce : (rows : Nat) → List (PartialColumn α) → List α → List (TriangleColumn α × α)
  | 0, _, _ => []
  | rows + 1, columns, rhs =>
    match exchangeHead (PartialColumn.longest columns) columns with
    | [] => []
    | c :: others =>
      let size := guardedLength c.below
      if size == 0 then
        (⟨c.place, c.above, 0⟩, rhs.headD 0) :: reduce rows (others.map PartialColumn.keep) rhs.tail
      else
        let signed := if c.below.headD 0 < 0 then -size else size
        let normal :=
          match c.below.map (· / signed) with
          | [] => []
          | x :: xs => (x + 1) :: xs
        let image := reflect normal rhs
        (⟨c.place, c.above, -signed⟩, image.headD 0) ::
          reduce rows (others.map fun d => d.advance (reflect normal d.below)) image.tail

/-- The triangular form of a matrix and a right-hand side. -/
def ofColumns (columns : List (List α)) (rhs : List α) : Triangle α :=
  let reduced := reduce columns.length (columns.zipIdx.map fun (entries, place) => .start place entries) rhs
  ⟨reduced.map Prod.fst, reduced.map Prod.snd⟩

def size (t : Triangle α) : Nat := t.columns.length

/-- The columns before the first zero of the diagonal. -/
def regular (t : Triangle α) : List (TriangleColumn α) := t.columns.takeWhile fun c => !(c.diagonal == 0)

/-- Numbers for the columns put in the order of the unknowns, zero for columns without one. -/
def toUnknowns (t : Triangle α) (xs : List α) : List α :=
  let entries := (t.columns.map TriangleColumn.place).zip xs
  (List.range t.size).map fun place => (entries.lookup place).getD 0

/-- Numbers for the unknowns put in the order of the columns. -/
def ofUnknowns (t : Triangle α) (xs : List α) : List α := t.columns.map fun c => xs.getD c.place 0

/-- A column with its diagonal entry. -/
def upToDiagonal (c : TriangleColumn α) : List α := c.above ++ [c.diagonal]

/-- The products of the columns with a list. -/
def transposeApply (t : Triangle α) (xs : List α) : List α :=
  t.columns.map fun c => Scalar.dot (upToDiagonal c) xs

/-- The sum of the columns, each times a number. -/
def apply (t : Triangle α) (xs : List α) : List α :=
  (t.columns.zip xs).foldl (fun sum (c, x) =>
    addScaled sum x (upToDiagonal c) ++ sum.drop (c.above.length + 1)) (t.rhs.map fun _ => 0)

/-- The solution of a system with some first columns, from the last unknown to the first. -/
def backSubstitute (columns : List (TriangleColumn α)) (rhs : List α) : List α :=
  (columns.foldr (fun c (state : List α × List α) =>
    let x := state.1.getLast?.getD 0 / c.diagonal
    (List.zipWith (fun b r => b - r * x) state.1 c.above, x :: state.2))
    (rhs.take columns.length, [])).2

/-- The solution of a system with the transpose, from the first unknown to the last. -/
def forwardSubstitute (columns : List (TriangleColumn α)) (rhs : List α) : List α :=
  (columns.zip rhs).foldl (fun solved (c, b) => solved ++ [(b - Scalar.dot c.above solved) / c.diagonal]) []

end Triangle

end OrbitFit
