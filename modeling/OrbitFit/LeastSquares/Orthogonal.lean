import OrbitFit.LeastSquares.Length

/-!
# OrbitFit.LeastSquares.Orthogonal — axes whose images are orthogonal

A linear map is given by the images of orthonormal axes.  `diagonalise` turns the axes in pairs until all
images are orthogonal, and keeps the turns, so that the map stretches each axis of the result on its own.
-/

namespace OrbitFit.Orthogonal

variable {α : Type} [Scalar α]

/-- An axis with its image. -/
structure Axis (α : Type) where
  image : List α
  axis : List α

/-- Two axes turned so that their images are orthogonal. -/
def turn (a b : Axis α) : Axis α × Axis α :=
  let overlap := Scalar.dot a.image b.image
  let aa := Scalar.dot a.image a.image
  let bb := Scalar.dot b.image b.image
  if Scalar.abs overlap ≤ 1e-16 * Scalar.sqrt (aa * bb) then (a, b)
  else
    let zeta := (bb - aa) / (2.0 * overlap)
    let root := Scalar.abs zeta + Scalar.sqrt (1 + zeta * zeta)
    let t := if zeta < 0 then -(1 / root) else 1 / root
    let c := 1 / Scalar.sqrt (1 + t * t)
    let s := c * t
    let combine (k l : α) (x y : List α) : List α := List.zipWith (fun x y => k * x + l * y) x y
    (⟨combine c (-s) a.image b.image, combine c (-s) a.axis b.axis⟩,
      ⟨combine s c a.image b.image, combine s c a.axis b.axis⟩)

/-- The first axis turned against each of the others in order. -/
def turnAgainst (a : Axis α) : List (Axis α) → Axis α × List (Axis α)
  | [] => (a, [])
  | b :: bs =>
    let (a, b) := turn a b
    let (a, bs) := turnAgainst a bs
    (a, b :: bs)

/-- Every pair of axes turned once; `fuel` is their number. -/
def turnAll : Nat → List (Axis α) → List (Axis α)
  | fuel + 1, a :: bs =>
    let (a, bs) := turnAgainst a bs
    a :: turnAll fuel bs
  | _, axes => axes

/-- The axes with orthogonal images for the map that takes the unit vectors to the given lists. -/
def diagonalise (columns : List (List α)) : List (Axis α) :=
  let n := columns.length
  let start := (List.range n).zipWith (fun j image =>
    (⟨image, (List.range n).map fun i => if i = j then 1 else 0⟩ : Axis α)) columns
  (List.range 12).foldl (fun axes _ => turnAll n axes) start

end OrbitFit.Orthogonal
