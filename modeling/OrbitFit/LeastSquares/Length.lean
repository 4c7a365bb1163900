import OrbitFit.Scalar

/-!
# OrbitFit.LeastSquares.Length — lengths of lists of any size

`magnitude` is the root of the sum of squares.  `guardedLength` is the same length where squares leave the
range of the numbers: small and large entries are summed relative to the greatest of their kind.
-/

namespace OrbitFit

variable {α : Type} [Scalar α]

def magnitude (xs : List α) : α := Scalar.sqrt (Scalar.dot xs xs)

/-- A sum of squares relative to the square of the greatest entry. -/
structure RelativeSum (α : Type) where
  sum : α
  greatest : α

/-- One entry more, given by its size. -/
def RelativeSum.push (s : RelativeSum α) (size : α) : RelativeSum α :=
  if s.greatest < size then
    let quotient := s.greatest / size
    ⟨1 + s.sum * (quotient * quotient), size⟩
  else if size == 0 then s
  else
    let quotient := size / s.greatest
    { s with sum := s.sum + quotient * quotient }

/-- Sums of squares of small, middle and large entries. -/
structure GuardedSum (α : Type) where
  small : RelativeSum α
  middle : α
  large : RelativeSum α

namespace GuardedSum

def empty : GuardedSum α := ⟨⟨0, 0⟩, 0, ⟨0, 0⟩⟩

/-- One entry more; entries from `giant` on are large. -/
def push (giant : α) (s : GuardedSum α) (x : α) : GuardedSum α :=
  let size := Scalar.abs x
  let dwarf : α := 3.834e-20
  if dwarf < size ∧ size < giant then { s with middle := s.middle + size * size }
  else if size ≤ dwarf then { s with small := s.small.push size }
  else { s with large := s.large.push size }

/-- The root of the sum of all squares. -/
def root (s : GuardedSum α) : α :=
  let top := s.small.greatest
  if !(s.large.sum == 0) then
    s.large.greatest * Scalar.sqrt (s.large.sum + s.middle / s.large.greatest / s.large.greatest)
  else if s.middle == 0 then top * Scalar.sqrt s.small.sum
  else if top ≤ s.middle then
    Scalar.sqrt (s.middle * (1 + top / s.middle * (top * s.small.sum)))
  else Scalar.sqrt (top * (s.middle / top + top * s.small.sum))

end GuardedSum

/-- The Euclidean length of a list whose squares may leave the range of the numbers. -/
def guardedLength (xs : List α) : α :=
  (xs.foldl (GuardedSum.push (1.304e19 / Scalar.ofNat xs.length)) .empty).root

/-- `xs + k * ys`, entry by entry. -/
def addScaled (xs : List α) (k : α) (ys : List α) : List α :=
  List.zipWith (fun x y => x + k * y) xs ys

end OrbitFit
