import OrbitFit.Time
import OrbitFit.NdArray

/-!
# OrbitFit.Chebyshev — ephemeris segments by Chebyshev series

A segment gives position and velocity over an interval of time by one Chebyshev series for each axis.  Time
is normalised to run from `-1` to `1` over the interval; outside it the series are extrapolated.  The
velocity is the derivative of the series in normalised time, scaled to seconds.

Coefficients come as arrays, the degree along their first extent.  With further extents each entry of a row
has a series of its own.
-/

namespace OrbitFit

namespace Chebyshev

variable {α : Type} [Scalar α]

/-- One step downward of the recurrence for the sum of a series: the pair for the coefficients above it and
the next coefficient give the next pair. -/
def clenshawStep (x2 : α) (pair : α × α) (c : α) : α × α := (c - pair.2, pair.1 + pair.2 * x2)

/-- The sum of the series with coefficients `cs`, lowest degree first, at `x`. -/
def evaluate (cs : List α) (x : α) : α :=
  match cs.reverse with
  | [] => 0
  | [c] => c + 0 * x
  | last :: next :: lower =>
    let (c₀, c₁) := lower.foldl (clenshawStep (2.0 * x)) (next, last)
    c₀ + c₁ * x

/-- The derivative of a series from degree `j` downward: the coefficients from `j` to `0`, highest first, and
the coefficients of the derivative found so far, lowest first. -/
def differentiateDown : Nat → List α → List α → List α
  | j + 3, c :: b :: a :: rest, found =>
    let k : α := Scalar.ofNat (j + 3)
    differentiateDown (j + 2) (b :: (a + k * c / Scalar.ofNat (j + 1)) :: rest)
      (Scalar.ofNat (2 * (j + 3)) * c :: found)
  | 2, c :: rest, found => differentiateDown 1 rest (4.0 * c :: found)
  | 1, c :: _, found => c :: found
  | _, _, found => found

/-- The coefficients of the derivative of a series. -/
def differentiate (cs : List α) : List α := differentiateDown (cs.length - 1) cs.reverse []

end Chebyshev

/-- Position and velocity over an interval by Chebyshev series. -/
structure ChebyshevSegment (α : Type) where
  /-- the Julian Date at which the interval starts -/
  start : α
  /-- the length of the interval in seconds -/
  duration : α
  x : NdArray α
  y : NdArray α
  z : NdArray α

namespace ChebyshevSegment

variable {α : Type} [Scalar α]

/-- A segment whose axes have equally many coefficients, at least one each. -/
def ofArrays (start duration : α) (x y z : NdArray α) : Except (Fault α) (ChebyshevSegment α) :=
  if x.size == y.size && y.size == z.size && x.size != 0 then .ok ⟨start, duration, x, y, z⟩
  else .error .segmentSizes

/-- A segment of positive duration, the coefficients of its axes given by nested lists. -/
def ofNested (start duration : α) (x y z : Nested α) : Except (Fault α) (ChebyshevSegment α) :=
  if !decide (0 < duration) then .error (.segmentDuration duration)
  else do
    ofArrays start duration (← NdArray.ofNested x) (← NdArray.ofNested y) (← NdArray.ofNested z)

/-- The epoch lies in the interval, ends included. -/
def inRange (s : ChebyshevSegment α) (epoch : α) : Bool :=
  let dt := secondsBetween epoch s.start
  0 ≤ dt && dt ≤ s.duration

/-- The normalised time of an epoch. -/
def normalised (s : ChebyshevSegment α) (epoch : α) : α :=
  (2.0 * secondsBetween epoch s.start - s.duration) / s.duration

/-- The series of an array: its entries at equal places of all rows, lowest degree first. -/
def series (width : Nat) (a : NdArray α) : List (List α) :=
  let rows := (List.range (a.size / width)).map fun k => (a.data.drop (k * width)).take width
  (List.range width).map fun i => rows.filterMap fun row => row[i]?

/-- All series of a segment, those of the first axis first, and the extents of a row.  Side by side the axes
take one extent more than each of them has. -/
def allSeries (s : ChebyshevSegment α) : Except (Fault α) (List (List α) × List Nat) :=
  if s.x.shape == s.y.shape && s.y.shape == s.z.shape then
    match s.x.shape with
    | [] => .error (.segmentAxis 1)
    | _ :: extents =>
      let width := entryCount extents
      if NdArray.extentLimit < extents.length + 2 then
        .error (.segmentExtents (extents.length + 2) NdArray.extentLimit)
      else .ok (series width s.x ++ series width s.y ++ series width s.z, 3 :: extents)
  else .error .segmentShapes

def positionVelocity (s : ChebyshevSegment α) (epoch : α) :
    Except (Fault α) (NdArray α × NdArray α) := do
  let t := s.normalised epoch
  let (all, extents) ← s.allSeries
  let position := NdArray.arrange extents (all.map fun cs => Chebyshev.evaluate cs t)
  let velocity :=
    if s.x.shape.head? == some 1 then NdArray.ofList [0, 0, 0]
    else NdArray.arrange extents (all.map fun cs =>
      Chebyshev.evaluate (Chebyshev.differentiate cs) t * (2.0 / s.duration))
  return (position, velocity)

end ChebyshevSegment

end OrbitFit
