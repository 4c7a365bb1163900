import OrbitFit.NdArray.Product
import OrbitFit.Orbit.Motion

/-!
# OrbitFit.Orbit.Batch — orbits of positions and velocities in arrays

Only a position and a velocity of three components have elements.  Arrays of any other shape go through the
same products as vectors do until one of them does not fit, and no arrays get past the choice of a
half-turn, which takes a single number.
-/

namespace OrbitFit

variable {α : Type} [Scalar α]

/-- What the elements of arrays that are not two vectors fail by. -/
def batchFault (r v : NdArray α) (mu : α) : Except (Fault α) (Fault α) := do
  let distance := r.magnitude
  let speed := v.magnitude
  let h ← r.cross v
  if h.magnitude < 1e-12 || distance < 1e-12 then return .degenerateState
  let n ← (Vec3.toArray ⟨0, 0, 1⟩).cross h
  let radial ← (← r.dot v).mul v
  let difference ← (r.map ((Scalar.pow speed 2 - mu / distance) * ·)).sub radial
  let eVec := difference.map (· / mu)
  if (h.entry? 2).isNone then return .indexOutOfRange
  else if 1e-12 < n.magnitude then return .ambiguousTruth
  else if 1e-12 < eVec.magnitude then
    let _ ← eVec.dot r
    return .ambiguousTruth
  else if r.shape.length == 1 then return .severalStates
  else if (r.entry? 1).isNone then return .indexOutOfRange
  else return .ambiguousTruth

/-- The position and the velocity that two arrays are. -/
def vectorsOf (r v : NdArray α) (mu : α) : Except (Fault α) (Vec3 α × Vec3 α) :=
  match Vec3.ofArray? r, Vec3.ofArray? v with
  | some r, some v => .ok (r, v)
  | _, _ => do throw (← batchFault r v mu)

/-- The elements of a position and a velocity in arrays. -/
def Osculating.ofArrays (r v : Nested α) (mu : α) : Except (Fault α) (Osculating α) := do
  let (r, v) ← vectorsOf (← NdArray.ofNested r) (← NdArray.ofNested v) mu
  ofCartesian r v mu

/-- A position and a velocity in arrays as the start of a motion.  The second array is read only if the first
is finite. -/
def motionStart (r v : Nested α) (mu : α) : Except (Fault α) (Vec3 α × Vec3 α) := do
  if !decide (0 < mu) then throw (.gravitation mu)
  let r ← NdArray.ofNested r
  if !r.isFinite then throw .nonFiniteState
  let v ← NdArray.ofNested v
  if !v.isFinite then throw .nonFiniteState
  vectorsOf r v mu

end OrbitFit
