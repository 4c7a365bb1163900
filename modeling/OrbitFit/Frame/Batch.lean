import OrbitFit.Frame
import OrbitFit.NdArray.Product

/-!
# OrbitFit.Frame.Batch — frames of positions and velocities in arrays

A position and a velocity of three components are two vectors.  Arrays of any other shape are carried from
one frame to the other by the same formulas, as far as their shapes fit: the rotation acts on columns, the
motion of the frame on rows.  The nested lists of an array are read where the array is first needed.
-/

namespace OrbitFit.Frame

variable {α : Type} [Scalar α]

def arraysOf (p : Vec3 α × Vec3 α) : NdArray α × NdArray α := (p.1.toArray, p.2.toArray)

/-- Inertial position and velocity in the rotating frame. -/
def toRotatingArrays (r v : Nested α) (jd : α) (eop : Option (OrientationHistory α)) :
    Except (Fault α) (NdArray α × NdArray α) := do
  let r ← NdArray.ofNested r
  let v ← NdArray.ofNested v
  match Vec3.ofArray? r, Vec3.ofArray? v with
  | some r, some v => return arraysOf (← toRotating r v jd eop)
  | _, _ =>
    let m ← rotation jd eop
    let rotated ← m.applyArray r
    let relative ← v.sub (← spin.toArray.cross r)
    return (rotated, ← m.applyArray relative)

/-- Rotating position and velocity in the inertial frame. -/
def toInertialArrays (r v : Nested α) (jd : α) (eop : Option (OrientationHistory α)) :
    Except (Fault α) (NdArray α × NdArray α) := do
  let m := (← rotation jd eop).transpose
  let r ← NdArray.ofNested r
  let inertial ← m.applyArray r
  let v ← NdArray.ofNested v
  match Vec3.ofArray? r, Vec3.ofArray? v with
  | some r, some v => return arraysOf (← toInertial r v jd eop)
  | _, _ =>
    let turned ← m.applyArray v
    return (inertial, ← turned.add (← spin.toArray.cross inertial))

/-- Position and velocity carried from one frame to another. -/
def convertArrays (r v : Nested α) (jd : α) (source target : Frame)
    (eop : Option (OrientationHistory α)) : Except (Fault α) (NdArray α × NdArray α) := do
  let position ← NdArray.ofNested r
  let velocity ← NdArray.ofNested v
  match source, target with
  | eci, ecr => toRotatingArrays r v jd eop
  | ecr, eci => toInertialArrays r v jd eop
  | _, _ => return (position, velocity)

end OrbitFit.Frame
