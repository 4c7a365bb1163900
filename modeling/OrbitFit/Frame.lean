import OrbitFit.EarthOrientation
import OrbitFit.Time
import OrbitFit.Vec3

/-!
# OrbitFit.Frame — the inertial and the rotating frame

Positions and velocities are given in one of two frames: the inertial one, in which orbits are closed
forms, and the one that turns with the Earth about the third axis.  The angle between them is the sidereal
angle at UT1, which a history of Earth orientation gives; without a history UT1 is UTC.  A velocity changes
by the rotation and by the motion of the frame itself.
-/

namespace OrbitFit

inductive Frame where
  | eci
  | ecr
  deriving Repr, DecidableEq, Inhabited

namespace Frame

def name : Frame → String
  | eci => "eci"
  | ecr => "ecr"

/-- The frame with a name, in any letter case. -/
def ofName? (text : String) : Option Frame :=
  [eci, ecr].find? fun frame => frame.name == text.toLower

/-- The frame with a name, in any letter case. -/
def parse {α : Type} (text : String) : Except (Fault α) Frame :=
  match ofName? text with
  | some frame => .ok frame
  | none => .error (.unknownFrame text)

end Frame

/-- The frame in which a caller wants a state: its own, a known one, or a name that may prove unknown when
the state is looked at. -/
inductive FrameRequest where
  | own
  | known (frame : Frame)
  | unknown (text : String)
  deriving Repr, DecidableEq, Inhabited

namespace FrameRequest

/-- The request that a name makes; the empty name asks for the state's own frame. -/
def ofName (text : String) : FrameRequest :=
  if text.isEmpty then own
  else match Frame.ofName? text with
    | some frame => known frame
    | none => unknown text

/-- The frame that a request means for a state in the frame `current`. -/
def resolve {α : Type} (current : Frame) : FrameRequest → Except (Fault α) Frame
  | own => .ok current
  | known frame => .ok frame
  | unknown text => .error (.unknownFrame text)

end FrameRequest

namespace Frame

variable {α : Type} [Scalar α]

/-- The rotation vector of the rotating frame. -/
def spin : Vec3 α := ⟨0, 0, earthRate⟩

/-- The Julian Date in UT1 of a Julian Date in UTC. -/
def ut1 (jd : α) : Option (OrientationHistory α) → Except (Fault α) α
  | none => .ok jd
  | some history => do return jd + (← history.ut1MinusUtc (toModified jd)) / daySeconds

/-- The rotation by an angle that takes inertial components to rotating ones. -/
def turn (angle : α) : Mat3 α :=
  let c := Scalar.cos angle
  let s := Scalar.sin angle
  ⟨⟨c, s, 0⟩, ⟨-s, c, 0⟩, ⟨0, 0, 1⟩⟩

/-- The rotation from the inertial to the rotating frame at an epoch. -/
def rotation (jd : α) (eop : Option (OrientationHistory α)) : Except (Fault α) (Mat3 α) := do
  return turn (← siderealAngle (← ut1 jd eop))

/-- Inertial position and velocity in the rotating frame. -/
def toRotating (r v : Vec3 α) (jd : α) (eop : Option (OrientationHistory α)) :
    Except (Fault α) (Vec3 α × Vec3 α) := do
  let m ← rotation jd eop
  return (m.apply r, m.apply (v - spin.cross r))

/-- Rotating position and velocity in the inertial frame. -/
def toInertial (r v : Vec3 α) (jd : α) (eop : Option (OrientationHistory α)) :
    Except (Fault α) (Vec3 α × Vec3 α) := do
  let m := (← rotation jd eop).transpose
  let inertial := m.apply r
  return (inertial, m.apply v + spin.cross inertial)

/-- Position and velocity carried from one frame to another. -/
def convert (r v : Vec3 α) (jd : α) (source target : Frame) (eop : Option (OrientationHistory α)) :
    Except (Fault α) (Vec3 α × Vec3 α) :=
  match source, target with
  | eci, ecr => toRotating r v jd eop
  | ecr, eci => toInertial r v jd eop
  | _, _ => .ok (r, v)

end Frame

end OrbitFit
