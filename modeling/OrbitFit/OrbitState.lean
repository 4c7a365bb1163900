import OrbitFit.Frame

/-!
# OrbitFit.OrbitState — a body at one instant

A state is an epoch, a position and a velocity in a named frame, and the gravitational parameter of the
central body.  It never changes; a view of it in another frame is a new pair of vectors or a new state.
-/

namespace OrbitFit

/-- A body at one instant. -/
structure OrbitState (α : Type) where
  /-- the Julian Date, in UTC -/
  epoch : α
  /-- metres -/
  position : Vec3 α
  /-- metres per second -/
  velocity : Vec3 α
  /-- the gravitational parameter of the central body in m³/s² -/
  mu : α
  frame : Frame
  deriving Repr, Inhabited

namespace OrbitState

variable {α : Type}

/-- The state of two arrays, given by nested lists, and a frame by its name. -/
def ofNested (epoch : α) (position velocity : Nested α) (mu : α) (frame : String) :
    Except (Fault α) (OrbitState α) := do
  let r ← Vec3.ofArray "position" (← NdArray.ofNested position)
  let v ← Vec3.ofArray "velocity" (← NdArray.ofNested velocity)
  return ⟨epoch, r, v, mu, ← Frame.parse frame⟩

variable [Scalar α]

def positionVelocity (s : OrbitState α) (target : Frame) (eop : Option (OrientationHistory α)) :
    Except (Fault α) (Vec3 α × Vec3 α) :=
  Frame.convert s.position s.velocity s.epoch s.frame target eop

/-- Position and velocity in the frame that is asked for. -/
def view (s : OrbitState α) (request : FrameRequest) (eop : Option (OrientationHistory α)) :
    Except (Fault α) (Vec3 α × Vec3 α) := do
  s.positionVelocity (← request.resolve s.frame) eop

def inFrame (s : OrbitState α) (target : Frame) (eop : Option (OrientationHistory α)) :
    Except (Fault α) (OrbitState α) := do
  let (r, v) ← s.positionVelocity target eop
  return ⟨s.epoch, r, v, s.mu, target⟩

/-- The seconds from `epoch` to the state. -/
def durationFrom (s : OrbitState α) (epoch : α) : α := secondsBetween s.epoch epoch

/-- Two states agree when all their numbers do and their frames are the same. -/
def agrees (a b : OrbitState α) : Bool :=
  a.epoch == b.epoch && a.mu == b.mu && a.frame == b.frame && a.position.agrees b.position &&
    a.velocity.agrees b.velocity

/-- What a state of doubles is hashed by: the epoch and the gravitational parameter as numbers, the vectors
by their bits. -/
structure HashKey where
  epoch : Float
  mu : Float
  frame : Frame
  position : List UInt64
  velocity : List UInt64

def hashKey (s : OrbitState Float) : HashKey :=
  ⟨s.epoch, s.mu, s.frame, s.position.toList.map Float.toBits, s.velocity.toList.map Float.toBits⟩

/-- Two keys are equal: numbers as numbers, bits as bits. -/
def HashKey.agrees (a b : HashKey) : Bool :=
  a.epoch == b.epoch && a.mu == b.mu && a.frame == b.frame && a.position == b.position &&
    a.velocity == b.velocity

end OrbitState

end OrbitFit
