import OrbitFit.Action
import OrbitFit.Parameter
import OrbitFit.Propagator.Analytic

/-!
# OrbitFit.Builder — propagators from a flat vector of numbers

A builder turns a point into a propagator.  The point holds the initial state in the builder's frame, six
numbers, and behind it one number for each free parameter, in the order in which the parameters were freed.
Building writes those numbers into the builder's parameters first, so a builder is a state that operations
change; a fault leaves the changes made before it in place.
-/

namespace OrbitFit

/-- The model that a builder builds. -/
inductive ModelKind where
  | kepler
  | j2
  deriving Repr, DecidableEq, Inhabited

def muName : String := "mu"

/-- The name of the coefficient of the second zonal harmonic. -/
def j2Name : String := "j2"

/-- A factory of propagators with adjustable parameters. -/
structure Builder (α : Type) where
  kind : ModelKind
  frame : Frame
  eop : Option (OrientationHistory α)
  /-- the parameters in the order of declaration, each name once -/
  parameters : List (Parameter α)
  /-- the names of the free parameters in the order of the numbers of a point -/
  free : List String

namespace Builder

variable {α : Type}

def kepler (mu : α) (frame : Frame) (eop : Option (OrientationHistory α)) : Builder α :=
  ⟨.kepler, frame, eop, [.ofNumber muName mu], []⟩

/-- A builder of propagators with a turning ellipse. -/
def j2 (mu coefficient : α) (frame : Frame) (eop : Option (OrientationHistory α)) : Builder α :=
  ⟨.j2, frame, eop, [.ofNumber muName mu, .ofNumber j2Name coefficient], []⟩

/-- The names of the parameters in the order of declaration. -/
def available (b : Builder α) : List String := b.parameters.map Parameter.name

def parameter (b : Builder α) (name : String) : Except (Fault α) (Parameter α) :=
  match b.parameters.find? fun p => p.name == name with
  | some p => .ok p
  | none => .error (.unknownParameter name b.available)

def value (b : Builder α) (name : String) : Except (Fault α) α := do
  (← b.parameter name).first

/-- The builder with one of its parameters replaced. -/
def replace (b : Builder α) (p : Parameter α) : Builder α :=
  { b with parameters := b.parameters.map fun q => if q.name == p.name then p else q }

/-- The builder with a parameter set to the array of nested lists. -/
def assign (b : Builder α) (name : String) (value : Nested α) : Except (Fault α) (Builder α) := do
  let p ← b.parameter name
  return b.replace (← p.assign (← NdArray.ofNested value))

/-- The builder with exactly these parameters free, in this order. -/
def withFree (b : Builder α) (names : List String) : Except (Fault α) (Builder α) := do
  let _ ← names.mapM b.parameter
  return { b with
    parameters := b.parameters.map fun p => { p with estimated := names.contains p.name }
    free := names }

/-- The builder with named parameters set to single numbers, from left to right. -/
def place (b : Builder α) (values : List (String × α)) : Builder α :=
  values.foldl (fun b entry =>
    { b with parameters := b.parameters.map fun p =>
        if p.name == entry.1 then { p with value := [entry.2] } else p }) b

/-- The number of entries of a point. -/
def pointSize (b : Builder α) : Nat := 6 + b.free.length

/-- The model for the current values of the parameters. -/
def model (b : Builder α) : Except (Fault α) (MotionModel α) :=
  match b.kind with
  | .kepler => .ok .kepler
  | .j2 => do return .j2 (← b.value j2Name)

/-- The propagator for the current values of the parameters. -/
def create (b : Builder α) (epoch : α) (position velocity : Vec3 α) :
    Except (Fault α) (AnalyticPropagator α) := do
  let initial : OrbitState α := ⟨epoch, position, velocity, ← b.value muName, b.frame⟩
  return ⟨← b.model, initial, b.eop⟩

/-- Build the propagator of a point, its initial state at an epoch. -/
def build (epoch : α) (point : NdArray α) : Action α (Builder α) (AnalyticPropagator α) := do
  let b ← get
  match point.shape == [b.pointSize], point.data with
  | true, x :: y :: z :: vx :: vy :: vz :: values =>
    let b := b.place (b.free.zip values)
    set b
    Action.ofExcept (b.create epoch ⟨x, y, z⟩ ⟨vx, vy, vz⟩)
  | _, _ => throw (.pointShape b.pointSize b.free.length point.shape)

end Builder

end OrbitFit
