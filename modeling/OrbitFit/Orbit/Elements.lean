import OrbitFit.Orbit.Anomaly
import OrbitFit.Vec3

/-!
# OrbitFit.Orbit.Elements — orbital elements and Cartesian vectors

Six elements fix position and velocity on a conic.  `Elements.toCartesian` turns them into vectors through
the perifocal frame.  `readOff` reads the elements off vectors, case by case: an angle whose reference
direction vanishes is set to zero, and the next angle is then counted from the next direction that is left.
-/

namespace OrbitFit

/-- The classical elements of an orbit, angles in radians. -/
structure Elements (α : Type) where
  /-- the semi-major axis in metres -/
  axis : α
  eccentricity : α
  inclination : α
  /-- the right ascension of the ascending node -/
  node : α
  /-- the argument of the periapsis -/
  periapsis : α
  trueAnomaly : α
  deriving Repr

namespace Elements

variable {α : Type} [Scalar α]

/-- The rotation from the perifocal frame, which points to the periapsis, to the inertial one. -/
def perifocal (o : Elements α) : Mat3 α :=
  let cΩ := Scalar.cos o.node
  let sΩ := Scalar.sin o.node
  let cω := Scalar.cos o.periapsis
  let sω := Scalar.sin o.periapsis
  let ci := Scalar.cos o.inclination
  let si := Scalar.sin o.inclination
  ⟨⟨cΩ * cω - sΩ * sω * ci, -cΩ * sω - sΩ * cω * ci, sΩ * si⟩,
    ⟨sΩ * cω + cΩ * sω * ci, -sΩ * sω + cΩ * cω * ci, -cΩ * si⟩,
    ⟨sω * si, cω * si, ci⟩⟩

def semiLatus (o : Elements α) : α := o.axis * (1.0 - Scalar.pow o.eccentricity 2)

/-- Position and velocity for a semi-latus rectum and a gravitational parameter over it. -/
def vectors (o : Elements α) (semiLatus muOverLatus : α) : Vec3 α × Vec3 α :=
  let c := Scalar.cos o.trueAnomaly
  let s := Scalar.sin o.trueAnomaly
  let distance := semiLatus / (1.0 + o.eccentricity * c)
  let speed := Scalar.sqrt muOverLatus
  (o.perifocal.apply (Vec3.scale distance ⟨c, s, 0⟩),
    o.perifocal.apply (Vec3.scale speed ⟨-s, o.eccentricity + c, 0⟩))

/-- Position and velocity on an orbit. -/
def toCartesian (o : Elements α) (mu : α) : Vec3 α × Vec3 α :=
  o.vectors o.semiLatus (mu / o.semiLatus)

/-- Position and velocity on an orbit whose square of the eccentricity is in range and whose semi-latus
rectum is not zero. -/
def toCartesianChecked (o : Elements α) (mu : α) : Except (Fault α) (Vec3 α × Vec3 α) := do
  let p := o.axis * (1.0 - (← powChecked o.eccentricity 2))
  return o.vectors p (← divChecked mu p)

end Elements

/-- A semi-major axis; that of an orbit next to the parabola has no size. -/
inductive SemiMajorAxis (α : Type) where
  | finite (a : α)
  | infinite
  deriving Repr

def SemiMajorAxis.toScalar {α : Type} [Scalar α] : SemiMajorAxis α → α
  | finite a => a
  | infinite => Scalar.infinity

/-- The elements of the orbit that a position and a velocity belong to. -/
structure Osculating (α : Type) where
  axis : SemiMajorAxis α
  eccentricity : α
  inclination : α
  node : α
  periapsis : α
  trueAnomaly : α
  eccentricAnomaly : α
  meanAnomaly : α
  deriving Repr

namespace Osculating

variable {α : Type} [Scalar α]

/-- The six elements with another node, periapsis and true anomaly. -/
def moved (o : Osculating α) (node periapsis trueAnomaly : α) : Elements α :=
  ⟨o.axis.toScalar, o.eccentricity, o.inclination, node, periapsis, trueAnomaly⟩

def elements (o : Osculating α) : Elements α := o.moved o.node o.periapsis o.trueAnomaly

/-- The angle with a cosine, in the second half of the turn when `reflex` is set. -/
def angleOf (cosine : α) (reflex : Bool) : α :=
  let angle := Scalar.acos (Scalar.clamp (-1.0) 1.0 cosine)
  if reflex then 2.0 * Scalar.pi - angle else angle

/-- The vector toward the periapsis whose length is the eccentricity. -/
def eccentricityVector (r v : Vec3 α) (mu : α) : Vec3 α :=
  (Vec3.scale (Scalar.pow v.norm 2 - mu / r.norm) r - Vec3.scale (r.dot v) v).divide mu

/-- The energy per unit of mass. -/
def energy (r v : Vec3 α) (mu : α) : α := Scalar.pow v.norm 2 / 2.0 - mu / r.norm

/-- The semi-major axis by the energy, unless the eccentricity is within `1e-10` of one. -/
def axisOf (energy eccentricity mu : α) : SemiMajorAxis α :=
  if 1e-10 < Scalar.abs (1.0 - eccentricity) then .finite (-mu / (2.0 * energy)) else .infinite

/-- The true anomaly, counted from the periapsis; on a circle from the node, and on a circle in the
equator from the first axis. -/
def anomalyOf (r v n eVec : Vec3 α) (e : α) : α :=
  if 1e-12 < e then angleOf (eVec.dot r / (e * r.norm)) (r.dot v < 0)
  else if 1e-12 < n.norm then angleOf (n.dot r / (n.norm * r.norm)) (r.z < 0)
  else angleOf (r.x / r.norm) (r.y < 0)

/-- The elements read off a position and a velocity. -/
def readOff (r v : Vec3 α) (mu : α) : Osculating α :=
  let h := r.cross v
  let n := Vec3.cross ⟨0, 0, 1⟩ h
  let eVec := eccentricityVector r v mu
  let e := eVec.norm
  let nu := anomalyOf r v n eVec e
  let ecc := if e < 1.0 then eccentricOfTrue nu e else 0
  { axis := axisOf (energy r v mu) e mu
    eccentricity := e
    inclination := Scalar.acos (Scalar.clamp (-1.0) 1.0 (h.z / h.norm))
    node := if 1e-12 < n.norm then angleOf (n.x / n.norm) (n.y < 0) else 0
    periapsis :=
      if 1e-12 < n.norm ∧ 1e-12 < e then angleOf (n.dot eVec / (n.norm * e)) (eVec.z < 0) else 0
    trueAnomaly := nu
    eccentricAnomaly := ecc
    meanAnomaly := if e < 1.0 then ecc - e * Scalar.sin ecc else 0 }

/-- The elements of a position and a velocity that span a plane. -/
def ofCartesian (r v : Vec3 α) (mu : α) : Except (Fault α) (Osculating α) :=
  if (r.cross v).norm < 1e-12 || r.norm < 1e-12 then .error .degenerateState else .ok (readOff r v mu)

end Osculating

end OrbitFit
