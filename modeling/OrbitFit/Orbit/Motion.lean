import OrbitFit.Orbit.Elements
import OrbitFit.Release

/-!
# OrbitFit.Orbit.Motion — closed-form motion on bound orbits

On an ellipse the mean anomaly advances evenly.  `keplerMotion` moves a state along its ellipse;
`j2Motion` also turns the node and the periapsis at the even rates that the oblateness of the Earth causes,
with the semi-major axis, the eccentricity and the inclination fixed.  Both take the solver of Kepler's
equation as an argument, so that what does not depend on it can be said for every solver.
-/

namespace OrbitFit

variable {α : Type} [Scalar α]

/-- The time of one revolution in seconds. -/
def orbitalPeriod (a mu : α) : Except (Fault α) α := do
  return 2.0 * Scalar.pi * Scalar.sqrt (← divChecked (← powChecked a 3) mu)

/-- Radians of mean anomaly per second. -/
def meanMotion (a mu : α) : α := Scalar.sqrt (mu / Scalar.pow a 3)

/-- Radians of mean anomaly per second, for an axis whose cube is in range and not zero. -/
def meanMotionChecked (a mu : α) : Except (Fault α) α := do
  return Scalar.sqrt (← divChecked mu (← powChecked a 3))

/-- The elements of a finite state on an ellipse. -/
def boundElements (r v : Vec3 α) (mu : α) : Except (Fault α) (Osculating α) :=
  if !decide (0 < mu) then .error (.gravitation mu)
  else if !(r.isFinite && v.isFinite) then .error .nonFiniteState
  else do
    let o ← Osculating.ofCartesian r v mu
    if 1.0 ≤ o.eccentricity then .error (.unboundOrbit o.eccentricity) else return o

/-- The true anomaly `dt` seconds later, by a solver for the eccentric anomaly. -/
def anomalyAfter (solve : α → α → α) (o : Osculating α) (dt mu : α) : α :=
  let m := Scalar.floorMod (o.meanAnomaly + meanMotion o.axis.toScalar mu * dt) (2.0 * Scalar.pi)
  trueOfEccentric (solve m o.eccentricity) o.eccentricity

/-- A state moved along its ellipse for `dt` seconds. -/
def keplerMotionWith (solve : α → α → α) (r v : Vec3 α) (dt mu : α) :
    Except (Fault α) (Vec3 α × Vec3 α) := do
  let o ← boundElements r v mu
  return (o.moved o.node o.periapsis (anomalyAfter solve o dt mu)).toCartesian mu

/-- The common factor of the rates that oblateness causes. -/
def j2Factor (o : Osculating α) (mu j2 : α) : α :=
  let a := o.axis.toScalar
  let p := a * (1.0 - Scalar.pow o.eccentricity 2)
  (-1.5) * meanMotion a mu * j2 * Scalar.pow (earthRadius / p) 2

/-- Radians per second by which the node turns. -/
def nodeRate (o : Osculating α) (mu j2 : α) : α := j2Factor o mu j2 * Scalar.cos o.inclination

/-- Radians per second by which the periapsis turns. -/
def periapsisRate (o : Osculating α) (mu j2 : α) : α :=
  -(j2Factor o mu j2) * (2.0 - 2.5 * Scalar.pow (Scalar.sin o.inclination) 2)

/-- A state moved along its turning ellipse for `dt` seconds. -/
def j2MotionWith (solve : α → α → α) (r v : Vec3 α) (dt mu j2 : α) :
    Except (Fault α) (Vec3 α × Vec3 α) := do
  let o ← boundElements r v mu
  return (o.moved (o.node + nodeRate o mu j2 * dt) (o.periapsis + periapsisRate o mu j2 * dt)
    (anomalyAfter solve o dt mu)).toCartesian mu

/-- A state moved along its ellipse by Newton's iteration. -/
def keplerMotion (r v : Vec3 α) (dt mu : α) : Except (Fault α) (Vec3 α × Vec3 α) :=
  keplerMotionWith eccentricAnomaly r v dt mu

/-- A state moved along its turning ellipse by Newton's iteration. -/
def j2Motion (r v : Vec3 α) (dt mu j2 : α) : Except (Fault α) (Vec3 α × Vec3 α) :=
  j2MotionWith eccentricAnomaly r v dt mu j2

end OrbitFit
