import OrbitFit.Orbit.Motion
import OrbitFit.Propagator.Basic

/-!
# OrbitFit.Propagator.Analytic — closed-form propagators

An analytic propagator moves its initial state by a closed form, always from the initial state and never
from an earlier answer, so a request leaves it as it was.  Its answers are inertial.  Its history of Earth
orientation serves to take an initial state out of the rotating frame.
-/

namespace OrbitFit

/-- A closed form of motion. -/
inductive MotionModel (α : Type) where
  /-- two bodies -/
  | kepler
  /-- two bodies, the node and the periapsis turning by the second zonal harmonic -/
  | j2 (coefficient : α)
  deriving Repr

/-- An inertial position and velocity moved for `dt` seconds, by a solver of Kepler's equation. -/
def MotionModel.advanceWith {α : Type} [Scalar α] (solve : α → α → α) :
    MotionModel α → Vec3 α → Vec3 α → α → α → Except (Fault α) (Vec3 α × Vec3 α)
  | kepler, r, v, dt, mu => keplerMotionWith solve r v dt mu
  | j2 coefficient, r, v, dt, mu => j2MotionWith solve r v dt mu coefficient

/-- A closed form of motion with the state it starts from. -/
structure AnalyticPropagator (α : Type) where
  model : MotionModel α
  initial : OrbitState α
  eop : Option (OrientationHistory α)

namespace AnalyticPropagator

variable {α : Type} [Scalar α]

/-- The inertial state at an epoch, by a solver of Kepler's equation. -/
def stateAtWith (solve : α → α → α) (p : AnalyticPropagator α) (epoch : α) :
    Except (Fault α) (OrbitState α) := do
  let s := p.initial
  let (r, v) ← s.positionVelocity .eci p.eop
  let (r, v) ← p.model.advanceWith solve r v (secondsBetween epoch s.epoch) s.mu
  return ⟨epoch, r, v, s.mu, .eci⟩

def stateAt (p : AnalyticPropagator α) (epoch : α) : Except (Fault α) (OrbitState α) :=
  p.stateAtWith eccentricAnomaly epoch

instance : Propagator (AnalyticPropagator α) α where
  initialState p := p.initial
  resetInitialState s p := { p with initial := s }
  propagate epoch p := (p.stateAt epoch, p)

instance : LawfulPropagator (AnalyticPropagator α) := ⟨fun _ _ => rfl⟩

end AnalyticPropagator

end OrbitFit
