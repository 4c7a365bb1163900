import OrbitFit.Propagator.Analytic

/-!
# OrbitFit.Propagator.Stepping — a propagator that moves along

A stepping propagator behaves like a numerical integrator: every answer becomes its new initial state, and
it can run out of steps.  Each step is two-body motion.  A `Source` is a propagator of either sort.
-/

namespace OrbitFit

/-- Two-body motion in steps, each from where the last one ended. -/
structure SteppingPropagator (α : Type) where
  initial : OrbitState α
  eop : Option (OrientationHistory α)
  /-- the steps asked for so far -/
  steps : Nat
  /-- the steps it can make -/
  maxSteps : Option Int

namespace SteppingPropagator

variable {α : Type} [Scalar α]

/-- One step to an epoch.  A step beyond the last one fails and counts nevertheless. -/
def step (epoch : α) (p : SteppingPropagator α) :
    Except (Fault α) (OrbitState α) × SteppingPropagator α :=
  let p := { p with steps := p.steps + 1 }
  if p.maxSteps.any fun limit => decide (limit < (p.steps : Int)) then
    (.error (.reported .propagation "integrator step failed"), p)
  else
    match AnalyticPropagator.stateAt ⟨.kepler, p.initial, p.eop⟩ epoch with
    | .ok s => (.ok s, { p with initial := s })
    | .error fault => (.error fault, p)

instance : Propagator (SteppingPropagator α) α where
  initialState p := p.initial
  resetInitialState s p := { p with initial := s }
  propagate := step

instance : LawfulPropagator (SteppingPropagator α) := ⟨fun _ _ => rfl⟩

end SteppingPropagator

/-- A propagator of either sort. -/
inductive Source (α : Type) where
  | analytic (p : AnalyticPropagator α)
  | stepping (p : SteppingPropagator α)

namespace Source

variable {α : Type}

/-- The source with another history of Earth orientation. -/
def withOrientation (eop : Option (OrientationHistory α)) : Source α → Source α
  | analytic p => analytic { p with eop := eop }
  | stepping p => stepping { p with eop := eop }

variable [Scalar α]

instance : Propagator (Source α) α where
  initialState
    | analytic p => p.initial
    | stepping p => p.initial
  resetInitialState s
    | analytic p => analytic { p with initial := s }
    | stepping p => stepping { p with initial := s }
  propagate epoch
    | analytic p => (p.stateAt epoch, analytic p)
    | stepping p => let (answer, p) := p.step epoch; (answer, stepping p)

instance : LawfulPropagator (Source α) := ⟨fun _ p => by cases p <;> rfl⟩

end Source

end OrbitFit
