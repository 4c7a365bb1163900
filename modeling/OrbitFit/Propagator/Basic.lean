import OrbitFit.OrbitState

/-!
# OrbitFit.Propagator.Basic — machines that produce states

A propagator holds an initial state that can be replaced, and answers a request for the state at an epoch.
A request may fail, and it may change the propagator: its initial state, or something hidden in it.
-/

namespace OrbitFit

/-- A machine that produces the state at an epoch from a replaceable initial state. -/
class Propagator (π : Type) (α : outParam Type) where
  initialState : π → OrbitState α
  resetInitialState : OrbitState α → π → π
  propagate : α → π → Except (Fault α) (OrbitState α) × π

/-- A propagator whose initial state is the one it was last reset to. -/
class LawfulPropagator (π : Type) {α : Type} [Propagator π α] : Prop where
  initialState_reset (s : OrbitState α) (p : π) :
    Propagator.initialState (Propagator.resetInitialState s p) = s

end OrbitFit
