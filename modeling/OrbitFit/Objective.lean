import OrbitFit.Builder

/-!
# OrbitFit.Objective — models of a fit

An objective turns a point into an array of modelled components, and may also give the derivatives of the
components.  It acts on a state of its own, which evaluations change whether they succeed or not.

`propagated` is the objective of a fit to a sample: it builds a propagator from the point and propagates it
to every epoch of the sample.  Its components are laid out like the target of the sample.
-/

namespace OrbitFit

/-- A model of a fit, acting on a state of type `σ`. -/
structure Objective (α σ : Type) where
  value : NdArray α → Action α σ (NdArray α)
  /-- the derivatives of the components, a row for each component -/
  jacobian : Option (NdArray α → Action α σ (NdArray α))

/-- What an objective is made for. -/
structure ObjectiveRequest (α : Type) where
  states : List (OrbitState α)
  frame : FrameRequest
  onlyPosition : Bool
  referenceEpoch : α
  eop : Option (OrientationHistory α)

namespace Objective

variable {α σ : Type}

/-- The objective acting on the first part of a larger state. -/
def onFirst {τ : Type} (o : Objective α σ) : Objective α (σ × τ) where
  value point := (o.value point).onFirst
  jacobian := o.jacobian.map fun derivatives point => (derivatives point).onFirst

variable [Scalar α]

/-- The components that a propagator yields at an epoch. -/
def componentsAt (q : ObjectiveRequest α) (p : AnalyticPropagator α) (epoch : α) :
    Except (Fault α) (List α) := do
  let s ← p.stateAt epoch
  let (r, v) ← s.view q.frame q.eop
  return if q.onlyPosition then r.toList else r.toList ++ v.toList

/-- The components that a propagator yields at the epochs of a sample, of which there has to be one. -/
def components (q : ObjectiveRequest α) (p : AnalyticPropagator α) : Except (Fault α) (NdArray α) := do
  let rows ← q.states.mapM fun s => componentsAt q p s.epoch
  if rows.isEmpty then throw .nothingToJoin
  return NdArray.ofList rows.flatten

/-- The objective of a fit to a sample, acting on the builder of its model. -/
def propagated (q : ObjectiveRequest α) : Objective α (Builder α) where
  value point := do
    let p ← Builder.build q.referenceEpoch point
    Action.ofExcept (components q p)
  jacobian := none

end Objective

end OrbitFit
