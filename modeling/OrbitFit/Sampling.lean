import OrbitFit.Propagator.Basic

/-!
# OrbitFit.Sampling — states at a fixed step

A trajectory is sampled at offsets that start at zero and grow by one step while they are below the span, so
the end of the span is normally not among them.  All offsets count from the initial epoch that the
propagator had at the start.  However sampling ends, the propagator has its initial state back.

Nothing but the span ends the requests of a propagator that answers all of them: where a step is lost in
rounding, they go on for ever.
-/

namespace OrbitFit

/-- States sampled from a trajectory. -/
structure Sample (α : Type) where
  states : List (OrbitState α)
  /-- the sampled span in seconds -/
  span : α
  /-- the step in seconds -/
  step : α

namespace Sample

variable {π α : Type} [Scalar α] [Propagator π α]

section Loop

variable (epoch span step : α)

/-- The states at `offset` and at all later offsets below the span, behind those already found, which are
listed latest first.  There is no outcome where the requests never end. -/
def collect (offset : α) (found : List (OrbitState α)) (p : π) :
    Option (Except (Fault α) (List (OrbitState α)) × π) :=
  if offset < span then
    match Propagator.propagate (shiftEpoch epoch offset) p with
    | (.error fault, p) => some (.error (.samplingFailed offset fault), p)
    | (.ok s, p) => by
      -- the next round, for its three arguments
      apply collect
      · exact offset + step
      · exact s :: found
      · exact p
  else some (.ok found.reverse, p)
partial_fixpoint

end Loop

/-- Sample a propagator over a span.  `points` is the nominal number of points, the end included. -/
def take (span : α) (points : Int) (p : π) : Except (Fault α) (Sample α) × π :=
  if points < 2 then (.error (.samplePoints points), p)
  else if !decide (0 < span) then (.error (.sampleSpan span), p)
  else
    match ratioChecked (points - 1) 1 with
    | .error fault => (.error fault, p)
    | .ok intervals =>
      let initial := Propagator.initialState p
      let step := span / intervals
      match collect initial.epoch span step 0 [] p with
      -- a program that comes here goes on for ever
      | none => (.error .samplingEndless, p)
      | some (found, p) =>
        (found.map fun states => ⟨states, span, step⟩, Propagator.resetInitialState initial p)

end Sample

end OrbitFit
