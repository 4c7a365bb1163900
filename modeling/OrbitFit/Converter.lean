import OrbitFit.Journal
import OrbitFit.Sampling
import OrbitFit.Targets

/-!
# OrbitFit.Converter — fitting one model of motion to the trajectory of another

A conversion adjusts the free parameters of a builder, and the initial state, so that the propagator built
from them reproduces a sample of states.  It starts from the first state of the sample as it is, warms up on
one state, or two where only positions are fitted, and refines on the whole sample.  The outcome is the
propagator built from the best point, with the root mean square of what is left between the sample and the
model.

A `Session` holds what the conversions of one converter leave behind.  A call that asks for an unknown
parameter, that cannot sample or that has too few states leaves the session alone.  From then on the session
follows the call, and where it fails, shows how far it came.
-/

namespace OrbitFit

structure Conversion (α : Type) where
  propagator : AnalyticPropagator α
  /-- the root mean square of the unweighted residuals -/
  rms : α
  /-- the values that both phases asked for -/
  evaluations : Nat
  point : NdArray α

/-- A way to convert.  The objectives act on the builder and on a world of their own, in which the optimizer
may keep what it remembers. -/
structure Converter (α σ : Type) where
  frame : Frame
  /-- what the optimizer works with, and the evaluations allowed in each phase -/
  settings : FitSettings α
  objective : ObjectiveRequest α → Action α (Builder α × σ) (Objective α (Builder α × σ))
  optimizer : FitProblem α → StateM σ (Run α (Optimum α))

/-- What the conversions of a converter leave behind. -/
structure Session (α σ : Type) where
  builder : Builder α
  world : σ
  sample : List (OrbitState α)
  /-- the epoch of the first state of the last sample -/
  referenceEpoch : Option α
  freeParameters : List String
  onlyPosition : Bool
  targets : Targets α
  /-- the values that the last conversion asked for -/
  evaluations : Nat
  result : Option (Conversion α)
  /-- what was reported, latest first -/
  journal : List (Event α)

namespace Session

variable {α σ : Type}

/-- A session before any conversion. -/
def start (builder : Builder α) (world : σ) : Session α σ :=
  { builder, world, sample := [], referenceEpoch := none, freeParameters := [], onlyPosition := false
    targets := .empty, evaluations := 0, result := none, journal := [] }

def report (e : Event α) (s : Session α σ) : Session α σ := { s with journal := e :: s.journal }

/-- An operation on the builder and the world of the objectives as an operation on the session. -/
def onModel {β : Type} (a : StateM (Builder α × σ) β) : StateM (Session α σ) β :=
  zoom (fun s => (s.builder, s.world)) (fun m s => { s with builder := m.1, world := m.2 }) a

/-- An operation on the world of the objectives as an operation on the session. -/
def onWorld {β : Type} (a : StateM σ β) : StateM (Session α σ) β :=
  zoom world (fun w s => { s with world := w }) a

/-- The propagator of the last conversion that succeeded. -/
def adapted (s : Session α σ) : Option (AnalyticPropagator α) := s.result.map Conversion.propagator

end Session

namespace Converter

variable {α σ : Type}

/-- The least number of states in a sample. -/
def minimumStates (onlyPosition : Bool) : Nat := if onlyPosition then 2 else 1

/-- Every name is that of a parameter of the builder. -/
def checkNames (names : List String) : Action α (Session α σ) Unit := do
  let available := (← get).builder.available
  match names.find? fun name => !available.contains name with
  | some name => throw (.unknownParameter name available)
  | none => pure ()

variable [Scalar α]

def propagated (q : ObjectiveRequest α) :
    Action α (Builder α × σ) (Objective α (Builder α × σ)) :=
  pure (Objective.propagated q).onFirst

/-- A converter for a builder, by a least-squares solver.  The history of Earth orientation, if one is given,
goes to the builder. -/
def configure (solver : Solver α)
    (objective : ObjectiveRequest α → Action α (Builder α × σ) (Objective α (Builder α × σ)))
    (threshold : Option α) (maxIterations : Option Int) (settings : FitSettings α)
    (eop : Option (OrientationHistory α)) : Action α (Builder α) (Converter α σ) := do
  if eop.isSome then modify fun b => { b with eop := eop }
  let maxIterations ← Action.ofExcept (checkIterations (maxIterations.getD settings.maxIterations))
  let threshold ← Action.ofExcept (checkThreshold (threshold.getD settings.threshold))
  return {
    frame := (← get).frame
    settings := ⟨threshold, maxIterations, settings.scheme⟩
    objective
    optimizer := fun problem => pure (Optimizer.weighted solver threshold settings.scheme problem) }

/-- Make states the current sample, and its components the targets. -/
def setSample (c : Converter α σ) (states : List (OrbitState α)) : Action α (Session α σ) Unit := do
  modify fun s => { s with sample := states }
  let s ← get
  let targets ← Action.ofExcept
    (Targets.ofStates states (.known c.frame) s.onlyPosition s.builder.eop)
  modify fun s => { s with targets }

def currentObjective (c : Converter α σ) (referenceEpoch : α) :
    Action α (Session α σ) (Objective α (Builder α × σ)) := do
  let s ← get
  ExceptT.mk (Session.onModel (c.objective
    { states := s.sample, frame := .known c.frame, onlyPosition := s.onlyPosition, referenceEpoch
      eop := s.builder.eop }).run)

/-- Fit the current sample from a first guess.  The evaluations count even where the fit fails. -/
def fit (c : Converter α σ) (referenceEpoch : α) (phase : Phase) (guess : NdArray α) :
    Action α (Session α σ) (NdArray α) := do
  let o ← c.currentObjective referenceEpoch
  let t := (← get).targets
  let run ← ExceptT.lift (Session.onWorld (c.optimizer
    { maxEvaluations := c.settings.maxIterations, target := NdArray.ofList t.target
      weight := NdArray.ofList t.weight, guess, analytic := o.jacobian.isSome }))
  let (outcome, calls) ← ExceptT.lift (Session.onModel (run.against o))
  modify fun s => { s with evaluations := s.evaluations + calls }
  let optimum ← Action.ofExcept outcome
  modify fun s =>
    { s with
      journal := .phaseDone phase s.sample.length optimum.evaluations :: (Event.told optimum ++ s.journal) }
  return optimum.point

/-- What is left between the current target and the model at a point. -/
def residuals (c : Converter α σ) (referenceEpoch : α) (point : NdArray α) :
    Action α (Session α σ) (NdArray α) := do
  let o ← c.currentObjective referenceEpoch
  let model ← ExceptT.mk (Session.onModel (o.value point).run)
  Action.ofExcept ((NdArray.ofList (← get).targets.target).sub model)

/-- The first guess: the first state as it is, and the current values of the free parameters. -/
def firstGuess (c : Converter α σ) (first : OrbitState α) (names : List String) :
    Action α (Session α σ) (NdArray α) := do
  let b := (← get).builder
  let (r, v) ← Action.ofExcept (first.positionVelocity c.frame b.eop)
  let values ← Action.ofExcept (names.mapM b.value)
  return NdArray.ofList (r.toList ++ v.toList ++ values)

/-- Fit a sample whose first state is `first`. -/
def adapt (c : Converter α σ) (first : OrbitState α) (states : List (OrbitState α))
    (onlyPosition : Bool) (names : List String) : Action α (Session α σ) (AnalyticPropagator α) := do
  let epoch := first.epoch
  modify fun s => { s with referenceEpoch := some epoch, onlyPosition, evaluations := 0, result := none }
  let guess ← c.firstGuess first names
  modify (Session.report (.converting states.length onlyPosition names))
  c.setSample (states.take (minimumStates onlyPosition))
  let rough ← c.fit epoch .warmUp guess
  c.setSample states
  let point ← c.fit epoch .refinement rough
  let rms := Targets.rootMeanSquare (← c.residuals epoch point).data
  let propagator ← (Builder.build epoch point).onPart Session.builder
    fun b s => { s with builder := b }
  modify fun s => { s with result := some ⟨propagator, rms, s.evaluations, point⟩ }
  modify fun s => s.report (.converted rms s.evaluations)
  return propagator

/-- Convert a sample of states in ascending order of their epochs. -/
def convertStates (c : Converter α σ) (states : List (OrbitState α)) (onlyPosition : Bool)
    (names : List String) : Action α (Session α σ) (AnalyticPropagator α) := do
  checkNames names
  let tooFew : Fault α := .tooFewStates (minimumStates onlyPosition) states.length
  match states with
  | [] => throw tooFew
  | first :: _ =>
    if states.length < minimumStates onlyPosition then throw tooFew
    modify fun s => { s with freeParameters := names }
    let b ← Action.ofExcept ((← get).builder.withFree names)
    modify fun s => { s with builder := b }
    c.adapt first states onlyPosition names

/-- Convert the trajectory of a propagator over a span.  Positions and velocities are both fitted, and the
propagator has its initial state back afterwards. -/
def convert {π : Type} [Propagator π α] (c : Converter α σ) (span : α) (points : Int)
    (names : List String) : Action α (Session α σ × π) (AnalyticPropagator α) := do
  (checkNames names).onFirst
  let sample ← (Action.ofStep (Sample.take span points)).onSecond
  modify fun s => (s.1.report (.sampled sample.states.length sample.span sample.step), s.2)
  (c.convertStates sample.states false names).onFirst

end Converter

end OrbitFit
