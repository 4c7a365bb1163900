import OrbitFit.Converter
import OrbitFit.Proofs.Builder.Evaluation
import OrbitFit.Proofs.Fit.Layout

/-!
# OrbitFit.Proofs.Converter.Adaptation — one conversion, step by step

An optimizer is any run, so nothing is known of the points that it asks for or of the one that it ends with.  What
is known is what it can touch: the values of the free parameters, and its world.  A session that a phase leaves
therefore `Follows` the one that it found, and what was set up before the phases is still there when the residuals
are taken and the propagator is built.

* `ends_fit`, `ends_residuals`: what the steps do to a session.
* `ends_adapt`: a conversion ends with a coherent session, or without a result.
-/

namespace OrbitFit

open OrbitFit.Action Builder

/-! ## What an optimizer can touch -/

section Follows

variable {α σ : Type}

/-- A session some evaluations later. -/
structure Session.Follows (s s' : Session α σ) : Prop where
  builder : Evaluated s.builder s'.builder
  sample : s'.sample = s.sample
  referenceEpoch : s'.referenceEpoch = s.referenceEpoch
  freeParameters : s'.freeParameters = s.freeParameters
  onlyPosition : s'.onlyPosition = s.onlyPosition
  targets : s'.targets = s.targets
  result : s'.result = s.result

namespace Session

variable {s s' s'' : Session α σ}

theorem Follows.trans (h : s.Follows s') (h' : s'.Follows s'') : s.Follows s'' :=
  ⟨h.builder.trans h'.builder, h'.sample.trans h.sample, h'.referenceEpoch.trans h.referenceEpoch,
    h'.freeParameters.trans h.freeParameters, h'.onlyPosition.trans h.onlyPosition, h'.targets.trans h.targets,
    h'.result.trans h.result⟩

theorem follows_of_evaluated {b : Builder α} (h : Evaluated s.builder b) (world : σ) :
    s.Follows { s with builder := b, world } := ⟨h, rfl, rfl, rfl, rfl, rfl, rfl⟩

/-- What the objective of a session is made for. -/
def request (s : Session α σ) (frame : Frame) (epoch : α) : ObjectiveRequest α :=
  ⟨s.sample, .known frame, s.onlyPosition, epoch, s.builder.eop⟩

theorem Follows.request_eq (h : s.Follows s') (frame : Frame) (epoch : α) :
    s'.request frame epoch = s.request frame epoch := by
  rw [request, request, h.sample, h.onlyPosition, h.builder.eop_eq]

variable {β γ : Type} {Q : γ → Session α σ → Prop} {E : Fault α → Session α σ → Prop}

theorem ends_onWorld {a : StateM σ β} {f : β → Action α (Session α σ) γ}
    (h : ∀ x s', s.Follows s' → Ends (f x) s' Q E) : Ends (ExceptT.lift (onWorld a) >>= f) s Q E :=
  ends_bind.mpr (ends_lift.mpr (h _ _ (follows_of_evaluated (Evaluated.refl _) _)))

end Session

variable {β γ : Type} [Scalar α]

/-- A run places values in the free parameters and changes nothing else, whatever it asks for. -/
theorem Run.evaluated_against (q : ObjectiveRequest α) (run : Run α β) (b : Builder α) (world : σ) :
    ∃ b', Evaluated b b' ∧ ((run.against (Objective.propagated q).onFirst) (b, world)).2 = (b', world) := by
  induction run generalizing b with
  | done result => exact ⟨b, Evaluated.refl b, rfl⟩
  | value point next ih =>
    obtain ⟨b', hb, he⟩ := ih (((Objective.propagated q).value point).exec b).1
      (((Objective.propagated q).value point).exec b).2
    exact ⟨b', (Objective.evaluated_value q point b).trans hb, he⟩
  | jacobian point next ih => exact ih (.error .indexOutOfRange) b

namespace Session

variable {s : Session α σ} {Q : γ → Session α σ → Prop} {E : Fault α → Session α σ → Prop}

theorem ends_against {run : Run α β} {q : ObjectiveRequest α}
    {f : Except (Fault α) β × ℕ → Action α (Session α σ) γ} (h : ∀ x s', s.Follows s' → Ends (f x) s' Q E) :
    Ends (ExceptT.lift (onModel (run.against (Objective.propagated q).onFirst)) >>= f) s Q E := by
  obtain ⟨b', hb, he⟩ := Run.evaluated_against q run s.builder s.world
  refine ends_bind.mpr (ends_lift.mpr (h _ _ ?_))
  have hs : (onModel (run.against (Objective.propagated q).onFirst) s).2 = { s with builder := b' } := by
    show { s with builder := _, world := _ } = _
    rw [he]
  rw [hs]
  exact follows_of_evaluated hb s.world

/-- An evaluation acts on the builder of the session. -/
theorem exec_value {q : ObjectiveRequest α} {point : NdArray α} :
    exec (ExceptT.mk (onModel ((Objective.propagated q).onFirst.value point).run)) s =
      ((exec ((Objective.propagated q).value point) s.builder).1,
        { s with builder := (exec ((Objective.propagated q).value point) s.builder).2 }) := rfl

theorem ends_value {q : ObjectiveRequest α} {point : NdArray α} {Q : NdArray α → Session α σ → Prop} :
    Ends (ExceptT.mk (onModel ((Objective.propagated q).onFirst.value point).run)) s Q E ↔
      Ends ((Objective.propagated q).value point) s.builder (fun x b => Q x { s with builder := b })
        (fun f b => E f { s with builder := b }) := by
  unfold Ends
  rw [exec_value]
  rcases exec ((Objective.propagated q).value point) s.builder with ⟨_ | x, b⟩ <;> rfl

end Session

end Follows

/-! ## The steps -/

section Steps

variable {α σ : Type} [Scalar α]

namespace Converter

/-- A converter that fits propagators by any optimizer. -/
def standard (frame : Frame) (settings : FitSettings α)
    (optimizer : FitProblem α → StateM σ (Run α (Optimum α))) : Converter α σ :=
  ⟨frame, settings, propagated, optimizer⟩

omit [Scalar α] in
theorem one_le_of_checkIterations {limit n : Int} (h : (checkIterations limit : Except (Fault α) Int) = .ok n) :
    1 ≤ n := by
  unfold checkIterations at h
  split_ifs at h with hlimit
  obtain rfl := Except.ok.inj h
  omega

/-- The optimizer is the weighted fit by a solver, which is allowed some evaluations. -/
structure BuiltIn (c : Converter α σ) : Prop where
  one_le : 1 ≤ c.settings.maxIterations
  optimizer : ∃ solver, c.optimizer = fun problem =>
    pure (Optimizer.weighted solver c.settings.threshold c.settings.scheme problem)

/-- A converter that a solver is configured for fits by it. -/
theorem ends_configure (solver : Solver α)
    (objective : ObjectiveRequest α → Action α (Builder α × σ) (Objective α (Builder α × σ)))
    (threshold : Option α) (maxIterations : Option Int) (settings : FitSettings α)
    (eop : Option (OrientationHistory α)) (b : Builder α) :
    Ends (configure solver objective threshold maxIterations settings eop) b
      (fun c b' => c.frame = b'.frame ∧ c.objective = objective ∧ c.BuiltIn) (fun _ _ => True) := by
  unfold configure
  dsimp only
  split_ifs
  on_goal 1 => rw [ends_bind, ends_modify]
  all_goals
    rw [ends_bind, ends_ofExcept]
    refine ⟨fun n hn => ?_, fun _ _ => trivial⟩
    rw [ends_bind, ends_ofExcept]
    exact ⟨fun t _ => ⟨rfl, rfl, one_le_of_checkIterations hn, solver, rfl⟩, fun _ _ => trivial⟩

/-- One that fits propagators is a standard one. -/
theorem ends_configure_propagated (solver : Solver α) (threshold : Option α) (maxIterations : Option Int)
    (settings : FitSettings α) (eop : Option (OrientationHistory α)) (b : Builder α) :
    Ends (configure solver propagated threshold maxIterations settings eop) b
      (fun (c : Converter α σ) b' => c = standard b'.frame c.settings c.optimizer) (fun _ _ => True) := by
  refine (ends_configure solver propagated threshold maxIterations settings eop b).mono ?_ fun _ _ h => h
  rintro c b' ⟨hframe, hobjective, -⟩
  rw [standard, ← hframe, ← hobjective]

variable {frame : Frame} {settings : FitSettings α} {optimizer : FitProblem α → StateM σ (Run α (Optimum α))}

/-- The first guess that a builder gives for a state and for parameters. -/
def firstGuess? (frame : Frame) (b : Builder α) (first : OrbitState α) (names : List String) :
    Except (Fault α) (NdArray α) := do
  let (r, v) ← first.positionVelocity frame b.eop
  return NdArray.ofList (r.toList ++ v.toList ++ (← names.mapM b.value))

/-- The first guess is only read off. -/
theorem exec_firstGuess (c : Converter α σ) (first : OrbitState α) (names : List String) (s : Session α σ) :
    exec (c.firstGuess first names) s = (firstGuess? c.frame s.builder first names, s) := by
  rw [firstGuess, firstGuess?, exec_bind_ok (exec_get s)]
  dsimp only
  cases first.positionVelocity c.frame s.builder.eop with
  | error fault => rfl
  | ok rv =>
    rw [exec_bind_ok (exec_ofExcept _ _)]
    obtain ⟨r, v⟩ := rv
    cases names.mapM s.builder.value with
    | error fault => rfl
    | ok values => rfl

theorem ends_firstGuess (c : Converter α σ) (first : OrbitState α) (names : List String) {s : Session α σ}
    {P : Session α σ → Prop} (h : P s) :
    Ends (c.firstGuess first names) s (fun _ s' => P s') (fun _ s' => P s') := by
  unfold Ends
  rw [exec_firstGuess]
  cases firstGuess? c.frame s.builder first names with
  | error fault => exact h
  | ok guess => exact h

theorem ends_currentObjective {epoch : α} {s : Session α σ}
    {Q : Objective α (Builder α × σ) → Session α σ → Prop} {E : Fault α → Session α σ → Prop} :
    Ends ((standard frame settings optimizer).currentObjective epoch) s Q E ↔
      Q (Objective.propagated (s.request frame epoch)).onFirst s := Iff.rfl

/-- A phase keeps what was set up for it, also where it fails. -/
theorem ends_fit (epoch : α) (phase : Phase) (guess : NdArray α) (s : Session α σ) :
    Ends ((standard frame settings optimizer).fit epoch phase guess) s (fun _ s' => s.Follows s')
      (fun _ s' => s.Follows s') := by
  unfold fit
  rw [ends_bind, ends_currentObjective, ends_bind, ends_get]
  refine Session.ends_onWorld fun run s₁ h₁ => Session.ends_against fun x s₂ h₂ => ?_
  -- choosing the run and playing it only evaluates; the count and the journal are not among what is followed
  obtain ⟨outcome, calls⟩ := x
  have h := h₁.trans h₂
  rw [ends_bind, ends_modify, ends_bind, ends_ofExcept]
  exact ⟨fun optimum _ => { h with }, fun f _ => { h with }⟩

/-- **The residuals are those of the propagator that the point builds**, now and afterwards. -/
theorem ends_residuals (epoch : α) (point : NdArray α) (s : Session α σ) :
    Ends ((standard frame settings optimizer).residuals epoch point) s
      (fun rest s' => s.Follows s' ∧ ∃ p model, (exec (build epoch point) s'.builder).1 = .ok p ∧
        Objective.components (s'.request frame epoch) p = .ok model ∧
        (NdArray.ofList s'.targets.target).sub model = .ok rest)
      (fun _ s' => s.Follows s') := by
  unfold residuals
  rw [ends_bind, ends_currentObjective, ends_bind, Session.ends_value]
  refine (Objective.ends_value _ point s.builder).mono ?_ fun f b hb => Session.follows_of_evaluated hb s.world
  rintro model b ⟨hb, p, hp, hm⟩
  have h : s.Follows { s with builder := b } := Session.follows_of_evaluated hb s.world
  -- the point builds the same propagator again, as an evaluation leaves all that building reads
  rw [ends_bind, ends_get, ends_ofExcept]
  exact ⟨fun rest hrest => ⟨h, p, model, (hb.build_eq epoch point).trans hp, by rw [h.request_eq, hm], hrest⟩,
    fun _ _ => h⟩

end Converter

end Steps

/-! ## A conversion -/

section Adaptation

variable {α σ : Type}

/-- What a conversion fits. -/
structure Task (α : Type) where
  first : OrbitState α
  /-- the states behind the first -/
  rest : List (OrbitState α)
  onlyPosition : Bool
  /-- the parameters that are adjusted -/
  names : List String

def Task.states (task : Task α) : List (OrbitState α) := task.first :: task.rest

/-- A session between the start of a conversion and its result. -/
structure Session.Adapting (s : Session α σ) (b : Builder α) (task : Task α) : Prop where
  builder : Evaluated b s.builder
  free : s.builder.free = task.names
  referenceEpoch : s.referenceEpoch = some task.first.epoch
  freeParameters : s.freeParameters = task.names
  onlyPosition : s.onlyPosition = task.onlyPosition
  result : s.result = none

theorem Session.Adapting.follows {s s' : Session α σ} {b : Builder α} {task : Task α} (h : s.Adapting b task)
    (hs : s.Follows s') : s'.Adapting b task :=
  ⟨h.builder.trans hs.builder, hs.builder.free_eq.trans h.free, hs.referenceEpoch.trans h.referenceEpoch,
    hs.freeParameters.trans h.freeParameters, hs.onlyPosition.trans h.onlyPosition, hs.result.trans h.result⟩

variable [Scalar α]

/-- The targets of a session are those of its sample. -/
structure Session.Sampled (s : Session α σ) (frame : Frame) (states : List (OrbitState α)) : Prop where
  sample : s.sample = states
  targets : Targets.ofStates s.sample (.known frame) s.onlyPosition s.builder.eop = .ok s.targets

/-- A result belongs to what the session shows beside it. -/
structure Session.Coherent (s : Session α σ) (task : Task α) (res : Conversion α) : Prop where
  sample : s.sample = task.states
  referenceEpoch : s.referenceEpoch = some task.first.epoch
  freeParameters : s.freeParameters = task.names
  onlyPosition : s.onlyPosition = task.onlyPosition
  evaluations : res.evaluations = s.evaluations
  shape : res.point.shape = [6 + s.freeParameters.length]
  /-- the propagator starts from the position and the velocity in the point -/
  initial : ∃ (r v : Vec3 α) (values : List α) (mu : α), res.point.data = r.toList ++ v.toList ++ values ∧
    res.propagator.initial = ⟨task.first.epoch, r, v, mu, s.builder.frame⟩
  targets : Targets.ofStates s.sample (.known s.builder.frame) s.onlyPosition s.builder.eop = .ok s.targets
  /-- the root of the sum of squares over the number of components, for what is left between the targets and the
  propagator at the epochs of the sample -/
  rms : ∃ rows, (s.sample.mapM fun t : OrbitState α => do
      (← res.propagator.stateAt t.epoch).row (.known s.builder.frame) s.onlyPosition s.builder.eop) = .ok rows ∧
    rows.flatten.length = s.targets.target.length ∧
    res.rms = Scalar.sqrt (((List.zipWith (· - ·) s.targets.target rows.flatten).map fun x => Scalar.pow x 2).foldl
      (· + ·) 0 / Scalar.ofNat s.targets.target.length)

namespace Session

variable {s s' : Session α σ} {b : Builder α} {task : Task α} {frame : Frame} {states : List (OrbitState α)}

theorem Sampled.follows (h : s.Sampled frame states) (hs : s.Follows s') : s'.Sampled frame states :=
  ⟨hs.sample.trans h.sample, by rw [hs.sample, hs.onlyPosition, hs.builder.eop_eq, hs.targets, h.targets]⟩

/-- **A result is coherent** if its propagator is built from its point, and its residuals are those of the
propagator. -/
theorem Adapting.coherent (h : s.Adapting b task) (hs : s.Sampled s.builder.frame task.states)
    {p : AnalyticPropagator α} {point model : NdArray α}
    (hp : (exec (build task.first.epoch point) s.builder).1 = .ok p)
    (hm : Objective.components (s.request s.builder.frame task.first.epoch) p = .ok model)
    (hshape : model.shape = [s.targets.target.length]) :
    s.Coherent task ⟨p, Targets.rootMeanSquare (List.zipWith (· - ·) s.targets.target model.data), s.evaluations,
      point⟩ := by
  obtain ⟨r, v, values, mu, hpoint, hdata, hinitial, -⟩ := build_eq_ok hp
  obtain ⟨rows, hrows, rfl⟩ := components_eq_ok hm
  have hlength : rows.flatten.length = s.targets.target.length := by simpa using hshape
  refine ⟨hs.sample, h.referenceEpoch, h.freeParameters, h.onlyPosition, rfl, ?_, ⟨r, v, values, mu, hdata, hinitial⟩,
    hs.targets, rows, hrows, hlength, ?_⟩
  · rw [hpoint, pointSize, h.free, h.freeParameters]
  · show Targets.rootMeanSquare (List.zipWith (· - ·) s.targets.target rows.flatten) = _
    rw [Targets.rootMeanSquare, List.length_zipWith, hlength, Nat.min_self]
    rfl

end Session

namespace Converter

open Session

variable {settings : FitSettings α} {optimizer : FitProblem α → StateM σ (Run α (Optimum α))} {task : Task α}
  {frame : Frame} {s : Session α σ} {b : Builder α}

theorem ends_setSample (h : s.Adapting b task) (states : List (OrbitState α)) :
    Ends ((standard frame settings optimizer).setSample states) s
      (fun _ s' => s'.Adapting b task ∧ s'.Sampled frame states) (fun _ s' => s'.Adapting b task) := by
  unfold setSample
  rw [ends_bind, ends_modify, ends_bind, ends_get, ends_bind, ends_ofExcept]
  exact ⟨fun t ht => ⟨{ h with }, rfl, ht⟩, fun f _ => { h with }⟩

theorem ends_phase (h : s.Adapting b task) {states : List (OrbitState α)} (hs : s.Sampled frame states)
    (epoch : α) (phase : Phase) (guess : NdArray α) :
    Ends ((standard frame settings optimizer).fit epoch phase guess) s
      (fun _ s' => s'.Adapting b task ∧ s'.Sampled frame states) (fun _ s' => s'.Adapting b task) :=
  (ends_fit epoch phase guess s).mono (fun _ _ hf => ⟨h.follows hf, hs.follows hf⟩) fun _ _ hf => h.follows hf

theorem ends_rest (h : s.Adapting b task) {states : List (OrbitState α)} (hs : s.Sampled frame states)
    (epoch : α) (point : NdArray α) :
    Ends ((standard frame settings optimizer).residuals epoch point) s
      (fun rest s' => (s'.Adapting b task ∧ s'.Sampled frame states) ∧
        ∃ p model, (exec (build epoch point) s'.builder).1 = .ok p ∧
          Objective.components (s'.request frame epoch) p = .ok model ∧
          model.shape = [s'.targets.target.length] ∧
          rest.data = List.zipWith (· - ·) s'.targets.target model.data)
      (fun _ s' => s'.Adapting b task) := by
  refine (ends_residuals epoch point s).mono ?_ fun _ _ hf => h.follows hf
  rintro rest s' ⟨hf, p, model, hp, hm, hrest⟩
  have hshape : model.shape = [s'.targets.target.length] := shape_components hm (hs.follows hf).targets
  rw [NdArray.sub, zipWith_of_shape_eq _ hshape] at hrest
  obtain rfl := Except.ok.inj hrest
  exact ⟨⟨h.follows hf, hs.follows hf⟩, p, model, hp, hm, hshape, data_arrange _ _⟩

/-- **A conversion** ends with a coherent session, or without a result. -/
theorem ends_adapt (hf : s.builder.frame = frame) (hfree : s.builder.free = task.names)
    (hn : s.freeParameters = task.names) :
    Ends ((standard frame settings optimizer).adapt task.first task.states task.onlyPosition task.names) s
      (fun p s' => Evaluated s.builder s'.builder ∧ ∃ res, s'.result = some res ∧ res.propagator = p ∧
        s'.Coherent task res)
      (fun _ s' => Evaluated s.builder s'.builder ∧ s'.result = none) := by
  -- a failure anywhere behind the start leaves a session that adapts the task and has no result yet
  refine Ends.mono (E := fun _ s' => s'.Adapting s.builder task) ?_ (fun _ _ h => h)
    fun _ _ h => ⟨h.builder, h.result⟩
  unfold adapt
  rw [ends_bind, ends_modify]
  have h₁ : Adapting { s with
      referenceEpoch := some task.first.epoch, onlyPosition := task.onlyPosition, evaluations := 0
      result := none } s.builder task := ⟨Evaluated.refl _, hfree, rfl, hn, rfl, rfl⟩
  refine (ends_firstGuess _ _ _ h₁).bind fun guess s₂ h₂ => ?_
  rw [ends_bind, ends_modify]
  have h₃ : (Session.report (.converting task.states.length task.onlyPosition task.names) s₂).Adapting s.builder
    task := { h₂ with }
  refine (ends_setSample h₃ _).bind fun _ s₄ ⟨h₄, hs₄⟩ => (ends_phase h₄ hs₄ _ _ _).bind fun rough s₅ ⟨h₅, _⟩ => ?_
  refine (ends_setSample h₅ _).bind fun _ s₆ ⟨h₆, hs₆⟩ => (ends_phase h₆ hs₆ _ _ _).bind fun point s₇ ⟨h₇, hs₇⟩ => ?_
  refine (ends_rest h₇ hs₇ _ _).bind fun xs s₈ ⟨⟨h₈, hs₈⟩, p, model, hp, hm, hshape, hxs⟩ => ?_
  -- building once more places what the residuals have placed
  rw [ends_bind, ends_onPart]
  refine (ends_build hp).mono ?_ fun _ _ hfalse => hfalse.elim
  rintro _ b ⟨rfl, hb, hp⟩
  have hs : s₈.Follows { s₈ with builder := b } := follows_of_evaluated hb s₈.world
  have h₉ := h₈.follows hs
  have hframe : b.frame = frame := by rw [hb.frame_eq, h₈.builder.frame_eq, hf]
  have hres := h₉.coherent (hframe ▸ hs₈.follows hs) hp (by rw [hs.request_eq]; simp [hframe, hm]) hshape
  rw [ends_bind, ends_modify, ends_bind, ends_modify, hxs]
  exact ⟨h₉.builder, _, rfl, rfl, { hres with }⟩

end Converter

end Adaptation

/-! ## A conversion that succeeds -/

section Settled

variable {α σ : Type} [Scalar α]

namespace Converter

open Session

/-- An optimizer that ends at once, always at the same point. -/
def settled (point : NdArray α) : FitProblem α → StateM σ (Run α (Optimum α)) :=
  fun _ => pure (.done (.ok ⟨point, 0, 0, 0, none⟩))

/-- An optimizer that looks at a point once and stays there, whatever it sees. -/
def looking (point : NdArray α) : FitProblem α → StateM σ (Run α (Optimum α)) :=
  fun _ => pure (.value point fun _ => .done (.ok ⟨point, 1, 0, 0, none⟩))

variable {frame : Frame} {settings : FitSettings α} {s : Session α σ} {point : NdArray α} {epoch : α}

/-- Every phase ends at the same point, after the same number of looks at the model. -/
def StaysAt (c : Converter α σ) (point : NdArray α) (looks : ℕ) : Prop :=
  ∀ (epoch : α) (phase : Phase) (guess : NdArray α) (s : Session α σ), Ends (c.fit epoch phase guess) s
    (fun x s' => x = point ∧ s.Follows s' ∧ s'.evaluations = s.evaluations + looks) (fun _ _ => False)

theorem staysAt_settled : (standard frame settings (settled (σ := σ) point)).StaysAt point 0 := by
  intro epoch phase guess s
  have hexec : exec ((standard frame settings (settled point)).fit epoch phase guess) s = (.ok point, { s with
      journal := .phaseDone phase s.sample.length 0 :: s.journal }) := rfl
  exact (ends_of_ok hexec).mpr ⟨rfl, ⟨Evaluated.refl _, rfl, rfl, rfl, rfl, rfl, rfl⟩, rfl⟩

theorem staysAt_looking : (standard frame settings (looking (σ := σ) point)).StaysAt point 1 := by
  intro epoch phase guess s
  let model := Objective.propagated (s.request frame epoch)
  have hexec : exec ((standard frame settings (looking point)).fit epoch phase guess) s = (.ok point, { s with
      builder := (exec (model.value point) s.builder).2, evaluations := s.evaluations + 1
      journal := .phaseDone phase s.sample.length 1 :: s.journal }) := rfl
  have hfollows := follows_of_evaluated (Objective.evaluated_value (s.request frame epoch) point s.builder) s.world
  exact (ends_of_ok hexec).mpr ⟨rfl, { hfollows with }, rfl⟩

theorem exec_setSample {c : Converter α σ} {states : List (OrbitState α)} {t : Targets α}
    (h : Targets.ofStates states (.known c.frame) s.onlyPosition s.builder.eop = .ok t) :
    exec (c.setSample states) s = (.ok ⟨⟩, { s with sample := states, targets := t }) := by
  rw [setSample, exec_bind_ok (exec_modify _ _), exec_bind_ok (exec_get _), h]
  rfl

theorem exec_residuals {optimizer : FitProblem α → StateM σ (Run α (Optimum α))} {p : AnalyticPropagator α}
    {b : Builder α} {model : NdArray α} (hp : exec (build epoch point) s.builder = (.ok p, b))
    (hm : Objective.components (s.request frame epoch) p = .ok model)
    (hshape : model.shape = [s.targets.target.length]) :
    exec ((standard frame settings optimizer).residuals epoch point) s =
      (.ok (NdArray.arrange [s.targets.target.length] (List.zipWith (· - ·) s.targets.target model.data)),
        { s with builder := b }) := by
  have hv : exec ((Objective.propagated (s.request frame epoch)).value point) s.builder = (.ok model, b) := by
    rw [Objective.exec_value]
    show ((exec (build epoch point) s.builder).1.bind _, (exec (build epoch point) s.builder).2) = _
    rw [hp]
    exact Prod.ext hm rfl
  have hobjective : exec ((standard frame settings optimizer).currentObjective epoch) s =
      (.ok (Objective.propagated (s.request frame epoch)).onFirst, s) := rfl
  rw [residuals, exec_bind_ok hobjective, exec_bind_ok (Session.exec_value.trans (by rw [hv])),
    exec_bind_ok (exec_get _), exec_ofExcept]
  dsimp only
  rw [NdArray.sub, zipWith_of_shape_eq _ hshape]
  rfl

/-- A conversion whose phases stay at a point ends with the propagator of that point, and has counted their looks. -/
theorem ends_adapt_of_staysAt {optimizer : FitProblem α → StateM σ (Run α (Optimum α))} {looks : ℕ}
    (hstays : (standard frame settings optimizer).StaysAt point looks) (task : Task α) {guess : NdArray α}
    {t₁ t : Targets α} {p : AnalyticPropagator α} {model : NdArray α}
    (hguess : firstGuess? frame s.builder task.first task.names = .ok guess)
    (ht₁ : Targets.ofStates (task.states.take (minimumStates task.onlyPosition)) (.known frame) task.onlyPosition
      s.builder.eop = .ok t₁)
    (ht : Targets.ofStates task.states (.known frame) task.onlyPosition s.builder.eop = .ok t)
    (hp : (exec (build task.first.epoch point) s.builder).1 = .ok p)
    (hm : Objective.components
      ⟨task.states, .known frame, task.onlyPosition, task.first.epoch, s.builder.eop⟩ p = .ok model)
    (hshape : model.shape = [t.target.length]) :
    Ends ((standard frame settings optimizer).adapt task.first task.states task.onlyPosition task.names) s
      (fun q s' => q = p ∧ s'.evaluations = looks + looks) (fun _ _ => False) := by
  unfold adapt
  rw [ends_bind, ends_modify]
  refine (ends_bind_of_ok ((exec_firstGuess ..).trans (Prod.ext hguess rfl))).mpr ?_
  rw [ends_bind, ends_modify]
  refine (ends_bind_of_ok (by exact exec_setSample ht₁)).mpr ?_
  refine (hstays ..).bind ?_
  rintro rough s₁ ⟨hrough, hf₁, he₁⟩
  obtain rfl : point = rough := hrough.symm
  have ht' : Targets.ofStates task.states (.known frame) s₁.onlyPosition s₁.builder.eop = .ok t := by
    rw [hf₁.onlyPosition, hf₁.builder.eop_eq]
    exact ht
  refine (ends_bind_of_ok (by exact exec_setSample ht')).mpr ?_
  refine (hstays ..).bind ?_
  rintro fine s₂ ⟨hfine, hf₂, he₂⟩
  obtain rfl : point = fine := hfine.symm
  have hb : Evaluated s.builder s₂.builder := hf₁.builder.trans hf₂.builder
  have hp₂ := (hb.build_eq task.first.epoch point).trans hp
  have hm₂ : Objective.components (s₂.request frame task.first.epoch) p = .ok model := by
    rw [hf₂.request_eq, request, hf₁.onlyPosition, hf₁.builder.eop_eq]
    exact hm
  have hshape₂ : model.shape = [s₂.targets.target.length] := by
    rw [hf₂.targets]
    exact hshape
  refine (ends_bind_of_ok (by exact exec_residuals (Prod.ext hp₂ rfl) hm₂ hshape₂)).mpr ?_
  rw [ends_bind, ends_onPart]
  -- the residuals have built from the point once already, which changes nothing for the second time
  have hagain := ((evaluated_build task.first.epoch point s₂.builder).build_eq task.first.epoch point).trans hp₂
  refine (ends_build hagain).mono ?_ fun _ _ hfalse => hfalse
  rintro _ _ ⟨rfl, -⟩
  refine ⟨rfl, ?_⟩
  show s₂.evaluations = looks + looks
  rw [he₂]
  show s₁.evaluations + looks = looks + looks
  rw [he₁]
  exact congrArg (· + looks) (Nat.zero_add looks)

end Converter

end Settled

end OrbitFit
