import OrbitFit.Proofs.Converter.History
import OrbitFit.Proofs.LeastSquares.Budget

/-!
# OrbitFit.Proofs.Converter.Accounting — what a conversion asks its objectives

The objectives and the optimizer of a converter may be anything: each may fail at any point, and change the builder
and its world.  A phase is what an optimizer and an objective say to each other (`PhaseReport`, `Converter.Ran`).  A
conversion is at most two of them and, behind a refinement that succeeds, one look at the model of the whole sample
(`Converter.Converted`).

* `ends_fit_reported`: a phase adds the values that it asks for to the evaluations, also where it fails.
* `ends_adapt_accounted`: the evaluations of a conversion are those of its phases.
* `Converted.history`: objectives that write down what they are asked hear nothing else.
* `conversion_accounted`: so they are for every call that is a task, whatever was converted before.
-/

namespace OrbitFit

open OrbitFit.Action

/-! ## Phases -/

section Phases

variable {α σ : Type}

/-- A phase of a conversion. -/
structure PhaseReport (α : Type) where
  /-- what its objective is made for -/
  request : ObjectiveRequest α
  /-- where the fit starts -/
  guess : NdArray α
  /-- what the optimizer asks the objective -/
  exchanges : List (Exchange α)
  outcome : Except (Fault α) (Optimum α)

/-- The values that a phase asks for. -/
def PhaseReport.evaluations (report : PhaseReport α) : ℕ := Exchange.evaluations report.exchanges

namespace Session

/-- The builder and the world of the objectives. -/
def model (s : Session α σ) : Builder α × σ := (s.builder, s.world)

def withModel (s : Session α σ) (m : Builder α × σ) : Session α σ := { s with builder := m.1, world := m.2 }

variable {s : Session α σ} {β : Type} {Q : β → Session α σ → Prop} {E : Fault α → Session α σ → Prop}

@[simp] theorem model_withModel (s : Session α σ) (m : Builder α × σ) : (s.withModel m).model = m := rfl

theorem exec_onModel (a : Action α (Builder α × σ) β) (s : Session α σ) :
    exec (ExceptT.mk (onModel a.run)) s = ((exec a s.model).1, s.withModel (exec a s.model).2) := rfl

theorem ends_onModel {a : Action α (Builder α × σ) β} : Ends (ExceptT.mk (onModel a.run)) s Q E ↔
    Ends a s.model (fun x m => Q x (s.withModel m)) (fun fault m => E fault (s.withModel m)) := by
  unfold Ends
  rw [exec_onModel]
  rcases exec a s.model with ⟨_ | x, m⟩ <;> rfl

theorem exec_lift_onModel (a : StateM (Builder α × σ) β) (s : Session α σ) :
    exec (ExceptT.lift (onModel a) : Action α (Session α σ) β) s = (.ok (a s.model).1, s.withModel (a s.model).2) := rfl

theorem exec_lift_onWorld (a : StateM σ β) (s : Session α σ) :
    exec (ExceptT.lift (onWorld a) : Action α (Session α σ) β) s =
      (.ok (a s.world).1, s.withModel (s.builder, (a s.world).2)) := rfl

end Session

variable [Scalar α]

namespace Converter

/-- The problem of a fit to targets. -/
def problem (c : Converter α σ) (t : Targets α) (guess : NdArray α) (o : Objective α (Builder α × σ)) : FitProblem α :=
  ⟨c.settings.maxIterations, NdArray.ofList t.target, NdArray.ofList t.weight, guess, o.jacobian.isSome⟩

/-- From a builder and a world, a converter runs a phase and leaves others: there is no objective, or the optimizer
runs against the objective that was made. -/
inductive Ran (c : Converter α σ) : PhaseReport α → Builder α × σ → Builder α × σ → Prop
  | unmade {q : ObjectiveRequest α} {guess : NdArray α} {fault : Fault α} {m m' : Builder α × σ}
      (made : exec (c.objective q) m = (.error fault, m')) : Ran c ⟨q, guess, [], .error fault⟩ m m'
  | run {q : ObjectiveRequest α} {guess : NdArray α} {m m₁ : Builder α × σ} {o : Objective α (Builder α × σ)}
      {t : Targets α} {run : Run α (Optimum α)} {w : σ}
      (made : exec (c.objective q) m = (.ok o, m₁))
      (targets : Targets.ofStates q.states q.frame q.onlyPosition q.eop = .ok t)
      (asked : c.optimizer (c.problem t guess o) m₁.2 = (run, w)) :
      Ran c ⟨q, guess, run.exchanges o (m₁.1, w), (run.against o (m₁.1, w)).1.1⟩ m (run.against o (m₁.1, w)).2

/-- A session behind a phase that fits states. -/
structure Phased (c : Converter α σ) (epoch : α) (states : List (OrbitState α)) (guess : NdArray α)
    (s s' : Session α σ) (report : PhaseReport α) : Prop where
  ran : Ran c report s.model s'.model
  request : report.request = ⟨states, .known c.frame, s.onlyPosition, epoch, s.builder.eop⟩
  guess : report.guess = guess
  evaluations : s'.evaluations = s.evaluations + report.evaluations
  sample : s'.sample = states
  onlyPosition : s'.onlyPosition = s.onlyPosition

variable {c : Converter α σ} {s : Session α σ}

omit [Scalar α] in
theorem ends_currentObjective_iff {epoch : α} {Q : Objective α (Builder α × σ) → Session α σ → Prop}
    {E : Fault α → Session α σ → Prop} : Ends (c.currentObjective epoch) s Q E ↔
      Ends (c.objective (s.request c.frame epoch)) s.model (fun o m => Q o (s.withModel m))
        (fun fault m => E fault (s.withModel m)) := by
  unfold currentObjective
  rw [ends_bind, ends_get, Session.ends_onModel]
  rfl

/-- A fit counts what it asks for, also where it fails. -/
theorem ends_fit_reported {states : List (OrbitState α)} (hs : s.Sampled c.frame states) (epoch : α) (phase : Phase)
    (guess : NdArray α) :
    Ends (c.fit epoch phase guess) s
      (fun point s' => ∃ report optimum, c.Phased epoch states guess s s' report ∧ report.outcome = .ok optimum ∧
        optimum.point = point)
      (fun fault s' => ∃ report, c.Phased epoch states guess s s' report ∧ report.outcome = .error fault) := by
  obtain ⟨rfl, targets⟩ := hs
  unfold fit
  rw [ends_bind, ends_currentObjective_iff]
  rcases hmade : exec (c.objective (s.request c.frame epoch)) s.model with ⟨fault | o, m₁⟩
  · exact (ends_of_error hmade).mpr
      ⟨⟨_, guess, [], .error fault⟩, ⟨.unmade hmade, rfl, rfl, rfl, rfl, rfl⟩, rfl⟩
  · -- the optimizer picks a run and may change the world, the run is then played against the builder and that world
    rcases hasked : c.optimizer (c.problem s.targets guess o) m₁.2 with ⟨run, w⟩
    have hworld := Session.exec_lift_onWorld (α := α) (c.optimizer (c.problem s.targets guess o)) (s.withModel m₁)
    rw [show (s.withModel m₁).world = m₁.2 from rfl, hasked] at hworld
    have hran := Ran.run hmade targets hasked
    have hcount := run.count_against o (m₁.1, w)
    have hagainst := Session.exec_lift_onModel (run.against o) (s.withModel (m₁.1, w))
    rw [Session.model_withModel] at hagainst
    rw [ends_of_ok hmade, ends_bind, ends_get]
    refine (ends_bind_of_ok hworld).mpr ((ends_bind_of_ok hagainst).mpr ?_)
    generalize run.against o (m₁.1, w) = ended at hran hcount ⊢
    obtain ⟨⟨outcome, calls⟩, m₂⟩ := ended
    rw [ends_bind, ends_modify, ends_bind, ends_ofExcept]
    constructor
    · rintro optimum rfl
      exact ⟨_, optimum, ⟨hran, rfl, rfl, congrArg (s.evaluations + ·) hcount, rfl, rfl⟩, rfl, rfl⟩
    · rintro fault rfl
      exact ⟨_, ⟨hran, rfl, rfl, congrArg (s.evaluations + ·) hcount, rfl, rfl⟩, rfl⟩

/-- **A phase**: the states become the sample, unless they have no targets, and are fitted. -/
theorem ends_phase_reported {states : List (OrbitState α)} {epoch : α} {phase : Phase} {guess : NdArray α} {β : Type}
    {f : NdArray α → Action α (Session α σ) β} {Q : β → Session α σ → Prop} {E : Fault α → Session α σ → Prop}
    (untargeted : ∀ fault s', Targets.ofStates states (.known c.frame) s.onlyPosition s.builder.eop = .error fault →
      s'.model = s.model → s'.evaluations = s.evaluations → E fault s')
    (failed : ∀ report fault s', c.Phased epoch states guess s s' report → report.outcome = .error fault → E fault s')
    (fitted : ∀ report optimum s', c.Phased epoch states guess s s' report → report.outcome = .ok optimum →
      Ends (f optimum.point) s' Q E) :
    Ends (c.setSample states >>= fun _ => c.fit epoch phase guess >>= f) s Q E := by
  unfold setSample
  rw [ends_bind, ends_bind, ends_modify, ends_bind, ends_get, ends_bind, ends_ofExcept]
  refine ⟨fun t ht => ?_, fun fault hfault => untargeted fault _ hfault rfl rfl⟩
  rw [ends_modify, ends_bind]
  refine (ends_fit_reported ⟨rfl, ht⟩ epoch phase guess).mono ?_ ?_
  · rintro _ s' ⟨report, optimum, h, hok, rfl⟩
    exact fitted report optimum s' { h with } hok
  · rintro fault s' ⟨report, h, herror⟩
    exact failed report fault s' { h with } herror

end Converter

end Phases

/-! ## A conversion -/

section Conversion

variable {α σ : Type} [Scalar α]

/-- What an objective of a task is made for. -/
def Task.request (task : Task α) (frame : Frame) (b : Builder α) (states : List (OrbitState α)) : ObjectiveRequest α :=
  ⟨states, .known frame, task.onlyPosition, task.first.epoch, b.eop⟩

/-- The first states of a task, which it warms up on. -/
def Task.firstStates (task : Task α) : List (OrbitState α) :=
  task.states.take (Converter.minimumStates task.onlyPosition)

/-- The targets of states for a task. -/
def Task.targets? (task : Task α) (frame : Frame) (b : Builder α) (states : List (OrbitState α)) :
    Except (Fault α) (Targets α) := Targets.ofStates states (.known frame) task.onlyPosition b.eop

namespace Converter

/-- The warm-up of a task sees its first states. -/
structure WarmedUp (c : Converter α σ) (task : Task α) (warmUp : PhaseReport α) (m m' : Builder α × σ) : Prop where
  ran : Ran c warmUp m m'
  request : warmUp.request = task.request c.frame m.1 task.firstStates
  guess : firstGuess? c.frame m.1 task.first task.names = .ok warmUp.guess

/-- The refinement of a task sees all of its states, and starts where the warm-up ended. -/
structure Refined (c : Converter α σ) (task : Task α) (start : Optimum α) (refinement : PhaseReport α)
    (m m' : Builder α × σ) : Prop where
  ran : Ran c refinement m m'
  request : refinement.request = task.request c.frame m.1 task.states
  guess : refinement.guess = start.point

/-- The end of a conversion at a point: an objective is made, looked at once, and the propagator is built.  What the
objective was asked, and what it ends with. -/
inductive Closed (c : Converter α σ) (q : ObjectiveRequest α) (point : NdArray α) (m : Builder α × σ) :
    List (Exchange α) → Except (Fault α) (AnalyticPropagator α) → Builder α × σ → Prop
  | unmade {fault : Fault α} {m' : Builder α × σ} (made : exec (c.objective q) m = (.error fault, m')) :
      Closed c q point m [] (.error fault) m'
  | unanswered {o : Objective α (Builder α × σ)} {fault : Fault α} {m₁ m' : Builder α × σ}
      (made : exec (c.objective q) m = (.ok o, m₁)) (value : exec (o.value point) m₁ = (.error fault, m')) :
      Closed c q point m [.value point (.error fault)] (.error fault) m'
  /-- the model cannot be compared with the target -/
  | unlike {o : Objective α (Builder α × σ)} {model : NdArray α} {fault : Fault α} {m₁ m' : Builder α × σ}
      (made : exec (c.objective q) m = (.ok o, m₁)) (value : exec (o.value point) m₁ = (.ok model, m')) :
      Closed c q point m [.value point (.ok model)] (.error fault) m'
  | built {o : Objective α (Builder α × σ)} {model : NdArray α} {m₁ m₂ : Builder α × σ}
      {result : Except (Fault α) (AnalyticPropagator α)} {b : Builder α}
      (made : exec (c.objective q) m = (.ok o, m₁)) (value : exec (o.value point) m₁ = (.ok model, m₂))
      (build : exec (Builder.build q.referenceEpoch point) m₂.1 = (result, b)) :
      Closed c q point m [.value point (.ok model)] result (b, m₂.2)

/-- What the conversion of a task does to the builder and the world: the phases that it consists of, what is asked
behind them, and what it ends with. -/
inductive Converted (c : Converter α σ) (task : Task α) (m : Builder α × σ) : List (PhaseReport α) →
    List (Exchange α) → Except (Fault α) (AnalyticPropagator α) → Builder α × σ → Prop
  | unstarted {fault : Fault α} (cause : firstGuess? c.frame m.1 task.first task.names = .error fault ∨
        task.targets? c.frame m.1 task.firstStates = .error fault) :
      Converted c task m [] [] (.error fault) m
  | unwarmed {warmUp : PhaseReport α} {fault : Fault α} {m₁ : Builder α × σ}
      (warmed : WarmedUp c task warmUp m m₁) (failed : warmUp.outcome = .error fault) :
      Converted c task m [warmUp] [] (.error fault) m₁
  | unprepared {warmUp : PhaseReport α} {start : Optimum α} {fault : Fault α} {m₁ : Builder α × σ}
      (warmed : WarmedUp c task warmUp m m₁) (warm : warmUp.outcome = .ok start)
      (cause : task.targets? c.frame m₁.1 task.states = .error fault) :
      Converted c task m [warmUp] [] (.error fault) m₁
  | unrefined {warmUp refinement : PhaseReport α} {start : Optimum α} {fault : Fault α} {m₁ m₂ : Builder α × σ}
      (warmed : WarmedUp c task warmUp m m₁) (warm : warmUp.outcome = .ok start)
      (refined : Refined c task start refinement m₁ m₂) (failed : refinement.outcome = .error fault) :
      Converted c task m [warmUp, refinement] [] (.error fault) m₂
  | closed {warmUp refinement : PhaseReport α} {start optimum : Optimum α} {m₁ m₂ m₃ : Builder α × σ}
      {closing : List (Exchange α)} {result : Except (Fault α) (AnalyticPropagator α)}
      (warmed : WarmedUp c task warmUp m m₁) (warm : warmUp.outcome = .ok start)
      (refined : Refined c task start refinement m₁ m₂) (fine : refinement.outcome = .ok optimum)
      (closed : Closed c (task.request c.frame m₂.1 task.states) optimum.point m₂ closing result m₃) :
      Converted c task m [warmUp, refinement] closing result m₃

/-- A session behind a conversion has counted the values of its phases. -/
def Accounted (c : Converter α σ) (task : Task α) (m : Builder α × σ) (result : Except (Fault α) (AnalyticPropagator α))
    (s' : Session α σ) : Prop :=
  ∃ phases closing, Converted c task m phases closing result s'.model ∧
    s'.evaluations = (phases.map PhaseReport.evaluations).sum

variable {c : Converter α σ} {s : Session α σ} {task : Task α}

theorem Phased.warmedUp {guess : NdArray α} {s' : Session α σ} {warmUp : PhaseReport α}
    (h : c.Phased task.first.epoch task.firstStates guess s s' warmUp) (ho : s.onlyPosition = task.onlyPosition)
    (hguess : firstGuess? c.frame s.builder task.first task.names = .ok guess) :
    WarmedUp c task warmUp s.model s'.model :=
  ⟨h.ran, by rw [h.request, ho]; rfl, by rw [h.guess]; exact hguess⟩

theorem Phased.refined {start : Optimum α} {s' : Session α σ} {refinement : PhaseReport α}
    (h : c.Phased task.first.epoch task.states start.point s s' refinement)
    (ho : s.onlyPosition = task.onlyPosition) : Refined c task start refinement s.model s'.model :=
  ⟨h.ran, by rw [h.request, ho]; rfl, h.guess⟩

/-- The residuals take one look at the model. -/
theorem ends_residuals_closed (epoch : α) (point : NdArray α) (s : Session α σ) :
    Ends (c.residuals epoch point) s
      (fun _ s' => s'.evaluations = s.evaluations ∧ ∃ o m₁ model,
        exec (c.objective (s.request c.frame epoch)) s.model = (.ok o, m₁) ∧
        exec (o.value point) m₁ = (.ok model, s'.model))
      (fun fault s' => s'.evaluations = s.evaluations ∧ ∃ closing,
        Closed c (s.request c.frame epoch) point s.model closing (.error fault) s'.model) := by
  unfold residuals
  rw [ends_bind, ends_currentObjective_iff]
  rcases hmade : exec (c.objective (s.request c.frame epoch)) s.model with ⟨fault | o, m₁⟩
  · exact (ends_of_error hmade).mpr ⟨rfl, [], .unmade hmade⟩
  · rw [ends_of_ok hmade, ends_bind, Session.ends_onModel, Session.model_withModel]
    rcases hvalue : exec (o.value point) m₁ with ⟨fault | model, m₂⟩
    · exact (ends_of_error hvalue).mpr ⟨rfl, _, .unanswered hmade hvalue⟩
    · -- only here can the model be answered and still not match the target
      rw [ends_of_ok hvalue, ends_bind, ends_get, ends_ofExcept]
      exact ⟨fun _ _ => ⟨rfl, o, m₁, model, rfl, hvalue⟩, fun _ _ => ⟨rfl, _, .unlike hmade hvalue⟩⟩

/-- The end of a conversion, in a session that has its sample. -/
theorem ends_close (c : Converter α σ) (task : Task α) (point : NdArray α) {s : Session α σ}
    (hsample : s.sample = task.states) (ho : s.onlyPosition = task.onlyPosition) :
    Ends (do
      let rms := Targets.rootMeanSquare (← c.residuals task.first.epoch point).data
      let propagator ← (Builder.build task.first.epoch point).onPart Session.builder fun b s => { s with builder := b }
      modify fun s => { s with result := some ⟨propagator, rms, s.evaluations, point⟩ }
      modify fun s => s.report (.converted rms s.evaluations)
      return propagator) s
      (fun p s' => s'.evaluations = s.evaluations ∧ ∃ closing,
        Closed c (task.request c.frame s.builder task.states) point s.model closing (.ok p) s'.model)
      (fun fault s' => s'.evaluations = s.evaluations ∧ ∃ closing,
        Closed c (task.request c.frame s.builder task.states) point s.model closing (.error fault) s'.model) := by
  have hrequest : s.request c.frame task.first.epoch = task.request c.frame s.builder task.states := by
    rw [Session.request, hsample, ho]
    rfl
  rw [ends_bind, ← hrequest]
  refine (ends_residuals_closed task.first.epoch point s).mono ?_ fun _ _ h => h
  rintro rest s₁ ⟨heval, o, m₁, model, hmade, hvalue⟩
  rw [ends_bind, ends_onPart]
  rcases hbuild : exec (Builder.build task.first.epoch point) s₁.builder with ⟨fault | p, b⟩
  · exact (ends_of_error hbuild).mpr ⟨heval, _, .built hmade hvalue hbuild⟩
  · exact (ends_of_ok hbuild).mpr ⟨heval, _, .built hmade hvalue hbuild⟩

/-- **The evaluations of a conversion are those of its phases.** -/
theorem ends_adapt_accounted (c : Converter α σ) (task : Task α) (s : Session α σ) :
    Ends (c.adapt task.first task.states task.onlyPosition task.names) s
      (fun p s' => Accounted c task s.model (.ok p) s')
      (fun fault s' => Accounted c task s.model (.error fault) s') := by
  unfold adapt
  rw [ends_bind, ends_modify]
  cases hguess : firstGuess? c.frame s.builder task.first task.names with
  | error fault =>
    refine (ends_of_error (exec_bind_error (by rw [exec_firstGuess, hguess]) _)).mpr ?_
    exact ⟨[], [], .unstarted (.inl hguess), rfl⟩
  | ok guess =>
    refine (ends_bind_of_ok (by rw [exec_firstGuess, hguess])).mpr ?_
    rw [ends_bind, ends_modify]
    generalize hs₀ : Session.report _ _ = s₀
    have hmodel : s₀.model = s.model := by rw [← hs₀]; rfl
    have ho : s₀.onlyPosition = task.onlyPosition := by rw [← hs₀]; rfl
    have heval : s₀.evaluations = 0 := by rw [← hs₀]; rfl
    have hbuilder : s₀.builder = s.builder := congrArg Prod.fst hmodel
    rw [← hmodel]
    rw [← hbuilder] at hguess
    -- the warm-up: its states have no targets, its fit fails, or there is a start for the refinement
    refine ends_phase_reported ?_ ?_ ?_
    · intro fault s₁ hfault hm he
      rw [ho] at hfault
      refine ⟨[], [], ?_, he.trans heval⟩
      rw [hm]
      exact .unstarted (.inr hfault)
    · intro warmUp fault s₁ h₁ hfailed
      refine ⟨[warmUp], [], .unwarmed (h₁.warmedUp ho hguess) hfailed, ?_⟩
      rw [h₁.evaluations, heval, Nat.zero_add]
      rfl
    · intro warmUp start s₁ h₁ hstart
      have hwarmed := h₁.warmedUp ho hguess
      have ho₁ : s₁.onlyPosition = task.onlyPosition := h₁.onlyPosition.trans ho
      have heval₁ : s₁.evaluations = warmUp.evaluations := by rw [h₁.evaluations, heval, Nat.zero_add]
      -- the refinement, with the same three ends
      refine ends_phase_reported ?_ ?_ ?_
      · intro fault s₂ hfault hm he
        rw [ho₁] at hfault
        refine ⟨[warmUp], [], ?_, he.trans heval₁⟩
        rw [hm]
        exact .unprepared hwarmed hstart hfault
      · intro refinement fault s₂ h₂ hfailed
        refine ⟨[warmUp, refinement], [], .unrefined hwarmed hstart (h₂.refined ho₁) hfailed, ?_⟩
        rw [h₂.evaluations, heval₁]
        rfl
      · intro refinement optimum s₂ h₂ hok
        have heval₂ : s₂.evaluations = ([warmUp, refinement].map PhaseReport.evaluations).sum := by
          rw [h₂.evaluations, heval₁]
          rfl
        -- behind both phases the count stands still, whether the last look succeeds or not
        refine (ends_close c task optimum.point h₂.sample (h₂.onlyPosition.trans ho₁)).mono ?_ ?_
        · rintro p s₃ ⟨he, closing, hclosed⟩
          exact ⟨_, closing, .closed hwarmed hstart (h₂.refined ho₁) hok hclosed, he.trans heval₂⟩
        · rintro fault s₃ ⟨he, closing, hclosed⟩
          exact ⟨_, closing, .closed hwarmed hstart (h₂.refined ho₁) hok hclosed, he.trans heval₂⟩

end Converter

end Conversion

/-! ## What the objectives hear -/

section Heard

variable {α σ : Type}

/-- The objectives of a converter, and nothing else, write a history of what they are asked into its world. -/
structure Converter.Keeps (c : Converter α σ) (heard : σ → List (Exchange α)) : Prop where
  made : ∀ q m, heard (exec (c.objective q) m).2.2 = heard m.2
  asked : ∀ p w, heard (c.optimizer p w).2 = heard w
  objective : ∀ q m o m', exec (c.objective q) m = (.ok o, m') → o.Keeps fun m => heard m.2

/-- An objective on a part of a state as an objective on the whole. -/
def Objective.onPart {τ : Type} (read : τ → σ) (write : σ → τ → τ) (o : Objective α σ) : Objective α τ where
  value point := (o.value point).onPart read write
  jacobian := o.jacobian.map fun derivatives point => (derivatives point).onPart read write

/-- The converter, with a history in its world. -/
def Converter.recorded (c : Converter α σ) : Converter α (σ × List (Exchange α)) where
  frame := c.frame
  settings := c.settings
  objective q := ofStep fun m =>
    let made := exec (c.objective q) (m.1, m.2.1)
    (made.1.map fun o => o.recorded.onPart (fun m => ((m.1, m.2.1), m.2.2)) fun m _ => (m.1.1, m.1.2, m.2),
      made.2.1, made.2.2, m.2.2)
  optimizer p := fun w => ((c.optimizer p w.1).1, (c.optimizer p w.1).2, w.2)

/-- Every converter can be given a history. -/
theorem Converter.keeps_recorded (c : Converter α σ) : c.recorded.Keeps Prod.snd where
  made _ _ := rfl
  asked _ _ := rfl
  objective q m o m' h := by
    obtain ⟨o, -, rfl⟩ := map_eq_ok_iff.mp (congrArg Prod.fst h)
    constructor
    · intro point m
      rfl
    · intro derivatives hd point m
      obtain ⟨noted, hn, rfl⟩ := Option.map_eq_some_iff.mp hd
      obtain ⟨d, -, rfl⟩ := Option.map_eq_some_iff.mp hn
      rfl

variable [Scalar α]

namespace Converter

variable {c : Converter α σ} {task : Task α} {m m' : Builder α × σ} {phases : List (PhaseReport α)}
  {closing : List (Exchange α)} {result : Except (Fault α) (AnalyticPropagator α)} {heard : σ → List (Exchange α)}

theorem Ran.history {report : PhaseReport α} (h : Ran c report m m') (hc : c.Keeps heard) :
    heard m'.2 = heard m.2 ++ report.exchanges := by
  cases h with
  | @unmade q guess fault m m' made =>
    have hmade := hc.made q m
    rw [made] at hmade
    rw [List.append_nil]
    exact hmade
  | @run q guess m m₁ o t run w made targets asked =>
    have hmade := hc.made q m
    have hasked := hc.asked (c.problem t guess o) m₁.2
    rw [made] at hmade
    rw [asked] at hasked
    rw [run.heard_against o (m₁.1, w) (hc.objective q m o m₁ made), ← hmade, ← hasked]

omit [Scalar α] in
/-- A look at a new objective is written down. -/
theorem Keeps.looked (hc : c.Keeps heard) {q : ObjectiveRequest α} {o : Objective α (Builder α × σ)}
    {m₁ m₂ : Builder α × σ} {point : NdArray α} {answer : Except (Fault α) (NdArray α)}
    (made : exec (c.objective q) m = (.ok o, m₁)) (value : exec (o.value point) m₁ = (answer, m₂)) :
    heard m₂.2 = heard m.2 ++ [.value point answer] := by
  have hmade := hc.made q m
  have hvalue := (hc.objective q m o m₁ made).value point m₁
  rw [made] at hmade
  rw [value] at hvalue
  rw [hvalue, ← hmade]

omit [Scalar α] in
theorem Closed.history {q : ObjectiveRequest α} {point : NdArray α} (h : Closed c q point m closing result m')
    (hc : c.Keeps heard) : heard m'.2 = heard m.2 ++ closing := by
  cases h with
  | unmade made =>
    have hmade := hc.made q m
    rw [made] at hmade
    rw [List.append_nil]
    exact hmade
  | unanswered made value => exact hc.looked made value
  | unlike made value => exact hc.looked made value
  | built made value =>
    have hlooked := hc.looked made value
    exact hlooked

/-- **Nothing else is asked**: the objectives of a conversion hear the exchanges of its phases and what is asked behind
them. -/
theorem Converted.history (h : Converted c task m phases closing result m') (hc : c.Keeps heard) :
    heard m'.2 = heard m.2 ++ phases.flatMap PhaseReport.exchanges ++ closing := by
  cases h with
  | unstarted => simp
  | unwarmed warmed => simp [warmed.ran.history hc]
  | unprepared warmed => simp [warmed.ran.history hc]
  | unrefined warmed _ refined => simp [refined.ran.history hc, warmed.ran.history hc]
  | closed warmed _ refined _ closed => simp [closed.history hc, refined.ran.history hc, warmed.ran.history hc]

end Converter

end Heard

/-! ## Any call -/

section Calls

open Converter

variable {π α σ : Type} [Scalar α]

namespace Converter

variable {c : Converter α σ} {task : Task α} {m m' : Builder α × σ} {phases : List (PhaseReport α)}
  {closing : List (Exchange α)} {result : Except (Fault α) (AnalyticPropagator α)}

theorem Ran.evaluations_le {report : PhaseReport α} (h : Ran c report m m') (hc : c.BuiltIn) :
    (report.evaluations : ℤ) ≤ c.settings.maxIterations := by
  obtain ⟨hmax, solver, hoptimizer⟩ := hc
  cases h with
  | unmade made =>
    show ((0 : ℕ) : ℤ) ≤ _
    omega
  | @run q guess m m₁ o t run w made targets asked =>
    rw [hoptimizer] at asked
    obtain rfl : Optimizer.weighted solver _ _ (c.problem t guess o) = run := congrArg Prod.fst asked
    exact Optimizer.evaluations_weighted_le solver _ _ hmax o _

/-- A conversion has no phase, the warm-up, or the refinement behind it. -/
theorem Converted.phases_cases (h : Converted c task m phases closing result m') :
    phases = [] ∨ (∃ warmUp m₁, phases = [warmUp] ∧ WarmedUp c task warmUp m m₁) ∨
      ∃ warmUp refinement start m₁ m₂, phases = [warmUp, refinement] ∧ WarmedUp c task warmUp m m₁ ∧
        warmUp.outcome = .ok start ∧ Refined c task start refinement m₁ m₂ := by
  cases h with
  | unstarted => exact .inl rfl
  | unwarmed warmed => exact .inr (.inl ⟨_, _, rfl, warmed⟩)
  | unprepared warmed => exact .inr (.inl ⟨_, _, rfl, warmed⟩)
  | unrefined warmed warm refined => exact .inr (.inr ⟨_, _, _, _, _, rfl, warmed, warm, refined⟩)
  | closed warmed warm refined => exact .inr (.inr ⟨_, _, _, _, _, rfl, warmed, warm, refined⟩)

theorem Converted.states_warmUp {warmUp : PhaseReport α} {later : List (PhaseReport α)}
    (h : Converted c task m (warmUp :: later) closing result m') :
    warmUp.request.states = task.states.take (if task.onlyPosition then 2 else 1) := by
  obtain hnone | ⟨first, m₁, hphases, warmed⟩ | ⟨first, second, start, m₁, m₂, hphases, warmed, -⟩ := h.phases_cases
  · cases hnone
  · cases hphases
    rw [warmed.request]
    rfl
  · cases hphases
    rw [warmed.request]
    rfl

theorem Converted.refinement {warmUp refinement : PhaseReport α} {later : List (PhaseReport α)}
    (h : Converted c task m (warmUp :: refinement :: later) closing result m') :
    later = [] ∧ refinement.request.states = task.states ∧
      ∃ start, warmUp.outcome = .ok start ∧ refinement.guess = start.point := by
  obtain hnone | ⟨first, m₁, hphases, -⟩ | ⟨first, second, start, m₁, m₂, hphases, -, warm, refined⟩ := h.phases_cases
  · cases hnone
  · cases hphases
  · cases hphases
    exact ⟨rfl, by rw [refined.request]; rfl, start, warm, refined.guess⟩

/-- The optimizer of the library keeps each phase to its limit, and so the conversion to twice the limit. -/
theorem Converted.evaluations_le (h : Converted c task m phases closing result m') (hc : c.BuiltIn) :
    (∀ phase ∈ phases, (phase.evaluations : ℤ) ≤ c.settings.maxIterations) ∧
      ((phases.map PhaseReport.evaluations).sum : ℤ) ≤ 2 * c.settings.maxIterations := by
  have hmax := hc.one_le
  obtain rfl | ⟨warmUp, m₁, rfl, warmed⟩ | ⟨warmUp, refinement, start, m₁, m₂, rfl, warmed, -, refined⟩ :=
    h.phases_cases
  · refine ⟨nofun, ?_⟩
    rw [List.map_nil, List.sum_nil]
    omega
  · have hw := warmed.ran.evaluations_le hc
    refine ⟨by simpa using hw, ?_⟩
    simp only [List.map_cons, List.map_nil, List.sum_cons, List.sum_nil]
    omega
  · have hw := warmed.ran.evaluations_le hc
    have hr := refined.ran.evaluations_le hc
    refine ⟨by simpa using ⟨hw, hr⟩, ?_⟩
    simp only [List.map_cons, List.map_nil, List.sum_cons, List.sum_nil]
    omega

/-- A conversion that succeeds has looked at its model once more. -/
theorem Converted.of_ok {p : AnalyticPropagator α} (h : Converted c task m phases closing (.ok p) m') :
    ∃ warmUp refinement optimum model m₂, phases = [warmUp, refinement] ∧ refinement.outcome = .ok optimum ∧
      closing = [.value optimum.point (.ok model)] ∧
      Closed c (task.request c.frame m₂.1 task.states) optimum.point m₂ closing (.ok p) m' := by
  cases h with
  | @closed _ _ _ _ _ m₂ _ _ _ _ _ _ fine closed =>
    cases closed with
    | built made value build => exact ⟨_, _, _, _, m₂, rfl, fine, rfl, .built made value build⟩

/-- What the phases of a conversion are, and what they ask for. -/
structure Accounts (c : Converter α σ) (task : Task α) (m : Builder α × σ) (phases : List (PhaseReport α))
    (closing : List (Exchange α)) (result : Except (Fault α) (AnalyticPropagator α)) (s' : Session α σ) : Prop where
  course : Converted c task m phases closing result s'.model
  evaluations : s'.evaluations = (phases.map PhaseReport.evaluations).sum
  warmUp : ∀ warmUp later, phases = warmUp :: later →
    warmUp.request.states = task.states.take (if task.onlyPosition then 2 else 1)
  refinement : ∀ warmUp refinement later, phases = warmUp :: refinement :: later →
    later = [] ∧ refinement.request.states = task.states ∧
      ∃ start, warmUp.outcome = .ok start ∧ refinement.guess = start.point
  further : ∀ p, result = .ok p → ∃ warmUp refinement optimum model m₂, phases = [warmUp, refinement] ∧
    refinement.outcome = .ok optimum ∧ closing = [.value optimum.point (.ok model)] ∧
    Closed c (task.request c.frame m₂.1 task.states) optimum.point m₂ closing (.ok p) s'.model
  /-- nothing else is asked -/
  history : ∀ heard, c.Keeps heard → heard s'.world = heard m.2 ++ phases.flatMap PhaseReport.exchanges ++ closing
  budget : c.BuiltIn → (∀ phase ∈ phases, (phase.evaluations : ℤ) ≤ c.settings.maxIterations) ∧
    (s'.evaluations : ℤ) ≤ 2 * c.settings.maxIterations

theorem Accounted.accounts {s' : Session α σ} (h : Accounted c task m result s') :
    ∃ phases closing, Accounts c task m phases closing result s' := by
  obtain ⟨phases, closing, course, evaluations⟩ := h
  refine ⟨phases, closing, course, evaluations, ?_, ?_, ?_, fun heard hc => course.history hc, ?_⟩
  · rintro warmUp later rfl
    exact course.states_warmUp
  · rintro warmUp refinement later rfl
    exact course.refinement
  · rintro p rfl
    exact course.of_ok
  · intro hc
    rw [evaluations]
    exact course.evaluations_le hc

variable {s : Session α σ}

theorem convertStates_accounted {states : List (OrbitState α)} {onlyPosition : Bool} {names : List String}
    (h : Task.ofStates? s.builder.available states onlyPosition names = some task) :
    ∃ b, s.builder.withFree task.names = .ok b ∧ Accounted c task (b, s.world)
      (exec (c.convertStates states onlyPosition names) s).1
      (exec (c.convertStates states onlyPosition names) s).2 := by
  obtain ⟨b, hb, he⟩ := exec_convertStates_of_some (c := c) h
  refine ⟨b, hb, ?_⟩
  rw [he]
  exact ends_iff_exec.mp (ends_adapt_accounted c task { s with freeParameters := task.names, builder := b })

end Converter

variable [Propagator π α]

/-- **The evaluations of a conversion** are the values that its optimizer asked for in the warm-up and in the
refinement, answered or not, and none of those before: for every call that passes the checks, every factory of
objectives and every optimizer. -/
theorem conversion_accounted (c : Converter α σ) (s : Session α σ) (call : Call π α) (task : Task α)
    (h : call.task? s.builder.available = some task) :
    ∃ b phases closing, s.builder.withFree task.names = .ok b ∧
      Accounts c task (b, s.world) phases closing (exec (c.call call) s).1 (exec (c.call call) s).2 := by
  cases call with
  | states states onlyPosition names =>
    obtain ⟨b, hb, haccounted⟩ := convertStates_accounted (c := c) h
    obtain ⟨phases, closing, haccounts⟩ := haccounted.accounts
    exact ⟨b, phases, closing, hb, haccounts⟩
  | trajectory source span points names =>
    rcases hs : Sample.take span points source with ⟨fault | sample, source'⟩
    · simp only [Call.task?, hs] at h
      cases h
    · simp only [Call.task?, hs] at h
      obtain ⟨-, -, -, hn, -⟩ := Task.ofStates?_eq_some h
      obtain ⟨b, hb, haccounted⟩ := convertStates_accounted (c := c)
        (s := s.report (.sampled sample.states.length sample.span sample.step)) h
      obtain ⟨phases, closing, haccounts⟩ := haccounted.accounts
      refine ⟨b, phases, closing, hb, ?_⟩
      rw [Converter.call, exec_onPart, exec_convert_of_mem hn, hs]
      exact haccounts

/-- An optimizer that looks once and gives up. -/
def lookingOnce : FitProblem ℝ → StateM Unit (Run ℝ (Optimum ℝ)) := fun p =>
  pure (.value p.guess fun _ => .done (.error .evaluationLimit))

/-- A converter with it. -/
noncomputable def impatient : Converter ℝ Unit := standard .eci ⟨1, 1, .forward⟩ lookingOnce

/-- A session with evaluations of an earlier conversion. -/
noncomputable def busy : Session ℝ Unit := { Session.start twoBody () with evaluations := 5 }

/-- A converter whose optimizer looks at the state over the poles once in each phase. -/
noncomputable def glancing : Converter ℝ Unit :=
  standard .eci ⟨1, 1, .forward⟩ (looking (NdArray.ofList [1, 0, 0, 0, 0, 1.25]))

/-- Two states are fitted with one look in each phase. -/
theorem exists_exec_glancing : ∃ p s', exec (glancing.call (asTheyAre [overPole, overPole])) busy = (.ok p, s') ∧
    s'.evaluations = 2 := by
  have htask : Task.ofStates? busy.builder.available [overPole, overPole] false [] =
    some ⟨overPole, [overPole], false, []⟩ := rfl
  obtain ⟨b, hb, he⟩ := exec_convertStates_of_some (c := glancing) htask
  obtain rfl : twoBody = b := Except.ok.inj hb
  obtain ⟨t, ht⟩ : ∃ t, Targets.ofStates [overPole, overPole] (.known .eci) false none = .ok t := ⟨_, rfl⟩
  have hmodel : Objective.components ⟨[overPole, overPole], .known .eci, false, 0, none⟩ ⟨.kepler, overPole, none⟩ =
      .ok (NdArray.ofList t.target) := by
    refine components_of_reached (List.cons_ne_nil _ _) (fun s hs => ?_) ht
    obtain rfl : s = overPole := by simpa using hs
    exact stateAt_overPole
  have hend : Ends (glancing.convertStates [overPole, overPole] false []) busy
      (fun p s' => p = ⟨.kepler, overPole, none⟩ ∧ s'.evaluations = 2) (fun _ _ => False) :=
    (ends_congr he).mpr (ends_adapt_of_staysAt staysAt_looking ⟨overPole, [overPole], false, []⟩ rfl rfl ht rfl
      hmodel (NdArray.shape_ofList _))
  rcases h : exec (glancing.convertStates [overPole, overPole] false []) busy with ⟨fault | p, s'⟩
  · exact (hend.of_error h).elim
  · exact ⟨p, s', h, (hend.of_ok h).2⟩

/-- The warm-up fails at its first value, which is counted, and nothing else is.  A conversion that succeeds has two
phases with a value each, the first of them for the first state only, and one further look that is not counted; the
five evaluations from before are gone. -/
theorem conversion_accounted_overPole :
    ((exec (impatient.call (asTheyAre [overPole])) busy).2.evaluations = 1 ∧
      ∃ b phases closing, Accounts impatient ⟨overPole, [], false, []⟩ (b, ()) phases closing
        (exec (impatient.call (asTheyAre [overPole])) busy).1 (exec (impatient.call (asTheyAre [overPole])) busy).2 ∧
        (phases.map PhaseReport.evaluations).sum = 1) ∧
    ∃ p s', exec (glancing.call (asTheyAre [overPole, overPole])) busy = (.ok p, s') ∧ s'.evaluations = 2 ∧
      ∃ b warmUp refinement point model, Accounts glancing ⟨overPole, [overPole], false, []⟩ (b, ())
          [warmUp, refinement] [.value point (.ok model)] (.ok p) s' ∧
        warmUp.request.states = [overPole] ∧ refinement.request.states = [overPole, overPole] ∧
        warmUp.evaluations + refinement.evaluations = 2 := by
  constructor
  · have hone : (exec (impatient.call (asTheyAre [overPole])) busy).2.evaluations = 1 := rfl
    obtain ⟨b, phases, closing, -, haccounts⟩ :=
      conversion_accounted impatient busy (asTheyAre [overPole]) ⟨overPole, [], false, []⟩ rfl
    exact ⟨hone, b, phases, closing, haccounts, haccounts.evaluations.symm.trans hone⟩
  · obtain ⟨p, s', hexec, htwo⟩ := exists_exec_glancing
    obtain ⟨b, phases, closing, -, haccounts⟩ :=
      conversion_accounted glancing busy (asTheyAre [overPole, overPole]) ⟨overPole, [overPole], false, []⟩ rfl
    rw [hexec] at haccounts
    obtain ⟨warmUp, refinement, optimum, model, m₂, rfl, -, rfl, -⟩ := haccounts.further p rfl
    obtain ⟨-, hall, -⟩ := haccounts.refinement warmUp refinement [] rfl
    refine ⟨p, s', hexec, htwo, b, warmUp, refinement, optimum.point, model, haccounts,
      haccounts.warmUp warmUp [refinement] rfl, hall, ?_⟩
    rw [← htwo, haccounts.evaluations]
    rfl

end Calls

end OrbitFit
