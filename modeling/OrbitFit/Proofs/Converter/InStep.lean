import OrbitFit.Proofs.Converter.Upkeep
import OrbitFit.Proofs.Frame.Conversion

/-!
# OrbitFit.Proofs.Converter.InStep — when the sample and the targets are in step

A session shows a sample, and as many target components as the sample has if the two are in step.  A conversion says
whether it fits positions only before it has a first guess, and replaces the sample before it has the targets of the
new one.  Where it fails in between, the old targets stay beside what is new: the conversion strays
(`Converter.Strays`).

* `spares_level`: neither a phase nor the end of a conversion touches the two.
* `ends_adapt_inStep`: a conversion leaves them in step unless it strays.
* `inStep_afterCalls`: so they are in step unless the last task strayed.
* `inStep_of_seen`: over states that can be converted to the frame of the fit, no task strays.
-/

namespace OrbitFit

open OrbitFit.Action Builder Converter

/-! ## Being in step -/

section Definitions

variable {π α σ : Type}

/-- The target has the components of the sample, as many for each state as are fitted. -/
def Session.InStep (s : Session α σ) : Prop :=
  s.targets.target.length = rowWidth s.onlyPosition * s.sample.length

variable [Scalar α]

/-- From a sample, its targets, a builder and a world, the conversion of a task leaves sample and targets that are not
in step. -/
inductive Converter.Strays (c : Converter α σ) (task : Task α) (sample : List (OrbitState α)) (targets : Targets α)
    (m : Builder α × σ) : Prop
  /-- there is no first guess, and the sample stays as it was with what it is fitted by -/
  | unguessed {fault : Fault α} (cause : firstGuess? c.frame m.1 task.first task.names = .error fault)
      (apart : targets.target.length ≠ rowWidth task.onlyPosition * sample.length)
  /-- the first states, which are the sample by then, have no targets -/
  | unstarted {guess : NdArray α} {fault : Fault α}
      (guessed : firstGuess? c.frame m.1 task.first task.names = .ok guess)
      (cause : task.targets? c.frame m.1 task.firstStates = .error fault)
      (apart : targets.target.length ≠ rowWidth task.onlyPosition * task.firstStates.length)
  /-- behind the warm-up, all states, which are the sample by then, have no targets -/
  | unprepared {warmUp : PhaseReport α} {start : Optimum α} {fault : Fault α} {m₁ : Builder α × σ}
      (warmed : WarmedUp c task warmUp m m₁) (warm : warmUp.outcome = .ok start)
      (cause : task.targets? c.frame m₁.1 task.states = .error fault)
      (apart : task.firstStates.length ≠ task.states.length)

variable [Propagator π α]

/-- The last of some calls that is a task strays. -/
inductive Converter.Strayed (c : Converter α σ) (s : Session α σ) : List (Call π α) → Prop
  | last {calls : List (Call π α)} {call : Call π α} {task : Task α} {b : Builder α}
      (given : call.task? (c.afterCalls s calls).builder.available = some task)
      (freed : (c.afterCalls s calls).builder.withFree task.names = .ok b)
      (strays : c.Strays task (c.afterCalls s calls).sample (c.afterCalls s calls).targets
        (b, (c.afterCalls s calls).world)) : Strayed c s (calls ++ [call])
  | earlier {calls : List (Call π α)} {call : Call π α} (strayed : Strayed c s calls)
      (turnedAway : call.task? (c.afterCalls s calls).builder.available = none) : Strayed c s (calls ++ [call])

end Definitions

/-! ## What a phase does not touch -/

section Level

variable {α σ : Type}

/-- Sessions with the same sample, targets and choice of components. -/
structure Session.Level (s s' : Session α σ) : Prop where
  sample : s'.sample = s.sample
  targets : s'.targets = s.targets
  onlyPosition : s'.onlyPosition = s.onlyPosition

namespace Session

variable {s s' : Session α σ}

theorem Level.refl (s : Session α σ) : s.Level s := ⟨rfl, rfl, rfl⟩

theorem Level.inStep_iff (h : s.Level s') : s'.InStep ↔ s.InStep := by
  unfold InStep
  rw [h.sample, h.targets, h.onlyPosition]

end Session

/-- No phase touches the sample or the targets. -/
theorem Converter.spares_level (c : Converter α σ) (s : Session α σ) : c.Spares s.Level where
  made _ _ h := ⟨h.sample, h.targets, h.onlyPosition⟩
  value _ _ _ _ h := ⟨h.sample, h.targets, h.onlyPosition⟩
  jacobian _ _ _ _ _ _ h := ⟨h.sample, h.targets, h.onlyPosition⟩
  asked _ _ h := ⟨h.sample, h.targets, h.onlyPosition⟩
  built _ _ _ h := ⟨h.sample, h.targets, h.onlyPosition⟩
  noted _ _ _ _ h := ⟨h.sample, h.targets, h.onlyPosition⟩

end Level

/-! ## One conversion -/

section Conversion

variable {α σ : Type} [Scalar α]

namespace Converter

variable {c : Converter α σ} {task : Task α} {m m₁ m₂ : Builder α × σ}

/-- A phase is determined by what it is for and by where it starts. -/
theorem Ran.unique {report report' : PhaseReport α} (h : Ran c report m m₁) (h' : Ran c report' m m₂)
    (hrequest : report.request = report'.request) (hguess : report.guess = report'.guess) :
    report = report' ∧ m₁ = m₂ := by
  -- making the objective is one action, so it cannot both fail and succeed
  cases h with
  | unmade made =>
    cases h' with
    | unmade made' =>
      subst hrequest hguess
      cases made.symm.trans made'
      exact ⟨rfl, rfl⟩
    | run made' =>
      subst hrequest
      cases made.symm.trans made'
  | run made targets asked =>
    cases h' with
    | unmade made' =>
      subst hrequest
      cases made.symm.trans made'
    | run made' targets' asked' =>
      subst hrequest hguess
      cases made.symm.trans made'
      cases targets.symm.trans targets'
      cases asked.symm.trans asked'
      exact ⟨rfl, rfl⟩

theorem WarmedUp.unique {warmUp warmUp' : PhaseReport α} (h : WarmedUp c task warmUp m m₁)
    (h' : WarmedUp c task warmUp' m m₂) : warmUp = warmUp' ∧ m₁ = m₂ :=
  h.ran.unique h'.ran (h.request.trans h'.request.symm) (Except.ok.inj (h.guess.symm.trans h'.guess))

/-- A warm-up has targets. -/
theorem Ran.targets {report : PhaseReport α} (h : Ran c report m m₁) {optimum : Optimum α}
    (hok : report.outcome = .ok optimum) : ∃ t, Targets.ofStates report.request.states report.request.frame
      report.request.onlyPosition report.request.eop = .ok t := by
  cases h with
  | unmade made => cases hok
  | run made targets asked => exact ⟨_, targets⟩

section Ends

variable {sample : List (OrbitState α)} {targets : Targets α}

theorem strays_iff_of_unguessed {fault : Fault α} (h : firstGuess? c.frame m.1 task.first task.names = .error fault) :
    c.Strays task sample targets m ↔ targets.target.length ≠ rowWidth task.onlyPosition * sample.length := by
  constructor
  · intro hs
    cases hs with
    | unguessed cause apart => exact apart
    | unstarted guessed cause apart => cases h.symm.trans guessed
    | unprepared warmed warm cause apart => cases h.symm.trans warmed.guess
  · exact .unguessed h

theorem strays_iff_of_unstarted {guess : NdArray α} {fault : Fault α}
    (hguess : firstGuess? c.frame m.1 task.first task.names = .ok guess)
    (h : task.targets? c.frame m.1 task.firstStates = .error fault) : c.Strays task sample targets m ↔
      targets.target.length ≠ rowWidth task.onlyPosition * task.firstStates.length := by
  constructor
  · intro hs
    cases hs with
    | unguessed cause apart => cases hguess.symm.trans cause
    | unstarted guessed cause apart => exact apart
    | unprepared warmed warm cause apart =>
      obtain ⟨t, ht⟩ := warmed.ran.targets warm
      rw [warmed.request] at ht
      cases h.symm.trans ht
  · exact .unstarted hguess h

theorem not_strays_of_unwarmed {warmUp : PhaseReport α} {fault : Fault α} (hwarmed : WarmedUp c task warmUp m m₁)
    (hfirst : ∃ t, task.targets? c.frame m.1 task.firstStates = .ok t) (hfailed : warmUp.outcome = .error fault) :
    ¬ c.Strays task sample targets m := by
  obtain ⟨t, ht⟩ := hfirst
  intro hs
  cases hs with
  | unguessed cause apart => cases hwarmed.guess.symm.trans cause
  | unstarted guessed cause apart => cases ht.symm.trans cause
  | unprepared warmed warm cause apart =>
    obtain ⟨rfl, -⟩ := hwarmed.unique warmed
    cases hfailed.symm.trans warm

theorem strays_iff_of_warmedUp {warmUp : PhaseReport α} {start : Optimum α} (hwarmed : WarmedUp c task warmUp m m₁)
    (hok : warmUp.outcome = .ok start) : c.Strays task sample targets m ↔
      (∃ fault, task.targets? c.frame m₁.1 task.states = .error fault) ∧
        task.firstStates.length ≠ task.states.length := by
  constructor
  · intro hs
    cases hs with
    | unguessed cause apart => cases hwarmed.guess.symm.trans cause
    | unstarted guessed cause apart =>
      obtain ⟨t, ht⟩ := hwarmed.ran.targets hok
      rw [hwarmed.request] at ht
      cases ht.symm.trans cause
    | unprepared warmed warm cause apart =>
      obtain ⟨rfl, rfl⟩ := hwarmed.unique warmed
      exact ⟨⟨_, cause⟩, apart⟩
  · rintro ⟨⟨fault, cause⟩, apart⟩
    exact .unprepared hwarmed hok cause apart

end Ends

variable {s : Session α σ} {frame : Frame} {states : List (OrbitState α)}

/-- States without targets are the sample all the same. -/
theorem exec_setSample_of_error {fault : Fault α}
    (h : Targets.ofStates states (.known c.frame) s.onlyPosition s.builder.eop = .error fault) :
    exec (c.setSample states) s = (.error fault, { s with sample := states }) := by
  rw [setSample, exec_bind_ok (exec_modify _ _), exec_bind_ok (exec_get _), h]
  rfl

theorem inStep_of_sampled (h : s.Sampled frame states) : s.InStep := by
  rw [Session.InStep, length_target _ _ _ h.targets, Nat.mul_comm]

omit [Scalar α] in
/-- States that replace a sample are in step with its targets if they are as many. -/
theorem inStep_replaced_iff (h : s.InStep) (states : List (OrbitState α)) :
    ({ s with sample := states } : Session α σ).InStep ↔ s.sample.length = states.length := by
  have hwidth : 0 < rowWidth s.onlyPosition := by
    unfold rowWidth
    split_ifs <;> decide
  show s.targets.target.length = rowWidth s.onlyPosition * states.length ↔ _
  rw [h, Nat.mul_right_inj (Nat.ne_of_gt hwidth)]

/-- Behind the warm-up, a conversion fails out of step only if there are more states, and no targets for them. -/
theorem ends_warm_inStep (c : Converter α σ) (task : Task α) (rough : NdArray α) {s : Session α σ} (hstep : s.InStep)
    (hsample : s.sample = task.firstStates) (ho : s.onlyPosition = task.onlyPosition) :
    Ends (do
      c.setSample task.states
      let point ← c.fit task.first.epoch .refinement rough
      let rms := Targets.rootMeanSquare (← c.residuals task.first.epoch point).data
      let propagator ← (Builder.build task.first.epoch point).onPart Session.builder fun b s => { s with builder := b }
      modify fun s => { s with result := some ⟨propagator, rms, s.evaluations, point⟩ }
      modify fun s => s.report (.converted rms s.evaluations)
      return propagator) s
      (fun _ s' => s'.InStep ∧ ∃ t, task.targets? c.frame s.builder task.states = .ok t)
      (fun _ s' => s'.InStep ↔ ¬((∃ fault, task.targets? c.frame s.builder task.states = .error fault) ∧
        task.firstStates.length ≠ task.states.length)) := by
  cases hall : task.targets? c.frame s.builder task.states with
  | error fault =>
    have hset := exec_setSample_of_error (c := c) (s := s) (by rw [ho]; exact hall)
    rw [ends_of_error (exec_bind_error hset _), inStep_replaced_iff hstep, hsample, not_and_not_right]
    exact ⟨fun h _ => h, fun h => h ⟨fault, rfl⟩⟩
  | ok t =>
    have hset := exec_setSample (c := c) (s := s) (by rw [ho]; exact hall)
    have hlast : Session.InStep { s with sample := task.states, targets := t } :=
      inStep_of_sampled ⟨rfl, by dsimp only; rw [ho]; exact hall⟩
    rw [ends_bind_of_ok hset]
    have hspares := c.spares_level { s with sample := task.states, targets := t }
    refine Ends.mono ((hspares.ends_fit (.refl _) _ .refinement rough).bind fun point s₁ h₁ =>
      hspares.ends_close h₁ _ point) ?_ ?_
    · intro p s' h
      exact ⟨h.inStep_iff.mpr hlast, t, rfl⟩
    · intro fault s' h
      refine iff_of_true (h.inStep_iff.mpr hlast) ?_
      rintro ⟨⟨_, ⟨⟩⟩, -⟩

/-- **A conversion** that has its parameters free leaves the sample and the targets in step unless it strays, which one
that succeeds does not. -/
theorem ends_adapt_inStep (c : Converter α σ) (task : Task α) (s : Session α σ) :
    Ends (c.adapt task.first task.states task.onlyPosition task.names) s
      (fun _ s' => s'.InStep ∧ ¬ c.Strays task s.sample s.targets s.model)
      (fun _ s' => s'.InStep ↔ ¬ c.Strays task s.sample s.targets s.model) := by
  unfold adapt
  rw [ends_bind, ends_modify]
  -- the four ends of a conversion in turn, each with its own form of straying
  cases hguess : firstGuess? c.frame s.builder task.first task.names with
  | error fault =>
    refine (ends_of_error (exec_bind_error (by rw [exec_firstGuess, hguess]) _)).mpr ?_
    rw [strays_iff_of_unguessed hguess, not_not]
    rfl
  | ok guess =>
    refine (ends_bind_of_ok (by rw [exec_firstGuess, hguess])).mpr ?_
    rw [ends_bind, ends_modify]
    cases hfirst : task.targets? c.frame s.builder task.firstStates with
    | error fault =>
      refine (ends_of_error (exec_bind_error (by exact exec_setSample_of_error hfirst) _)).mpr ?_
      rw [strays_iff_of_unstarted hguess hfirst, not_not]
      rfl
    | ok t =>
      refine (ends_bind_of_ok (by exact exec_setSample hfirst)).mpr ?_
      generalize hs₁ : ({ Session.report _ _ with sample := _, targets := _ } : Session α σ) = s₁
      have hmodel : s₁.model = s.model := by rw [← hs₁]; rfl
      have hbuilder : s₁.builder = s.builder := congrArg Prod.fst hmodel
      have ho : s₁.onlyPosition = task.onlyPosition := by rw [← hs₁]; rfl
      have hsampled : s₁.Sampled c.frame task.firstStates := by rw [← hs₁]; exact ⟨rfl, hfirst⟩
      have hstep : s₁.InStep := inStep_of_sampled hsampled
      rw [← hmodel]
      rw [← hbuilder] at hguess hfirst
      -- the fit is followed twice at once: for what it reports, and for what it leaves alone
      refine ends_bind.mpr (((ends_fit_reported hsampled task.first.epoch .warmUp guess).and
        ((c.spares_level s₁).ends_fit (.refl s₁) task.first.epoch .warmUp guess)).mono ?_ ?_)
      · rintro rough s₂ ⟨⟨warmUp, start, h₂, hok, rfl⟩, hlevel⟩
        have hstrays : c.Strays task s.sample s.targets s₁.model ↔ _ :=
          strays_iff_of_warmedUp (h₂.warmedUp ho hguess) hok
        refine (ends_warm_inStep c task start.point (hlevel.inStep_iff.mpr hstep) h₂.sample
          (hlevel.onlyPosition.trans ho)).mono ?_ ?_
        · rintro p s' ⟨hin, t, ht⟩
          refine ⟨hin, fun h => ?_⟩
          obtain ⟨⟨fault, hfault⟩, -⟩ := hstrays.mp h
          cases ht.symm.trans hfault
        · intro fault s' h
          rw [h, hstrays]
          rfl
      · rintro fault s₂ ⟨⟨warmUp, h₂, hfailed⟩, hlevel⟩
        exact iff_of_true (hlevel.inStep_iff.mpr hstep)
          (not_strays_of_unwarmed (h₂.warmedUp ho hguess) ⟨t, hfirst⟩ hfailed)

end Converter

end Conversion

/-! ## Any calls -/

section Calls

open Session

variable {π α σ : Type} [Scalar α] [Propagator π α]

namespace Converter

variable {c : Converter α σ} {s : Session α σ} {calls : List (Call π α)} {call : Call π α} {task : Task α}
  {b : Builder α}

theorem not_strayed_nil : ¬ c.Strayed s ([] : List (Call π α)) := by
  intro h
  generalize hcalls : ([] : List (Call π α)) = calls at h
  cases h with
  | last => simp at hcalls
  | earlier => simp at hcalls

/-- Calls stray by the last of them, or by those before it if it is turned away. -/
theorem Strayed.concat_cases (h : c.Strayed s (calls ++ [call])) :
    (∃ task b, call.task? (c.afterCalls s calls).builder.available = some task ∧
      (c.afterCalls s calls).builder.withFree task.names = .ok b ∧
      c.Strays task (c.afterCalls s calls).sample (c.afterCalls s calls).targets (b, (c.afterCalls s calls).world)) ∨
    (call.task? (c.afterCalls s calls).builder.available = none ∧ c.Strayed s calls) := by
  -- the calls are a variable for the case split, their last one comes back by injectivity
  generalize hcalls : calls ++ [call] = calls' at h
  cases h with
  | last given freed strays =>
    obtain ⟨rfl, hcall⟩ := List.append_inj' hcalls rfl
    obtain rfl := List.singleton_inj.mp hcall
    exact .inl ⟨_, _, given, freed, strays⟩
  | earlier strayed turnedAway =>
    obtain ⟨rfl, hcall⟩ := List.append_inj' hcalls rfl
    obtain rfl := List.singleton_inj.mp hcall
    exact .inr ⟨turnedAway, strayed⟩

theorem strayed_concat_of_none (h : call.task? (c.afterCalls s calls).builder.available = none) :
    c.Strayed s (calls ++ [call]) ↔ c.Strayed s calls := by
  refine ⟨fun hs => ?_, fun hs => .earlier hs h⟩
  obtain ⟨task, b, given, -⟩ | ⟨-, hs⟩ := hs.concat_cases
  · cases h.symm.trans given
  · exact hs

theorem strayed_concat_of_some (h : call.task? (c.afterCalls s calls).builder.available = some task)
    (hb : (c.afterCalls s calls).builder.withFree task.names = .ok b) : c.Strayed s (calls ++ [call]) ↔
      c.Strays task (c.afterCalls s calls).sample (c.afterCalls s calls).targets
        (b, (c.afterCalls s calls).world) := by
  refine ⟨fun hs => ?_, fun hs => .last h hb hs⟩
  obtain ⟨task', b', given, freed, strays⟩ | ⟨turnedAway, -⟩ := hs.concat_cases
  · obtain rfl := Option.some.inj (h.symm.trans given)
    obtain rfl := Except.ok.inj (hb.symm.trans freed)
    exact strays
  · cases h.symm.trans turnedAway

/-- A call that is a task leaves sample and targets in step unless it strays. -/
theorem ends_call_inStep (h : call.task? s.builder.available = some task) :
    ∃ b, s.builder.withFree task.names = .ok b ∧ Ends (c.call call) s
      (fun _ s' => s'.InStep ∧ ¬ c.Strays task s.sample s.targets (b, s.world))
      (fun _ s' => s'.InStep ↔ ¬ c.Strays task s.sample s.targets (b, s.world)) := by
  obtain ⟨b, journal, hb, he⟩ := exec_call_of_some (c := c) h
  exact ⟨b, hb, (ends_congr he).mpr (ends_adapt_inStep c task _)⟩

theorem inStep_call_iff (h : call.task? s.builder.available = some task)
    (hb : s.builder.withFree task.names = .ok b) : (exec (c.call call) s).2.InStep ↔
      ¬ c.Strays task s.sample s.targets (b, s.world) := by
  obtain ⟨b', hb', hend⟩ := ends_call_inStep (c := c) h
  obtain rfl := Except.ok.inj (hb.symm.trans hb')
  rcases he : exec (c.call call) s with ⟨fault | p, s'⟩
  · exact hend.of_error he
  · obtain ⟨hin, hstrays⟩ := hend.of_ok he
    exact iff_of_true hin hstrays

end Converter

variable (c : Converter α σ) (b : Builder α) (world : σ)

/-- **The sample and the targets are in step unless the last task strayed**: for every factory of objectives, every
optimizer and any calls, whether they succeed, fail or are turned away; and behind a call that succeeds they always
are. -/
theorem inStep_afterCalls (calls : List (Call π α)) :
    ((c.afterCalls (start b world) calls).InStep ↔ ¬ c.Strayed (start b world) calls) ∧
      ∀ (call : Call π α) (p : AnalyticPropagator α) (s' : Session α σ),
        exec (c.call call) (c.afterCalls (start b world) calls) = (.ok p, s') → s'.InStep := by
  constructor
  · induction calls using List.reverseRecOn with
    | nil => exact iff_of_true rfl not_strayed_nil
    | append_singleton calls call ih =>
      rw [afterCalls_concat]
      cases htask : call.task? (c.afterCalls (start b world) calls).builder.available with
      | none =>
        obtain ⟨fault, journal, he⟩ := exec_call_of_none (c := c) htask
        rw [strayed_concat_of_none htask, ← ih, he]
        rfl
      | some task =>
        obtain ⟨b', hb', -⟩ := ends_call_inStep (c := c) htask
        rw [strayed_concat_of_some htask hb', inStep_call_iff htask hb']
  · intro call p s' he
    cases htask : call.task? (c.afterCalls (start b world) calls).builder.available with
    | none =>
      obtain ⟨fault, journal, hfault⟩ := exec_call_of_none (c := c) htask
      cases hfault.symm.trans he
    | some task =>
      obtain ⟨b', -, hend⟩ := ends_call_inStep (c := c) htask
      exact (hend.of_ok he).1

end Calls

/-! ## States that can be seen -/

section Seen

open Session

variable {π α σ : Type} [Scalar α]

namespace Converter

variable {frame : Frame} {settings : FitSettings α} {optimizer : FitProblem α → StateM σ (Run α (Optimum α))}
  {m m' : Builder α × σ}

/-- A phase that propagates only evaluates. -/
theorem Ran.evaluated {report : PhaseReport α} (h : Ran (standard frame settings optimizer) report m m') :
    Evaluated m.1 m'.1 := by
  cases h with
  | unmade made => cases made
  | @run q guess m m₁ o t run w made targets asked =>
    obtain rfl : m = m₁ := congrArg Prod.snd made
    obtain rfl := Except.ok.inj (congrArg Prod.fst made)
    obtain ⟨b', hb, he⟩ := Run.evaluated_against q run m.1 w
    rw [he]
    exact hb

/-- States that can be seen in the frame of the fit have targets, whatever evaluations do to the builder. -/
theorem not_strays_of_seen {task : Task α} {sample : List (OrbitState α)} {targets : Targets α}
    (hvalues : ∀ name ∈ task.names, ∃ x, m.1.value name = .ok x)
    (hseen : ∀ t ∈ task.states, ∃ rv, t.positionVelocity frame m.1.eop = .ok rv) :
    ¬ (standard frame settings optimizer).Strays task sample targets m := by
  intro hs
  cases hs with
  | unguessed cause apart =>
    obtain ⟨rv, hrv⟩ := hseen task.first List.mem_cons_self
    obtain ⟨values, hv⟩ := exists_mapM_iff.mpr hvalues
    rw [firstGuess?] at cause
    change task.first.positionVelocity frame m.1.eop >>= _ = _ at cause
    rw [hrv] at cause
    change task.names.mapM m.1.value >>= _ = _ at cause
    rw [hv] at cause
    cases cause
  | unstarted guessed cause apart =>
    have hne : task.firstStates ≠ [] := by
      unfold Task.firstStates minimumStates
      split_ifs <;> simp [Task.states]
    obtain ⟨t, ht⟩ := exists_ofStates (.known frame) task.onlyPosition m.1.eop hne fun t ht =>
      hseen t (List.mem_of_mem_take ht)
    cases ht.symm.trans cause
  | unprepared warmed warm cause apart =>
    rw [← warmed.ran.evaluated.eop_eq] at hseen
    obtain ⟨t, ht⟩ := exists_ofStates (.known frame) task.onlyPosition _ (List.cons_ne_nil _ _) hseen
    cases ht.symm.trans cause

end Converter

/-- **Sample and targets never part over states that can be seen** in the frame of the builder: for either model, by any
optimizer that fits propagators, and after any calls. -/
theorem inStep_of_seen [Propagator π α] {b : Builder α} (hb : b.Sound) (world : σ) (settings : FitSettings α)
    (optimizer : FitProblem α → StateM σ (Run α (Optimum α))) (calls : List (Call π α))
    (hseen : ∀ call ∈ calls, ∀ task, call.task? b.available = some task →
      ∀ t ∈ task.states, ∃ rv, t.positionVelocity b.frame b.eop = .ok rv) :
    (reached b world settings optimizer calls).InStep := by
  induction calls using List.reverseRecOn with
  | nil => rfl
  | append_singleton calls call ih =>
    have halike : Alike b (reached b world settings optimizer calls).builder := alike_reached world calls
    have hsound : (reached b world settings optimizer calls).builder.Sound :=
      hb.reaches ((operates_standard b.frame settings optimizer).reaches_afterCalls (start b world) calls)
    rw [reached_concat]
    cases htask : call.task? (reached b world settings optimizer calls).builder.available with
    | none =>
      obtain ⟨fault, journal, he⟩ := exec_call_of_none (c := standard b.frame settings optimizer) htask
      rw [he]
      exact ih fun call hcall => hseen call (List.mem_append_left _ hcall)
    | some task =>
      obtain ⟨b', hb', -⟩ := ends_call_inStep (c := standard b.frame settings optimizer) htask
      have hfreed := alike_of_withFree hb'
      have hnames := (withFree_eq_ok_iff.mp hb').1
      rw [inStep_call_iff htask hb']
      refine not_strays_of_seen (fun name hn => ?_) ?_
      · refine (hsound.withFree hb').exists_value name ?_
        rw [hfreed.available]
        exact hnames name hn
      · rw [halike.available] at htask
        rw [hfreed.eop, halike.eop]
        exact hseen call (by simp) task htask

end Seen

/-! ## A state that cannot be seen -/

section Unseen

open Session

/-- A builder for the rotating frame, with the orientation of the first day. -/
noncomputable def rotating : Builder ℝ := Builder.kepler 1 .ecr (some firstDay)

/-- A state at noon of that day, in the rotating frame. -/
noncomputable def firstNoon : OrbitState ℝ := ⟨2400001, ⟨1, 0, 0⟩, ⟨0, 0, 1.25⟩, 1, .ecr⟩

/-- A state two days later, in the inertial frame. -/
noncomputable def thirdNoon : OrbitState ℝ := ⟨2400003, ⟨1, 0, 0⟩, ⟨0, 0, 1.25⟩, 1, .eci⟩

/-- A converter that would stay where it starts. -/
noncomputable def grounded : Converter ℝ Unit := standard .ecr ⟨1, 1, .forward⟩ staying

/-- A request to fit both positions. -/
noncomputable def bothNoons : Call (AnalyticPropagator ℝ) ℝ := .states [firstNoon, thirdNoon] true []

theorem targets_bothNoons : ∃ fault, Targets.ofStates [firstNoon, thirdNoon] (.known .ecr) true (some firstDay) =
    .error fault ∧ fault.kind = .dateRange := by
  have hoff : firstDay.covers (toModified 2400003) = false := by
    rw [Bool.eq_false_iff, Ne, covers_firstDay]
    norm_num [toModified, modifiedOffset]
  have hview : thirdNoon.view (.known .ecr) (some firstDay) = _ :=
    Frame.convert_outside hoff ⟨1, 0, 0⟩ ⟨0, 0, 1.25⟩ .eci .ecr
  refine ⟨.outsideHistory (toModified 2400003) firstDay.first.mjd firstDay.last.mjd, ?_, rfl⟩
  simp only [Targets.ofStates, List.isEmpty_cons, List.foldlM_cons, List.foldlM_nil, hview]
  rfl

/-- The history leaves out the second state: the first conversion of a converter fails with both states for its sample,
and nothing for their six components. -/
theorem not_inStep_bothNoons :
    ∃ fault s', exec (grounded.call bothNoons) (start rotating ()) = (.error fault, s') ∧ fault.kind = .dateRange ∧
      s'.onlyPosition = true ∧ s'.sample.length = 2 ∧ s'.targets.target.length = 0 ∧
      ¬ (grounded.afterCalls (start rotating ()) [bothNoons]).InStep := by
  have htask : bothNoons.task? (start rotating ()).builder.available = some ⟨firstNoon, [thirdNoon], true, []⟩ := rfl
  obtain ⟨b, journal, hb, he⟩ := exec_call_of_some (c := grounded) htask
  obtain rfl : rotating = b := Except.ok.inj hb
  obtain ⟨fault, htargets, hkind⟩ := targets_bothNoons
  have hend : Ends (grounded.call bothNoons) (start rotating ()) (fun _ _ => False)
      (fun fault s' => fault.kind = .dateRange ∧ s'.onlyPosition = true ∧ s'.sample.length = 2 ∧
        s'.targets.target.length = 0) := by
    refine (ends_congr he).mpr ?_
    unfold adapt
    rw [ends_bind, ends_modify]
    refine (ends_bind_of_ok ((exec_firstGuess ..).trans (Prod.ext rfl rfl))).mpr ?_
    rw [ends_bind, ends_modify]
    exact (ends_of_error (exec_bind_error (by exact exec_setSample_of_error htargets) _)).mpr ⟨hkind, rfl, rfl, rfl⟩
  rcases hexec : exec (grounded.call bothNoons) (start rotating ()) with ⟨fault | p, s'⟩
  · obtain ⟨hkind, ho, hsample, htarget⟩ := hend.of_error hexec
    refine ⟨fault, s', rfl, hkind, ho, hsample, htarget, ?_⟩
    show ¬ (exec (grounded.call bothNoons) (start rotating ())).2.InStep
    rw [hexec, InStep, ho, hsample, htarget]
    decide
  · exact (hend.of_ok hexec).elim

end Unseen

end OrbitFit
