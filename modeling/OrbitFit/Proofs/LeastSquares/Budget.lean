import OrbitFit.Proofs.ExactScalar
import OrbitFit.Proofs.LeastSquares.Transcript

/-!
# OrbitFit.Proofs.LeastSquares.Budget — fits within a budget of evaluations

A weighted fit puts itself between a solver and an objective.  How a fit goes on is said case by case along the
solver's strategy (`Optimizer.Course`); the solver may be any strategy, and the objective may answer as it likes.

* `Course.within`: the budget is kept.
* `Course.last`: a fault ends the fit at once, as it is.
* `Course.of_leads`: whatever the solver has come to, the fit is there with it.
* `weighted_keepsBudget`: the three together, for every solver and every objective.
-/

namespace OrbitFit

open OrbitFit.Action

namespace Optimizer

open Exchange (evaluations evaluations_nil evaluations_value evaluations_jacobian)

/-! ## The course of a fit -/

section Course

variable {α : Type} [Scalar α]

/-- The fault that an exchange is the end of a fit for. -/
def exchangeFault? (target : NdArray α) : Exchange α → Option (Fault α)
  | .value _ (.ok model) => modelFault? target model
  | .jacobian _ (.ok _) => none
  | .value _ (.error fault) | .jacobian _ (.error fault) => some fault

/-- What a fit ends with when its solver has an outcome. -/
def conclude (p : FitProblem α) (outcome : SolverOutcome α) (count : ℕ) : Except (Fault α) (Optimum α) :=
  if outcome.status == 0 then .error (.noConvergence count p.maxEvaluations)
  else .ok ⟨NdArray.ofList outcome.point, count, outcome.cost, outcome.status, some (method p)⟩

/-- How a fit goes on from a solver's strategy when so many values were asked for: the exchanges that are still to
come, and what the fit ends with. -/
inductive Course (p : FitProblem α) :
    Strategy α (SolverOutcome α) → ℕ → List (Exchange α) → Except (Fault α) (Optimum α) → Prop
  | stop (fault : Fault α) (count : ℕ) : Course p (.stop fault) count [] (.error fault)
  | done (outcome : SolverOutcome α) (count : ℕ) : Course p (.done outcome) count [] (conclude p outcome count)
  | exhausted {point : List α} {next : List α → Strategy α (SolverOutcome α)} {count : ℕ}
      (full : p.maxEvaluations ≤ count) :
      Course p (.residual point next) count [] (.error (.noConvergence count p.maxEvaluations))
  | valueFault {point : List α} {next : List α → Strategy α (SolverOutcome α)} {count : ℕ}
      {answer : Except (Fault α) (NdArray α)} {fault : Fault α} (room : (count : ℤ) < p.maxEvaluations)
      (faulty : exchangeFault? p.target (.value (NdArray.ofList point) answer) = some fault) :
      Course p (.residual point next) count [.value (NdArray.ofList point) answer] (.error fault)
  /-- the solver does not take several extents -/
  | refused {point : List α} {next : List α → Strategy α (SolverOutcome α)} {count : ℕ} {model : NdArray α}
      {log : List (Exchange α)} {result : Except (Fault α) (Optimum α)} (room : (count : ℤ) < p.maxEvaluations)
      (sound : modelFault? p.target model = none) (several : 1 < p.target.shape.length)
      (rest : (refuseRank p point).Transcript log result) :
      Course p (.residual point next) count (.value (NdArray.ofList point) (.ok model) :: log) result
  | value {point : List α} {next : List α → Strategy α (SolverOutcome α)} {count : ℕ} {model : NdArray α}
      {log : List (Exchange α)} {result : Except (Fault α) (Optimum α)} (room : (count : ℤ) < p.maxEvaluations)
      (sound : modelFault? p.target model = none) (single : p.target.shape.length ≤ 1)
      (rest : Course p (next (weightedResidual p.weight.data model.data p.target.data)) (count + 1) log result) :
      Course p (.residual point next) count (.value (NdArray.ofList point) (.ok model) :: log) result
  /-- derivatives that there are none of -/
  | underivable {point : List α} {next : List (List α) → Strategy α (SolverOutcome α)} {count : ℕ} :
      Course p (.jacobian point next) count [] (.error .indexOutOfRange)
  | jacobianFault {point : List α} {next : List (List α) → Strategy α (SolverOutcome α)} {count : ℕ}
      {fault : Fault α} :
      Course p (.jacobian point next) count [.jacobian (NdArray.ofList point) (.error fault)] (.error fault)
  | jacobian {point : List α} {next : List (List α) → Strategy α (SolverOutcome α)} {count : ℕ}
      {derivatives : NdArray α} {log : List (Exchange α)} {result : Except (Fault α) (Optimum α)}
      (rest : Course p (next (weightedJacobian p.weight.data derivatives.rows)) count log result) :
      Course p (.jacobian point next) count (.jacobian (NdArray.ofList point) (.ok derivatives) :: log) result

variable {p : FitProblem α} {t t' : Strategy α (SolverOutcome α)} {count : ℕ} {log : List (Exchange α)}
  {result : Except (Fault α) (Optimum α)}

/-- **Every transcript of a fit is a course of it.** -/
theorem course_of_transcript (h : (follow p t count).Transcript log result) : Course p t count log result := by
  -- the count is generalized, as the solver goes on with one more after every value
  induction t generalizing count log with
  | done outcome =>
    cases h
    exact .done outcome count
  | stop fault =>
    cases h
    exact .stop fault count
  | residual point next ih =>
    rw [follow] at h
    by_cases hfull : p.maxEvaluations ≤ (count : ℤ)
    · rw [if_pos hfull] at h
      cases h
      exact .exhausted hfull
    · rw [if_neg hfull] at h
      have room : (count : ℤ) < p.maxEvaluations := not_le.mp hfull
      cases h with
      | @value _ _ answer _ _ rest =>
        -- what the answer is decides: a fault, a model that is none, or a model to go on from
        cases answer with
        | error fault =>
          cases rest
          exact .valueFault room rfl
        | ok model =>
          dsimp only at rest
          cases hm : modelFault? p.target model with
          | some fault =>
            rw [hm] at rest
            cases rest
            exact .valueFault room hm
          | none =>
            rw [hm] at rest
            dsimp only at rest
            -- only a sound model meets the check on the extents of the target
            by_cases hrank : 1 < p.target.shape.length
            · rw [if_pos hrank] at rest
              exact .refused room hm hrank rest
            · rw [if_neg hrank] at rest
              exact .value room hm (not_lt.mp hrank) (ih _ rest)
  | jacobian point next ih =>
    rw [follow] at h
    -- derivatives are not counted, so the budget does not come up
    split_ifs at h with hrank
    · cases h
      exact .underivable
    · cases h with
      | @jacobian _ _ answer _ _ rest =>
        cases answer with
        | error fault =>
          cases rest
          exact .jacobianFault
        | ok derivatives => exact .jacobian (ih _ rest)
      -- an objective without derivatives ends the same way as a target without extents
      | underived rest =>
        cases rest
        exact .underivable

/-! ## The budget -/

omit [Scalar α] in
/-- A refusal asks for derivatives at most, and a fault of theirs is what it ends with. -/
theorem refuseRank_cases {point : List α} (h : (refuseRank p point).Transcript log result) :
    (∃ fault, result = .error fault) ∧ (log = [] ∨ ∃ answer, log = [.jacobian (NdArray.ofList point) answer] ∧
      ∀ fault, answer = .error fault → result = .error fault) := by
  unfold refuseRank at h
  -- only with derivatives of its own is the objective asked once more
  split_ifs at h
  · cases h with
    | @jacobian _ _ answer _ _ rest =>
      cases answer with
      | error fault =>
        cases rest
        exact ⟨⟨fault, rfl⟩, .inr ⟨_, rfl, by rintro _ ⟨⟩; rfl⟩⟩
      | ok derivatives =>
        cases rest
        exact ⟨⟨_, rfl⟩, .inr ⟨_, rfl, nofun⟩⟩
    | underived rest =>
      cases rest
      exact ⟨⟨_, rfl⟩, .inl rfl⟩
  · cases h
    exact ⟨⟨_, rfl⟩, .inl rfl⟩

omit [Scalar α] in
theorem evaluations_refuseRank {point : List α} (h : (refuseRank p point).Transcript log result) :
    evaluations log = 0 := by
  obtain ⟨-, rfl | ⟨answer, rfl, -⟩⟩ := refuseRank_cases h <;> rfl

/-- **The budget is kept.** -/
theorem Course.within (h : Course p t count log result) (hcount : (count : ℤ) ≤ p.maxEvaluations) :
    (count : ℤ) + evaluations log ≤ p.maxEvaluations := by
  induction h with
  | stop | done | exhausted | underivable => simpa using hcount
  | jacobianFault => simpa using hcount
  | valueFault room =>
    rw [evaluations_value, evaluations_nil]
    omega
  | refused room _ _ rest =>
    rw [evaluations_value, evaluations_refuseRank rest]
    omega
  | value room _ _ _ ih =>
    have := ih (by omega)
    rw [evaluations_value]
    omega
  | jacobian _ ih =>
    rw [evaluations_jacobian]
    exact ih hcount

/-! ## Faults -/

/-- A fault is the end: no exchange comes behind one that is faulty, and the result is its fault. -/
def StopsAtFault (target : NdArray α) (log : List (Exchange α)) (result : Except (Fault α) (Optimum α)) : Prop :=
  ∀ before x after fault, log = before ++ x :: after → exchangeFault? target x = some fault →
    after = [] ∧ result = .error fault

section StopsAtFault

variable {target : NdArray α} {x : Exchange α} {fault : Fault α}

theorem stopsAtFault_nil : StopsAtFault target [] result := by
  intro before x after fault hlog
  simp at hlog

theorem stopsAtFault_singleton (hx : exchangeFault? target x = some fault) :
    StopsAtFault target [x] (.error fault) := by
  intro before y after fault' hlog hy
  obtain ⟨rfl, h⟩ | ⟨-, h⟩ := List.singleton_eq_append_iff.mp hlog
  · obtain ⟨rfl, rfl⟩ := List.cons.inj h
    exact ⟨rfl, by rw [Option.some.inj (hx.symm.trans hy)]⟩
  · cases h

theorem StopsAtFault.cons (h : StopsAtFault target log result) (hx : exchangeFault? target x = none) :
    StopsAtFault target (x :: log) result := by
  intro before y after fault' hlog hy
  obtain ⟨rfl, hcons⟩ | ⟨before', rfl, hlog'⟩ := List.cons_eq_append_iff.mp hlog
  · obtain ⟨rfl, rfl⟩ := List.cons.inj hcons
    cases hx.symm.trans hy
  · exact h before' y after fault' hlog' hy

end StopsAtFault

theorem stopsAtFault_refuseRank {point : List α} (h : (refuseRank p point).Transcript log result) :
    StopsAtFault p.target log result := by
  obtain ⟨-, rfl | ⟨answer, rfl, hfault⟩⟩ := refuseRank_cases h
  · exact stopsAtFault_nil
  · cases answer with
    | error fault =>
      rw [hfault fault rfl]
      exact stopsAtFault_singleton rfl
    | ok derivatives => exact stopsAtFault_nil.cons rfl

/-- **A fault ends the fit**, as it is. -/
theorem Course.stopsAtFault (h : Course p t count log result) : StopsAtFault p.target log result := by
  induction h with
  | stop | done | exhausted | underivable => exact stopsAtFault_nil
  | valueFault _ faulty => exact stopsAtFault_singleton faulty
  | jacobianFault => exact stopsAtFault_singleton rfl
  | refused _ sound _ rest => exact (stopsAtFault_refuseRank rest).cons sound
  | value _ sound _ _ ih => exact ih.cons sound
  | jacobian _ ih => exact ih.cons rfl

/-! ## Where the solver is -/

/-- By what it hears in some exchanges, a solver's strategy goes on as another.  It does not hear of faults. -/
inductive Leads (p : FitProblem α) :
    Strategy α (SolverOutcome α) → List (Exchange α) → Strategy α (SolverOutcome α) → Prop
  | here (t : Strategy α (SolverOutcome α)) : Leads p t [] t
  | value {point : List α} {next : List α → Strategy α (SolverOutcome α)} {model : NdArray α}
      {log : List (Exchange α)} {t : Strategy α (SolverOutcome α)} (sound : modelFault? p.target model = none)
      (single : p.target.shape.length ≤ 1)
      (rest : Leads p (next (weightedResidual p.weight.data model.data p.target.data)) log t) :
      Leads p (.residual point next) (.value (NdArray.ofList point) (.ok model) :: log) t
  | jacobian {point : List α} {next : List (List α) → Strategy α (SolverOutcome α)} {derivatives : NdArray α}
      {log : List (Exchange α)} {t : Strategy α (SolverOutcome α)}
      (rest : Leads p (next (weightedJacobian p.weight.data derivatives.rows)) log t) :
      Leads p (.jacobian point next) (.jacobian (NdArray.ofList point) (.ok derivatives) :: log) t

/-- **Where its solver is, the fit is**: what is left of its course starts there. -/
theorem Course.of_leads {log' : List (Exchange α)} (h : Leads p t log t')
    (hc : Course p t count (log ++ log') result) : Course p t' (count + evaluations log) log' result := by
  induction h generalizing count with
  | here t => exact hc
  | @value point next model log t sound single rest ih =>
    rw [evaluations_value, add_comm _ 1, ← add_assoc]
    rw [List.cons_append] at hc
    generalize log ++ log' = later at hc ih
    cases hc with
    | valueFault _ faulty => cases sound.symm.trans faulty
    | refused _ _ several _ => omega
    | value _ _ _ rest => exact ih rest
  | @jacobian point next derivatives log t rest ih =>
    rw [evaluations_jacobian]
    rw [List.cons_append] at hc
    generalize log ++ log' = later at hc ih
    cases hc with
    | jacobian rest => exact ih rest

/-- A fit that has an optimum has it from its solver. -/
theorem Course.exists_leads {optimum : Optimum α} (h : Course p t count log result) (hr : result = .ok optimum) :
    ∃ outcome, Leads p t log (.done outcome) ∧ conclude p outcome (count + evaluations log) = .ok optimum := by
  induction h with
  | stop | exhausted | underivable | valueFault | jacobianFault => cases hr
  | done outcome count => exact ⟨outcome, .here _, hr⟩
  | refused _ _ _ rest =>
    obtain ⟨⟨fault, rfl⟩, -⟩ := refuseRank_cases rest
    cases hr
  | value _ sound single _ ih =>
    obtain ⟨outcome, hleads, hconclude⟩ := ih hr
    refine ⟨outcome, .value sound single hleads, ?_⟩
    rw [evaluations_value, add_comm _ 1, ← add_assoc]
    exact hconclude
  | jacobian _ ih =>
    obtain ⟨outcome, hleads, hconclude⟩ := ih hr
    exact ⟨outcome, .jacobian hleads, hconclude⟩

end Course

/-! ## Fits -/

section Fits

variable {α σ : Type} [Scalar α]

/-- How a fit comes out of its exchanges, when its solver starts with a strategy. -/
structure KeepsBudget (p : FitProblem α) (t : Strategy α (SolverOutcome α)) (log : List (Exchange α))
    (result : Except (Fault α) (Optimum α)) : Prop where
  within : (evaluations log : ℤ) ≤ p.maxEvaluations
  /-- only the value behind the last of the budget is not asked for -/
  exhausted : ∀ point next, Leads p t log (.residual point next) → (evaluations log : ℤ) = p.maxEvaluations ∧
    result = .error (.noConvergence p.maxEvaluations p.maxEvaluations)
  unconverged : ∀ outcome, Leads p t log (.done outcome) → outcome.status = 0 →
    result = .error (.noConvergence (evaluations log) p.maxEvaluations)
  converged : ∀ outcome, Leads p t log (.done outcome) → outcome.status ≠ 0 →
    result = .ok ⟨NdArray.ofList outcome.point, evaluations log, outcome.cost, outcome.status, some (method p)⟩
  stopped : ∀ fault, Leads p t log (.stop fault) → result = .error fault
  /-- a fault of the objective is the end, and is passed on as it is -/
  passes : ∀ before x after fault, log = before ++ x :: after → x.answer = .error fault →
    after = [] ∧ result = .error fault
  /-- so is a model of another shape or with an entry that is not finite -/
  rejects : ∀ before point model after, log = before ++ .value point (.ok model) :: after →
    (model.shape ≠ p.target.shape ∨ ∃ y ∈ model.data, Scalar.isFinite y = false) →
      after = [] ∧ ∃ fault, result = .error fault ∧ fault.kind = .objective
  counted : ∀ optimum, result = .ok optimum → optimum.evaluations = evaluations log

variable {p : FitProblem α} {t : Strategy α (SolverOutcome α)} {log : List (Exchange α)}
  {result : Except (Fault α) (Optimum α)}

theorem exchangeFault?_of_error {x : Exchange α} {fault : Fault α} (h : x.answer = .error fault) :
    exchangeFault? p.target x = some fault := by
  cases x <;> obtain rfl : _ = Except.error fault := h <;> rfl

theorem exists_modelFault? {model : NdArray α}
    (h : model.shape ≠ p.target.shape ∨ ∃ y ∈ model.data, Scalar.isFinite y = false) :
    ∃ fault, modelFault? p.target model = some fault ∧ fault.kind = .objective := by
  unfold modelFault?
  by_cases hshape : model.shape = p.target.shape
  · obtain ⟨y, hy, hfinite⟩ := h.resolve_left (not_not_intro hshape)
    have hall : model.data.all Scalar.isFinite = false := List.all_eq_false.mpr ⟨y, hy, by simp [hfinite]⟩
    exact ⟨.modelNotFinite, by simp [hshape, hall], rfl⟩
  · exact ⟨.modelShape model.shape p.target.shape, by simp [hshape], rfl⟩

theorem Course.keepsBudget (h : Course p t 0 log result) (hmax : 0 ≤ p.maxEvaluations) :
    KeepsBudget p t log result := by
  have hwithin : (evaluations log : ℤ) ≤ p.maxEvaluations := by simpa using h.within hmax
  -- nothing comes behind the exchanges, so where they lead the course goes on with none
  have hrest : ∀ t', Leads p t log t' → Course p t' (evaluations log) [] result := by
    intro t' hleads
    rw [← List.append_nil log] at h
    simpa using h.of_leads hleads
  refine ⟨hwithin, ?_, ?_, ?_, ?_, ?_, ?_, ?_⟩
  · intro point next hleads
    cases hrest _ hleads with
    | exhausted full =>
      have heq : (evaluations log : ℤ) = p.maxEvaluations := le_antisymm hwithin full
      exact ⟨heq, by rw [heq]⟩
  · intro outcome hleads hstatus
    cases hrest _ hleads
    rw [conclude, if_pos (by simpa using hstatus)]
  · intro outcome hleads hstatus
    cases hrest _ hleads
    rw [conclude, if_neg (by simpa using hstatus)]
  · intro fault hleads
    cases hrest _ hleads
    rfl
  · intro before x after fault hlog hx
    exact h.stopsAtFault before x after fault hlog (exchangeFault?_of_error hx)
  · intro before point model after hlog hmodel
    obtain ⟨fault, hfault, hkind⟩ := exists_modelFault? hmodel
    obtain ⟨hafter, hresult⟩ := h.stopsAtFault before _ after fault hlog hfault
    exact ⟨hafter, fault, hresult, hkind⟩
  · intro optimum hresult
    obtain ⟨outcome, -, hconclude⟩ := h.exists_leads hresult
    unfold conclude at hconclude
    split_ifs at hconclude
    rw [← Except.ok.inj hconclude, Nat.zero_add]

variable (solver : Solver α) (threshold : α) (scheme : DifferenceScheme)

/-- The strategy that a solver starts a problem with. -/
def opening (p : FitProblem α) : Strategy α (SolverOutcome α) :=
  if 1 < p.guess.shape.length then .stop .guessRank
  else solver ⟨method p, p.guess.data, p.analytic, scheme, threshold, p.maxEvaluations⟩

theorem weighted_eq_follow (hshape : p.weight.shape = p.target.shape) (hweight : ∀ w ∈ p.weight.data, ¬ w ≤ 0)
    (hmax : 1 ≤ p.maxEvaluations) :
    weighted solver threshold scheme p = follow p (opening solver threshold scheme p) 0 := by
  have hsign : (p.weight.data.any fun w => decide (w ≤ 0)) = false := by simpa using hweight
  have hproblem : problemFault? p = none := by
    rw [problemFault?, if_neg (by simp [hshape]), if_neg (by simp [hsign])]
  have hpos : ¬ p.maxEvaluations ≤ 0 := by omega
  rw [weighted, hproblem, opening]
  dsimp only
  rw [if_neg hpos]
  split_ifs
  · rfl
  · rfl

/-- No problem makes a fit ask for more values than it allows. -/
theorem evaluations_weighted_le (hmax : 1 ≤ p.maxEvaluations) (o : Objective α σ) (s : σ) :
    (evaluations ((weighted solver threshold scheme p).exchanges o s) : ℤ) ≤ p.maxEvaluations := by
  have hnone : ((evaluations ([] : List (Exchange α)) : ℕ) : ℤ) ≤ p.maxEvaluations := by
    rw [evaluations_nil]
    omega
  unfold weighted
  cases problemFault? p with
  | some fault => exact hnone
  | none =>
    dsimp only
    split_ifs
    · exact hnone
    · exact hnone
    · have hcourse := course_of_transcript (Run.transcript_exchanges o s
        (follow p (solver ⟨method p, p.guess.data, p.analytic, scheme, threshold, p.maxEvaluations⟩) 0))
      simpa using hcourse.within (by omega)

/-- **A fit keeps to its budget and passes faults on**, whatever its solver asks for and however its objective
answers. -/
theorem weighted_keepsBudget (o : Objective α σ) (s : σ) (hshape : p.weight.shape = p.target.shape)
    (hweight : ∀ w ∈ p.weight.data, ¬ w ≤ 0) (hmax : 1 ≤ p.maxEvaluations) :
    let run := weighted solver threshold scheme p
    (run.against o s).1.2 = evaluations (run.exchanges o s) ∧
      KeepsBudget p (opening solver threshold scheme p) (run.exchanges o s) (run.against o s).1.1 := by
  intro run
  have htranscript : (follow p (opening solver threshold scheme p) 0).Transcript (run.exchanges o s)
      (run.against o s).1.1 := by
    rw [← weighted_eq_follow solver threshold scheme hshape hweight hmax]
    exact run.transcript_exchanges o s
  exact ⟨run.count_against o s, (course_of_transcript htranscript).keepsBudget (by omega)⟩

/-- A fit of one component to zero, with one evaluation. -/
def once : FitProblem ℝ := ⟨1, NdArray.ofList [0], NdArray.ofList [1], NdArray.ofList [0], false⟩

/-- A solver that looks twice. -/
def looksTwice : Solver ℝ := fun _ => .residual [0] fun _ => .residual [0] fun values => .done ⟨values, 0, 1⟩

/-- A model that is one everywhere. -/
def alwaysOne : Objective ℝ Unit := ⟨fun _ => pure (NdArray.ofList [1]), none⟩

/-- The second look is not made. -/
theorem weighted_keepsBudget_once :
    (weighted looksTwice 1 .forward once).exchanges alwaysOne () =
        [.value (NdArray.ofList [0]) (.ok (NdArray.ofList [1]))] ∧
      ((weighted looksTwice 1 .forward once).against alwaysOne ()).1 = (.error (.noConvergence 1 1), 1) := by
  have hweight : ∀ w ∈ once.weight.data, ¬ w ≤ 0 := by
    intro w hw
    rw [List.mem_singleton.mp hw]
    norm_num
  have hlog : (weighted looksTwice 1 .forward once).exchanges alwaysOne () =
      [.value (NdArray.ofList [0]) (.ok (NdArray.ofList [1]))] := by
    rw [weighted_eq_follow looksTwice 1 .forward rfl hweight le_rfl]
    simp [opening, once, looksTwice, alwaysOne, follow, modelFault?]
  have hleads : Leads once (opening looksTwice 1 .forward once)
      [.value (NdArray.ofList [0]) (.ok (NdArray.ofList [1]))] (.residual [0] fun values => .done ⟨values, 0, 1⟩) :=
    .value (by simp [modelFault?, once]) le_rfl (.here _)
  obtain ⟨hcount, hkeeps⟩ := weighted_keepsBudget looksTwice 1 .forward alwaysOne () rfl hweight le_rfl
  rw [hlog] at hcount hkeeps
  exact ⟨hlog, Prod.ext (hkeeps.exhausted _ _ hleads).2 hcount⟩

end Fits

end Optimizer

end OrbitFit
