import Mathlib.Data.Nat.Notation
import OrbitFit.LeastSquares.Optimizer
import OrbitFit.Proofs.Action

/-!
# OrbitFit.Proofs.LeastSquares.Transcript — what a run and an objective say to each other

An objective can write down what it is asked.  This does not disturb a run, so the exchanges of any run with any
objective are there to be spoken of, in their order (`Run.exchanges`).  A run knows nothing of the objective but the
answers: what it ends with follows from its exchanges alone (`Run.Transcript`).
-/

namespace OrbitFit

open OrbitFit.Action

/-! ## Exchanges -/

section Exchanges

variable {α σ β ε : Type}

/-- A question to an objective, with its answer. -/
inductive Exchange (α : Type) where
  | value (point : NdArray α) (answer : Except (Fault α) (NdArray α))
  | jacobian (point : NdArray α) (answer : Except (Fault α) (NdArray α))

namespace Exchange

def answer : Exchange α → Except (Fault α) (NdArray α)
  | value _ a => a
  | jacobian _ a => a

def isValue : Exchange α → Bool
  | value .. => true
  | jacobian .. => false

/-- The number of values that were asked for. -/
def evaluations (log : List (Exchange α)) : ℕ := log.countP isValue

@[simp] theorem evaluations_nil : evaluations ([] : List (Exchange α)) = 0 := rfl

@[simp] theorem evaluations_value (point : NdArray α) (a : Except (Fault α) (NdArray α)) (log : List (Exchange α)) :
    evaluations (.value point a :: log) = evaluations log + 1 := List.countP_cons_of_pos rfl

@[simp] theorem evaluations_jacobian (point : NdArray α) (a : Except (Fault α) (NdArray α))
    (log : List (Exchange α)) : evaluations (.jacobian point a :: log) = evaluations log :=
  List.countP_cons_of_neg Bool.false_ne_true

end Exchange

/-- An action that also writes down how it ended. -/
def Action.noted (a : Action α σ β) (note : Except (Fault α) β → ε) : Action α (σ × List ε) β :=
  ofStep fun s => ((exec a s.1).1, (exec a s.1).2, s.2 ++ [note (exec a s.1).1])

@[simp] theorem Action.exec_noted (a : Action α σ β) (note : Except (Fault α) β → ε) (s : σ × List ε) :
    exec (a.noted note) s = ((exec a s.1).1, (exec a s.1).2, s.2 ++ [note (exec a s.1).1]) := rfl

/-- The objective, writing down what it is asked and what it answers. -/
def Objective.recorded (o : Objective α σ) : Objective α (σ × List (Exchange α)) where
  value point := (o.value point).noted (.value point)
  jacobian := o.jacobian.map fun derivatives point => (derivatives point).noted (.jacobian point)

theorem Objective.jacobian_recorded_of_some {o : Objective α σ} {derivatives : NdArray α → Action α σ (NdArray α)}
    (h : o.jacobian = some derivatives) :
    o.recorded.jacobian = some fun point => (derivatives point).noted (.jacobian point) := by
  rw [recorded, h]
  rfl

theorem Objective.jacobian_recorded_of_none {o : Objective α σ} (h : o.jacobian = none) :
    o.recorded.jacobian = none := by
  rw [recorded, h]
  rfl

/-- The objective writes a history of what it is asked into its state. -/
structure Objective.Keeps (o : Objective α σ) (heard : σ → List (Exchange α)) : Prop where
  value : ∀ point s, heard (exec (o.value point) s).2 = heard s ++ [.value point (exec (o.value point) s).1]
  jacobian : ∀ derivatives, o.jacobian = some derivatives → ∀ point s,
    heard (exec (derivatives point) s).2 = heard s ++ [.jacobian point (exec (derivatives point) s).1]

theorem Objective.keeps_recorded (o : Objective α σ) : o.recorded.Keeps Prod.snd where
  value _ _ := rfl
  jacobian derivatives h point s := by
    obtain ⟨d, -, rfl⟩ := Option.map_eq_some_iff.mp h
    rfl

end Exchanges

/-! ## Runs -/

namespace Run

variable {α σ β : Type} (o : Objective α σ) (s : σ) (result : Except (Fault α) β) (point : NdArray α)
  (next : Except (Fault α) (NdArray α) → Run α β) (run : Run α β)

/-- The exchanges of a run with an objective. -/
def exchanges : List (Exchange α) := (run.against o.recorded (s, [])).2.2

@[simp] theorem against_done : (done result).against o s = ((result, 0), s) := rfl

@[simp] theorem against_value : (value point next).against o s =
    let (answer, s') := exec (o.value point) s
    let ended := (next answer).against o s'
    ((ended.1.1, ended.1.2 + 1), ended.2) := rfl

variable {o} in
theorem against_jacobian_some {derivatives : NdArray α → Action α σ (NdArray α)}
    (h : o.jacobian = some derivatives) :
    (jacobian point next).against o s =
      let (answer, s') := exec (derivatives point) s
      (next answer).against o s' := by
  simp only [against, h]
  rfl

variable {o} in
theorem against_jacobian_none (h : o.jacobian = none) :
    (jacobian point next).against o s = (next (.error .indexOutOfRange)).against o s := by
  simp only [against, h]

/-- **Writing down does not disturb**: the run ends as it does, and what it asks comes behind what was written. -/
theorem against_recorded (log : List (Exchange α)) : run.against o.recorded (s, log) =
    ((run.against o s).1, (run.against o s).2, log ++ run.exchanges o s) := by
  unfold exchanges
  induction run generalizing s log with
  | done result => simp
  | value point next ih =>
    rw [against_value, against_value, against_value]
    simp only [Objective.recorded, exec_noted] at ih ⊢
    -- both sides go on from the same state, one of them with the log and one with an empty one
    rw [ih, ih _ _ ([] ++ _), List.append_assoc, List.append_assoc]
    rfl
  | jacobian point next ih =>
    cases h : o.jacobian with
    | none =>
      have hr := Objective.jacobian_recorded_of_none h
      rw [against_jacobian_none s point next h, against_jacobian_none _ point next hr,
        against_jacobian_none _ point next hr]
      exact ih _ s log
    | some derivatives =>
      have hr := Objective.jacobian_recorded_of_some h
      rw [against_jacobian_some s point next h, against_jacobian_some _ point next hr,
        against_jacobian_some _ point next hr]
      simp only [exec_noted]
      rw [ih, ih _ _ ([] ++ _), List.append_assoc, List.append_assoc]
      rfl

@[simp] theorem exchanges_done : (done result).exchanges o s = [] := rfl

@[simp] theorem exchanges_value : (value point next).exchanges o s =
    let (answer, s') := exec (o.value point) s
    .value point answer :: (next answer).exchanges o s' := by
  rw [exchanges, against_value]
  simp only [Objective.recorded, exec_noted]
  rw [← Objective.recorded, against_recorded]
  rfl

variable {o} in
theorem exchanges_jacobian_some {derivatives : NdArray α → Action α σ (NdArray α)}
    (h : o.jacobian = some derivatives) : (jacobian point next).exchanges o s =
      let (answer, s') := exec (derivatives point) s
      .jacobian point answer :: (next answer).exchanges o s' := by
  rw [exchanges, against_jacobian_some _ point next (Objective.jacobian_recorded_of_some h)]
  simp only [exec_noted]
  rw [against_recorded]
  rfl

variable {o} in
theorem exchanges_jacobian_none (h : o.jacobian = none) :
    (jacobian point next).exchanges o s = (next (.error .indexOutOfRange)).exchanges o s := by
  rw [exchanges, against_jacobian_none _ point next (Objective.jacobian_recorded_of_none h)]
  rfl

/-- **The number of a run counts its values**, whether they were answered or failed. -/
theorem count_against : (run.against o s).1.2 = Exchange.evaluations (run.exchanges o s) := by
  induction run generalizing s with
  | done result => rfl
  | value point next ih =>
    rw [against_value, exchanges_value]
    simp only [Exchange.evaluations_value, ih]
  | jacobian point next ih =>
    cases h : o.jacobian with
    | none => rw [against_jacobian_none s point next h, exchanges_jacobian_none s point next h, ih]
    | some derivatives =>
      rw [against_jacobian_some s point next h, exchanges_jacobian_some s point next h]
      simp only [Exchange.evaluations_jacobian, ih]

/-- **Nothing else is heard**: a run adds its exchanges to the history that an objective writes. -/
theorem heard_against {heard : σ → List (Exchange α)} (ho : o.Keeps heard) :
    heard (run.against o s).2 = heard s ++ run.exchanges o s := by
  induction run generalizing s with
  | done result =>
    rw [exchanges_done, List.append_nil]
    rfl
  | value point next ih =>
    rw [against_value, exchanges_value]
    dsimp only
    rw [ih, ho.value, List.append_assoc]
    rfl
  | jacobian point next ih =>
    cases h : o.jacobian with
    | none => rw [against_jacobian_none s point next h, exchanges_jacobian_none s point next h, ih]
    | some derivatives =>
      rw [against_jacobian_some s point next h, exchanges_jacobian_some s point next h]
      dsimp only
      rw [ih, ho.jacobian derivatives h, List.append_assoc]
      rfl

/-- What a run can go through: its exchanges with some objective, and what it ends with. -/
inductive Transcript : Run α β → List (Exchange α) → Except (Fault α) β → Prop
  | done (result : Except (Fault α) β) : Transcript (.done result) [] result
  | value {point : NdArray α} {next : Except (Fault α) (NdArray α) → Run α β}
      {answer : Except (Fault α) (NdArray α)} {log : List (Exchange α)} {result : Except (Fault α) β}
      (rest : Transcript (next answer) log result) :
      Transcript (.value point next) (.value point answer :: log) result
  | jacobian {point : NdArray α} {next : Except (Fault α) (NdArray α) → Run α β}
      {answer : Except (Fault α) (NdArray α)} {log : List (Exchange α)} {result : Except (Fault α) β}
      (rest : Transcript (next answer) log result) :
      Transcript (.jacobian point next) (.jacobian point answer :: log) result
  /-- an objective without derivatives is not asked for them -/
  | underived {point : NdArray α} {next : Except (Fault α) (NdArray α) → Run α β} {log : List (Exchange α)}
      {result : Except (Fault α) β} (rest : Transcript (next (.error .indexOutOfRange)) log result) :
      Transcript (.jacobian point next) log result

theorem transcript_exchanges : run.Transcript (run.exchanges o s) (run.against o s).1.1 := by
  induction run generalizing s with
  | done result => exact .done result
  | value point next ih =>
    rw [against_value, exchanges_value]
    exact .value (ih _ _)
  | jacobian point next ih =>
    cases h : o.jacobian with
    | none =>
      rw [against_jacobian_none s point next h, exchanges_jacobian_none s point next h]
      exact .underived (ih _ s)
    | some derivatives =>
      rw [against_jacobian_some s point next h, exchanges_jacobian_some s point next h]
      exact .jacobian (ih _ _)

end Run

end OrbitFit
