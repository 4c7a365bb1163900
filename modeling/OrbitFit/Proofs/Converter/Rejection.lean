import OrbitFit.Proofs.Converter.History
import OrbitFit.Proofs.Fit.Sampling
import OrbitFit.Propagator.Stepping

/-!
# OrbitFit.Proofs.Converter.Rejection — a call that is turned away changes nothing

A call is checked in two places: its names first, then its arguments and its source while a trajectory is sampled, and
then the number of its states.  Up to there the session is only read, and the source gets its initial state back, so
whatever was converted before is still there (`rejected_changes_nothing`).  The names come before everything else: a
call for an unknown one leaves the source itself as it was, whatever it would have written down when asked for a state.
-/

namespace OrbitFit

open OrbitFit.Action
open Propagator (propagate initialState resetInitialState)

/-! ## Reasons -/

section Reasons

variable {π α σ : Type}

/-- The names of the parameters that a call sets free. -/
def Call.names : Call π α → List String
  | trajectory _ _ _ names => names
  | states _ _ names => names

/-- The propagator that a call samples. -/
def Call.source? : Call π α → Option π
  | trajectory source _ _ _ => some source
  | states _ _ _ => none

variable [Scalar α] [Propagator π α]

/-- The reasons to turn a call away before anything is fitted, with the category and the fault that each has.  Those
behind the first are reasons only where every name is offered. -/
inductive Call.Rejected (available : List String) : Call π α → FaultKind → Fault α → Prop
  /-- a name, the first of them, that is not offered -/
  | unknownName {call : Call π α} {known later : List String} {name : String}
      (names : call.names = known ++ name :: later) (offered : ∀ other ∈ known, other ∈ available)
      (unknown : name ∉ available) :
      Rejected available call .unknownParameter (.unknownParameter name available)
  | fewPoints {source : π} {span : α} {points : ℤ} {names : List String}
      (offered : ∀ name ∈ names, name ∈ available) (few : points < 2) :
      Rejected available (.trajectory source span points names) .value (.samplePoints points)
  | noSpan {source : π} {span : α} {points : ℤ} {names : List String}
      (offered : ∀ name ∈ names, name ∈ available) (enough : 2 ≤ points) (none : ¬ 0 < span) :
      Rejected available (.trajectory source span points names) .value (.sampleSpan span)
  /-- a state that the source does not give, whichever it is -/
  | noState {source p p' : π} {span step : α} {points : ℤ} {names : List String} {states : List (OrbitState α)}
      {fault : Fault α} (offered : ∀ name ∈ names, name ∈ available) (due : Sample.Due span points source step states p)
      (failed : propagate (Sample.epochAt (initialState source).epoch step states.length) p = (.error fault, p')) :
      Rejected available (.trajectory source span points names) .sampling
        (.samplingFailed (Sample.offset step states.length) fault)
  | fewStates {states : List (OrbitState α)} {onlyPosition : Bool} {names : List String}
      (offered : ∀ name ∈ names, name ∈ available) (few : states.length < if onlyPosition then 2 else 1) :
      Rejected available (.states states onlyPosition names) .value
        (.tooFewStates (if onlyPosition then 2 else 1) states.length)

/-- The source of a call as the call leaves it. -/
def Converter.sourceAfter (c : Converter α σ) (s : Session α σ) : Call π α → Option π
  | .trajectory source span points names => some (exec (c.convert span points names) (s, source)).2.2
  | .states _ _ _ => none

end Reasons

/-! ## What is turned away -/

section Rejections

variable {π α σ : Type}

namespace Converter

variable {s : Session α σ} {names : List String}

/-- Names are refused for the first that is not offered. -/
theorem exec_checkNames_of_first {known : List String} {name : String} (later : List String)
    (hknown : ∀ other ∈ known, other ∈ s.builder.available) (hname : name ∉ s.builder.available) :
    exec (checkNames (known ++ name :: later)) s = (.error (.unknownParameter name s.builder.available), s) := by
  have hfind : ((known ++ name :: later).find? fun other => !s.builder.available.contains other) = some name := by
    rw [List.find?_append, List.find?_eq_none.mpr (by simpa using hknown), Option.none_or,
      List.find?_cons_of_pos (by simpa using hname)]
  rw [checkNames, exec_bind_ok (exec_get s)]
  dsimp only
  rw [hfind]
  rfl

variable [Scalar α] {c : Converter α σ}

theorem exec_convertStates_of_few {states : List (OrbitState α)} {onlyPosition : Bool}
    (hn : ∀ name ∈ names, name ∈ s.builder.available) (hfew : states.length < minimumStates onlyPosition) :
    exec (c.convertStates states onlyPosition names) s =
      (.error (.tooFewStates (minimumStates onlyPosition) states.length), s) := by
  rw [convertStates, exec_bind_ok (exec_checkNames_of_mem hn)]
  cases states with
  | nil => rfl
  | cons first rest =>
    dsimp only
    rw [if_pos hfew]
    rfl

variable [Propagator π α]

/-- A call for an unknown name is turned away before its source is asked for anything. -/
theorem exec_call_of_first {call : Call π α} {known later : List String} {name : String}
    (h : call.names = known ++ name :: later) (hknown : ∀ other ∈ known, other ∈ s.builder.available)
    (hname : name ∉ s.builder.available) :
    exec (c.call call) s = (.error (.unknownParameter name s.builder.available), s) ∧
      c.sourceAfter s call = call.source? := by
  have hcheck := exec_checkNames_of_first later hknown hname
  rw [← h] at hcheck
  cases call with
  | states states onlyPosition names => exact ⟨exec_bind_error hcheck _, rfl⟩
  | trajectory source span points names =>
    have he : exec (c.convert span points names) (s, source) = _ := exec_convert_of_error hcheck
    rw [Converter.call, exec_onPart, sourceAfter, he]
    exact ⟨rfl, rfl⟩

/-- A trajectory that cannot be sampled is turned away with the fault of sampling it. -/
theorem exec_call_of_take {source source' : π} {span : α} {points : ℤ} {fault : Fault α}
    (hn : ∀ name ∈ names, name ∈ s.builder.available)
    (ht : Sample.take span points source = (.error fault, source')) :
    exec (c.call (.trajectory source span points names)) s = (.error fault, s) ∧
      c.sourceAfter s (.trajectory source span points names) = some source' := by
  have he : exec (c.convert span points names) (s, source) = _ := exec_convert_of_mem hn
  rw [ht] at he
  rw [Converter.call, exec_onPart, sourceAfter, he]
  exact ⟨rfl, rfl⟩

end Converter

variable [Scalar α] [Propagator π α]

/-- **A call that is turned away changes nothing**, whatever the session holds from calls before it.  It fails for the
first reason there is; the session is what it was, with its builder, its sample, its targets, its result and the world
that the objectives write to; and the source has the initial state that it had.  A source that is not asked for a
state, as it is not where a name is unknown, is what it was altogether. -/
theorem rejected_changes_nothing [LawfulPropagator π] (c : Converter α σ) (s : Session α σ) (call : Call π α)
    (kind : FaultKind) (fault : Fault α) (h : call.Rejected s.builder.available kind fault) :
    exec (c.call call) s = (.error fault, s) ∧ fault.kind = kind ∧
      (c.sourceAfter s call).map initialState = call.source?.map initialState ∧
      (kind ≠ .sampling → c.sourceAfter s call = call.source?) := by
  cases h with
  | unknownName names offered unknown =>
    obtain ⟨he, hsource⟩ := Converter.exec_call_of_first (c := c) names offered unknown
    exact ⟨he, rfl, by rw [hsource], fun _ => hsource⟩
  | @fewPoints source span points names offered few =>
    have ht : Sample.take span points source = (.error (.samplePoints points), source) := by
      rw [Sample.take, if_pos few]
    obtain ⟨he, hsource⟩ := Converter.exec_call_of_take (c := c) offered ht
    exact ⟨he, rfl, by rw [hsource]; rfl, fun _ => hsource⟩
  | @noSpan source span points names offered enough none =>
    have ht : Sample.take span points source = (.error (.sampleSpan span), source) := by
      rw [Sample.take, if_neg (not_lt.mpr enough), if_pos (by simpa using none)]
    obtain ⟨he, hsource⟩ := Converter.exec_call_of_take (c := c) offered ht
    exact ⟨he, rfl, by rw [hsource]; rfl, fun _ => hsource⟩
  -- here the source was asked, and was reset behind the request that failed
  | noState offered due failed =>
    obtain ⟨he, hsource⟩ := Converter.exec_call_of_take (c := c) offered (Sample.take_of_due due failed)
    refine ⟨he, rfl, ?_, fun hkind => absurd rfl hkind⟩
    rw [hsource]
    exact congrArg some (LawfulPropagator.initialState_reset _ _)
  | fewStates offered few => exact ⟨Converter.exec_convertStates_of_few offered few, rfl, rfl, fun _ => rfl⟩

end Rejections

/-! ## A session with a result -/

section OverPole

open Converter Session

/-- A machine over the poles that moves along with its answers and can make one step. -/
noncomputable def oneStep : SteppingPropagator ℝ :=
  ⟨⟨0, ⟨1, 0, 0⟩, ⟨0, 0, 1.25⟩, 1, .eci⟩, none, 0, some 1⟩

theorem propagate_oneStep (epoch : ℝ) : ∃ s, propagate epoch oneStep =
    (.ok s, { oneStep with initial := s, steps := 1 }) := by
  obtain ⟨o, hok⟩ : ∃ o : Osculating ℝ, boundElements ⟨1, 0, 0⟩ ⟨0, 0, 1.25⟩ 1 = .ok o :=
    exists_boundElements_upward zero_lt_one (by norm_num) (by norm_num) (by norm_num) (by norm_num)
  obtain ⟨s, hs⟩ : ∃ s, (AnalyticPropagator.mk .kepler oneStep.initial none).stateAt epoch = .ok s := by
    simp only [AnalyticPropagator.stateAt, AnalyticPropagator.stateAtWith, oneStep, OrbitState.positionVelocity,
      Frame.convert, MotionModel.advanceWith, keplerMotionWith, bind, Except.bind, hok]
    exact ⟨_, rfl⟩
  refine ⟨s, ?_⟩
  show SteppingPropagator.step _ _ = _
  unfold SteppingPropagator.step
  rw [if_neg (by simp [oneStep])]
  dsimp only
  rw [show oneStep.eop = none from rfl, hs]
  rfl

/-- The machine that can make one step is asked for a second. -/
theorem due_oneStep : ∃ s p, Sample.Due 1 3 oneStep (1 / 2) [s] p ∧ ∃ p',
    propagate (Sample.epochAt (initialState oneStep).epoch (1 / 2) 1) p =
      (.error (.reported .propagation "integrator step failed"), p') := by
  obtain ⟨s, hs⟩ := propagate_oneStep (Sample.epochAt (initialState oneStep).epoch (1 / 2) 0)
  refine ⟨s, _, ⟨by norm_num, zero_lt_one, ⟨2, ?_, rfl⟩, .next hs (.none _), fun j hj => ?_⟩, _, rfl⟩
  · rw [ratioChecked_real]
    norm_num
  · obtain rfl | rfl : j = 0 ∨ j = 1 := by
      rw [List.length_singleton] at hj
      omega
    · exact zero_lt_one
    · show (0 : ℝ) + 1 / 2 < 1
      norm_num

/-- A converter that stays where it starts. -/
noncomputable def resting : Converter ℝ Unit := standard .eci ⟨1, 1, .forward⟩ staying

/-- A trajectory of that machine, to be fitted with the named parameters free. -/
noncomputable def twoSteps (names : List String) : Call (SteppingPropagator ℝ) ℝ := .trajectory oneStep 1 3 names

/-- Behind a conversion that succeeded, calls are turned away for a name in the middle, for a source that fails at its
second state, and for a single position; the result is still there. -/
theorem rejected_changes_nothing_overPole : ∃ s : Session ℝ Unit, s.result.isSome ∧
    exec (resting.call (twoSteps ["mu", "j2", "drag"])) s = (.error (.unknownParameter "j2" ["mu"]), s) ∧
    resting.sourceAfter s (twoSteps ["mu", "j2", "drag"]) = some oneStep ∧
    exec (resting.call (twoSteps ["mu"])) s =
      (.error (.samplingFailed (Sample.offset (1 / 2) 1) (.reported .propagation "integrator step failed")), s) ∧
    (resting.sourceAfter s (twoSteps ["mu"])).map initialState = some (initialState oneStep) ∧
    exec (resting.call (.states [overPole] true [] : Call (SteppingPropagator ℝ) ℝ)) s =
      (.error (.tooFewStates 2 1), s) := by
  obtain ⟨res, hres, -⟩ := exists_result_upward 1
  have hav : (emptyBehind 1).builder.available = ["mu"] := by
    rw [emptyBehind, (alike_reached () _).available]
    rfl
  generalize emptyBehind 1 = s at hres hav
  obtain ⟨t, p, hdue, p', hfailed⟩ := due_oneStep
  have hname : (twoSteps ["mu", "j2", "drag"]).Rejected s.builder.available .unknownParameter
      (.unknownParameter "j2" ["mu"]) := by
    rw [hav]
    exact .unknownName (show _ = ["mu"] ++ "j2" :: ["drag"] from rfl) (by simp) (by simp)
  have hsource : (twoSteps ["mu"]).Rejected s.builder.available .sampling
      (.samplingFailed (Sample.offset (1 / 2) 1) (.reported .propagation "integrator step failed")) := by
    rw [hav]
    exact .noState (by simp) hdue hfailed
  have hfew : (.states [overPole] true [] : Call (SteppingPropagator ℝ) ℝ).Rejected s.builder.available .value
      (.tooFewStates 2 1) := .fewStates (by simp) (by decide)
  obtain ⟨hname, -, -, hmachine⟩ := rejected_changes_nothing resting s _ _ _ hname
  obtain ⟨hsource, -, hinitial, -⟩ := rejected_changes_nothing resting s _ _ _ hsource
  obtain ⟨hfew, -⟩ := rejected_changes_nothing resting s _ _ _ hfew
  exact ⟨s, by rw [hres]; rfl, hname, hmachine (by decide), hsource, hinitial, hfew⟩

end OverPole

end OrbitFit
