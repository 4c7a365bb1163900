import Mathlib
import OrbitFit.Proofs.Converter.Adaptation
import OrbitFit.Proofs.Orbit.Motion

/-!
# OrbitFit.Proofs.Converter.History — what a converter shows after any calls

A call either is turned away, and leaves everything but the journal as it was, or it is a task: then the session
forgets the last result first, and shows a new one only at the end (`ends_call`).  So what a session shows belongs to
the last task that it was given (`conversions_coherent`).
-/

namespace OrbitFit

open OrbitFit.Action Builder

/-! ## Calls -/

section Calls

variable {π α σ : Type}

/-- A request to convert. -/
inductive Call (π α : Type) where
  /-- the trajectory of a propagator over a span -/
  | trajectory (source : π) (span : α) (points : Int) (names : List String)
  /-- a sample of states -/
  | states (states : List (OrbitState α)) (onlyPosition : Bool) (names : List String)

/-- The task of fitting states, unless a parameter is unknown or there are too few states. -/
def Task.ofStates? (available : List String) (states : List (OrbitState α)) (onlyPosition : Bool)
    (names : List String) : Option (Task α) :=
  match states with
  | [] => none
  | first :: rest =>
    if (∀ name ∈ names, name ∈ available) ∧ Converter.minimumStates onlyPosition ≤ (first :: rest).length then
      some ⟨first, rest, onlyPosition, names⟩
    else none

variable [Scalar α] [Propagator π α]

/-- The task that a call is, unless it is turned away: for a parameter, while sampling or for too few states. -/
def Call.task? (available : List String) : Call π α → Option (Task α)
  | trajectory source span points names =>
    match (Sample.take span points source).1 with
    | .ok sample => Task.ofStates? available sample.states false names
    | .error _ => none
  | states sample onlyPosition names => Task.ofStates? available sample onlyPosition names

namespace Converter

/-- Convert as a call asks. -/
def call (c : Converter α σ) : Call π α → Action α (Session α σ) (AnalyticPropagator α)
  | .trajectory source span points names =>
    (c.convert span points names).onPart (fun s => (s, source)) fun t _ => t.1
  | .states states onlyPosition names => c.convertStates states onlyPosition names

/-- The session after calls, one after the other. -/
def afterCalls (c : Converter α σ) (s : Session α σ) (calls : List (Call π α)) : Session α σ :=
  calls.foldl (fun s call => (exec (c.call call) s).2) s

end Converter

end Calls

/-! ## One call -/

section OneCall

variable {π α σ : Type}

/-- Builders with the same parameters, frame and history of Earth orientation. -/
structure Builder.Alike (b b' : Builder α) : Prop where
  available : b'.available = b.available
  frame : b'.frame = b.frame
  eop : b'.eop = b.eop

namespace Builder

variable {b b' b'' : Builder α}

theorem Alike.refl (b : Builder α) : Alike b b := ⟨rfl, rfl, rfl⟩

theorem Alike.trans (h : Alike b b') (h' : Alike b' b'') : Alike b b'' :=
  ⟨h'.available.trans h.available, h'.frame.trans h.frame, h'.eop.trans h.eop⟩

theorem Evaluated.alike (h : Evaluated b b') : Alike b b' := ⟨h.available_eq, h.frame_eq, h.eop_eq⟩

theorem alike_of_withFree {names : List String} (h : b.withFree names = .ok b') : Alike b b' := by
  have hav := available_withFree h
  obtain ⟨-, rfl⟩ := withFree_eq_ok_iff.mp h
  exact ⟨hav, rfl, rfl⟩

end Builder

section Checks

variable {available names : List String} {states : List (OrbitState α)} {onlyPosition : Bool} {s : Session α σ}

theorem Task.ofStates?_eq_some {task : Task α}
    (h : Task.ofStates? available states onlyPosition names = some task) :
    states = task.first :: task.rest ∧ onlyPosition = task.onlyPosition ∧ names = task.names ∧
      (∀ name ∈ names, name ∈ available) ∧ Converter.minimumStates onlyPosition ≤ states.length := by
  unfold Task.ofStates? at h
  cases states with
  | nil => cases h
  | cons first rest =>
    obtain ⟨hc, ht⟩ := Option.ite_none_right_eq_some.mp h
    obtain rfl := Option.some.inj ht
    exact ⟨rfl, rfl, rfl, hc⟩

namespace Converter

theorem exec_checkNames_of_mem (h : ∀ name ∈ names, name ∈ s.builder.available) :
    exec (checkNames names) s = (.ok ⟨⟩, s) := by
  have hfind : (names.find? fun name => !s.builder.available.contains name) = none := by simpa using h
  rw [checkNames, exec_bind_ok (exec_get s)]
  dsimp only
  rw [hfind]
  rfl

theorem exec_checkNames_of_not_mem (h : ¬ ∀ name ∈ names, name ∈ s.builder.available) :
    ∃ fault, exec (checkNames names) s = (.error fault, s) := by
  rw [checkNames, exec_bind_ok (exec_get s)]
  dsimp only
  cases hfind : names.find? fun name => !s.builder.available.contains name with
  | none => exact absurd (by simpa using hfind) h
  | some name => exact ⟨_, rfl⟩

variable [Scalar α] {c : Converter α σ}

theorem exec_convertStates_of_none
    (h : Task.ofStates? s.builder.available states onlyPosition names = none) :
    ∃ fault, exec (c.convertStates states onlyPosition names) s = (.error fault, s) := by
  by_cases hn : ∀ name ∈ names, name ∈ s.builder.available
  · rw [convertStates, exec_bind_ok (exec_checkNames_of_mem hn)]
    cases states with
    | nil => exact ⟨_, rfl⟩
    | cons first rest =>
      -- there is a first state and the names are known, so what is wrong is the number of states
      have hfew : (first :: rest).length < minimumStates onlyPosition := by
        unfold Task.ofStates? at h
        dsimp only at h
        split_ifs at h with hc
        exact Nat.not_le.mp fun hle => hc ⟨hn, hle⟩
      dsimp only
      rw [if_pos hfew]
      exact ⟨_, rfl⟩
  · obtain ⟨fault, he⟩ := exec_checkNames_of_not_mem hn
    exact ⟨fault, exec_bind_error he _⟩

variable {task : Task α}

/-- A task is adapted with its parameters free. -/
theorem exec_convertStates_of_some
    (h : Task.ofStates? s.builder.available states onlyPosition names = some task) :
    ∃ b, s.builder.withFree task.names = .ok b ∧ exec (c.convertStates states onlyPosition names) s =
      exec (c.adapt task.first task.states task.onlyPosition task.names)
        { s with freeParameters := task.names, builder := b } := by
  obtain ⟨rfl, rfl, rfl, hn, hm⟩ := Task.ofStates?_eq_some h
  obtain ⟨b, hb⟩ : ∃ b, s.builder.withFree task.names = .ok b := ⟨_, withFree_eq_ok_iff.mpr ⟨hn, rfl⟩⟩
  refine ⟨b, hb, ?_⟩
  rw [convertStates, exec_bind_ok (exec_checkNames_of_mem hn)]
  dsimp only
  rw [if_neg (Nat.not_lt.mpr hm), exec_bind_ok (exec_modify _ _), exec_bind_ok (exec_get _)]
  dsimp only
  rw [hb, exec_bind_ok (exec_ofExcept _ _), exec_bind_ok (exec_modify _ _)]
  rfl

end Converter

end Checks

section Call

variable {names : List String} {s : Session α σ} [Scalar α] [Propagator π α] {c : Converter α σ} {source : π}
  {span : α} {points : Int}

namespace Converter

/-- A trajectory is converted as the states that are sampled from it. -/
theorem exec_convert_of_mem (hn : ∀ name ∈ names, name ∈ s.builder.available) :
    exec (c.convert span points names) (s, source) =
      match Sample.take span points source with
      | (.error fault, source') => (.error fault, s, source')
      | (.ok sample, source') =>
        let ended := exec (c.convertStates sample.states false names)
          (s.report (.sampled sample.states.length sample.span sample.step))
        (ended.1, ended.2, source') := by
  have hcheck : exec (checkNames names).onFirst (s, source) = (.ok ⟨⟩, s, source) := by
    rw [exec_onFirst, exec_checkNames_of_mem hn]
  rw [convert, exec_bind_ok hcheck, exec_bind, exec_onSecond, exec_ofStep]
  rcases Sample.take span points source with ⟨_ | sample, source'⟩ <;> rfl

/-- Names that are refused are refused before anything is sampled. -/
theorem exec_convert_of_error {fault : Fault α} (h : exec (checkNames names) s = (.error fault, s)) :
    exec (c.convert span points names) (s, source) = (.error fault, s, source) := by
  have hcheck : exec (checkNames names).onFirst (s, source) = (.error fault, s, source) := by
    rw [exec_onFirst, h]
  rw [convert, exec_bind_error hcheck]

theorem exec_convert_of_not_mem (hn : ¬ ∀ name ∈ names, name ∈ s.builder.available) :
    ∃ fault, exec (c.convert span points names) (s, source) = (.error fault, s, source) := by
  obtain ⟨fault, he⟩ := exec_checkNames_of_not_mem hn
  exact ⟨fault, exec_convert_of_error he⟩

/-- **A call that is turned away** fails, and leaves everything but the journal as it was. -/
theorem exec_call_of_none {call : Call π α} (h : call.task? s.builder.available = none) :
    ∃ fault journal, exec (c.call call) s = (.error fault, { s with journal }) := by
  cases call with
  | states states onlyPosition names =>
    obtain ⟨fault, he⟩ := exec_convertStates_of_none (c := c) h
    exact ⟨fault, s.journal, he⟩
  | trajectory source span points names =>
    rw [Converter.call, exec_onPart]
    by_cases hn : ∀ name ∈ names, name ∈ s.builder.available
    · rw [exec_convert_of_mem hn]
      rcases hs : Sample.take span points source with ⟨fault | sample, source'⟩
      · exact ⟨fault, s.journal, rfl⟩
      · simp only [Call.task?, hs] at h
        let event : Event α := .sampled sample.states.length sample.span sample.step
        obtain ⟨fault, hc⟩ := exec_convertStates_of_none (c := c) (s := s.report event) h
        dsimp only
        rw [hc]
        exact ⟨fault, event :: s.journal, rfl⟩
    · obtain ⟨fault, he⟩ : ∃ fault, exec (c.convert span points names) (s, source) = (.error fault, s, source) :=
        exec_convert_of_not_mem hn
      rw [he]
      exact ⟨fault, s.journal, rfl⟩

variable {settings : FitSettings α} {optimizer : FitProblem α → StateM σ (Run α (Optimum α))} {task : Task α}

/-- **A call that is a task** adapts the session, with the parameters of the task free. -/
theorem exec_call_of_some {call : Call π α} (h : call.task? s.builder.available = some task) :
    ∃ b journal, s.builder.withFree task.names = .ok b ∧
      exec (c.call call) s = exec (c.adapt task.first task.states task.onlyPosition task.names)
        { s with freeParameters := task.names, builder := b, journal } := by
  cases call with
  | states states onlyPosition names =>
    obtain ⟨b, hb, he⟩ := exec_convertStates_of_some (c := c) h
    exact ⟨b, s.journal, hb, he⟩
  | trajectory source span points names =>
    rcases hs : Sample.take span points source with ⟨fault | sample, source'⟩
    · simp only [Call.task?, hs] at h
      cases h
    · simp only [Call.task?, hs] at h
      obtain ⟨-, -, -, hn, -⟩ := Task.ofStates?_eq_some h
      let event : Event α := .sampled sample.states.length sample.span sample.step
      obtain ⟨b, hb, he⟩ := exec_convertStates_of_some (c := c) (s := s.report event) h
      refine ⟨b, event :: s.journal, hb, ?_⟩
      rw [Converter.call, exec_onPart, exec_convert_of_mem hn, hs]
      exact he

/-- **A call that is a task** ends with a coherent session, or without a result. -/
theorem ends_call {call : Call π α} (h : call.task? s.builder.available = some task) :
    Ends ((standard s.builder.frame settings optimizer).call call) s
      (fun p s' => Alike s.builder s'.builder ∧ ∃ res, s'.result = some res ∧ res.propagator = p ∧
        s'.Coherent task res)
      (fun _ s' => Alike s.builder s'.builder ∧ s'.result = none) := by
  obtain ⟨b, journal, hb, he⟩ := exec_call_of_some (c := standard s.builder.frame settings optimizer) h
  have halike := alike_of_withFree hb
  have hfree : b.free = task.names := by rw [(withFree_eq_ok_iff.mp hb).2]
  refine (ends_congr he).mpr ((ends_adapt halike.frame hfree rfl).mono ?_ ?_)
  · rintro p s' ⟨hs, hres⟩
    exact ⟨halike.trans hs.alike, hres⟩
  · rintro fault s' ⟨hs, hres⟩
    exact ⟨halike.trans hs.alike, hres⟩

theorem afterCalls_concat (c : Converter α σ) (s : Session α σ) (calls : List (Call π α)) (call : Call π α) :
    c.afterCalls s (calls ++ [call]) = (exec (c.call call) (c.afterCalls s calls)).2 := by
  unfold afterCalls
  rw [List.foldl_append]
  rfl

end Converter

end Call

end OneCall

/-! ## Any calls -/

section AnyCalls

open Converter Session

variable {π α σ : Type} [Scalar α] [Propagator π α]
variable (b : Builder α) (world : σ) (settings : FitSettings α)
  (optimizer : FitProblem α → StateM σ (Run α (Optimum α)))

/-- The session of a new converter for a builder, after calls. -/
def Session.reached (calls : List (Call π α)) : Session α σ :=
  (standard b.frame settings optimizer).afterCalls (start b world) calls

/-- A result stems from the last of some calls that is a task. -/
def Session.Stems (calls : List (Call π α)) (task : Task α) (res : Conversion α) : Prop :=
  ∃ before call later s', calls = before ++ call :: later ∧ call.task? b.available = some task ∧
    (∀ other ∈ later, other.task? b.available = none) ∧
    exec ((standard b.frame settings optimizer).call call) (reached b world settings optimizer before) =
      (.ok res.propagator, s') ∧ s'.result = some res

variable {b}

/-- What a call does: it is turned away, or it is a task, which succeeds or fails. -/
theorem call_cases {s : Session α σ} (h : Alike b s.builder) (call : Call π α) :
    (call.task? b.available = none ∧ ∃ fault journal,
      exec ((standard b.frame settings optimizer).call call) s = (.error fault, { s with journal })) ∨
    ∃ task, call.task? b.available = some task ∧
      ((∃ res s', exec ((standard b.frame settings optimizer).call call) s = (.ok res.propagator, s') ∧
        Alike b s'.builder ∧ s'.result = some res ∧ s'.Coherent task res) ∨
      ∃ fault s', exec ((standard b.frame settings optimizer).call call) s = (.error fault, s') ∧
        Alike b s'.builder ∧ s'.result = none) := by
  -- what counts as a task depends on the names of the parameters only
  rw [← h.available, ← h.frame]
  cases ht : call.task? s.builder.available with
  | none => exact Or.inl ⟨rfl, exec_call_of_none ht⟩
  | some task =>
    refine Or.inr ⟨task, rfl, ?_⟩
    have hend : Ends ((standard s.builder.frame settings optimizer).call call) s _ _ := ends_call ht
    rcases he : exec ((standard s.builder.frame settings optimizer).call call) s with ⟨fault | p, s'⟩
    · obtain ⟨ha, hres⟩ := hend.of_error he
      exact Or.inr ⟨fault, s', rfl, h.trans ha, hres⟩
    · obtain ⟨ha, res, hres, rfl, hc⟩ := hend.of_ok he
      exact Or.inl ⟨res, s', rfl, h.trans ha, hres, hc⟩

variable {settings optimizer}

theorem reached_concat (calls : List (Call π α)) (call : Call π α) :
    reached b world settings optimizer (calls ++ [call]) =
      (exec ((standard b.frame settings optimizer).call call) (reached b world settings optimizer calls)).2 :=
  afterCalls_concat _ _ calls call

/-- No call changes the parameters, the frame or the history of Earth orientation of the builder. -/
theorem alike_reached (calls : List (Call π α)) : Alike b (reached b world settings optimizer calls).builder := by
  induction calls using List.reverseRecOn with
  | nil => exact Alike.refl b
  | append_singleton calls call ih =>
    rw [reached_concat]
    obtain ⟨-, fault, journal, he⟩ | ⟨task, -, ⟨res, s', he, ha, -⟩ | ⟨fault, s', he, ha, -⟩⟩ :=
      call_cases settings optimizer ih call
    · rw [he]
      exact ih
    · rw [he]
      exact ha
    · rw [he]
      exact ha

theorem Session.Stems.concat {calls : List (Call π α)} {task : Task α} {res : Conversion α}
    (h : Stems b world settings optimizer calls task res) {call : Call π α} (hcall : call.task? b.available = none) :
    Stems b world settings optimizer (calls ++ [call]) task res := by
  obtain ⟨before, origin, later, s', rfl, htask, hlater, he, hres⟩ := h
  refine ⟨before, origin, later ++ [call], s', ?_, htask, ?_, he, hres⟩
  · rw [List.append_assoc, List.cons_append]
  · intro other ho
    obtain ho | ho := List.mem_append.mp ho
    · exact hlater other ho
    · rw [List.mem_singleton.mp ho, hcall]

/-- A result that is there stems from the last task and is coherent. -/
theorem stems_reached (calls : List (Call π α)) : ∀ res, (reached b world settings optimizer calls).result = some res →
    ∃ task, Stems b world settings optimizer calls task res ∧
      (reached b world settings optimizer calls).Coherent task res := by
  induction calls using List.reverseRecOn with
  | nil => nofun
  | append_singleton calls call ih =>
    intro res hr
    rw [reached_concat] at hr ⊢
    obtain ⟨hnone, fault, journal, he⟩ | ⟨task, htask, ⟨res', s', he, -, hres, hc⟩ | ⟨fault, s', he, -, hres⟩⟩ :=
      call_cases settings optimizer (alike_reached world calls) call
    · -- turned away: the result is still that of an earlier task, which stays the last one
      rw [he] at hr ⊢
      obtain ⟨task, hs, hc⟩ := ih res hr
      exact ⟨task, hs.concat world hnone, { hc with }⟩
    · rw [he] at hr ⊢
      obtain rfl := Option.some.inj (hres.symm.trans hr)
      exact ⟨task, ⟨calls, call, [], s', rfl, htask, nofun, he, hres⟩, hc⟩
    · rw [he] at hr
      cases hres.symm.trans hr

variable (b settings optimizer)

/-- **A result is that of the last task**: after any calls, by any optimizer, a result that is there stems from the
last call that passed the checks, and belongs to what the session shows beside it; and a task that fails leaves no
result and no propagator. -/
theorem conversions_coherent (calls : List (Call π α)) :
    Alike b (reached b world settings optimizer calls).builder ∧
      (∀ res, (reached b world settings optimizer calls).result = some res →
        ∃ task, Stems b world settings optimizer calls task res ∧
          (reached b world settings optimizer calls).Coherent task res) ∧
      ∀ (call : Call π α) (task : Task α) (fault : Fault α) (s' : Session α σ),
        call.task? b.available = some task →
        exec ((standard b.frame settings optimizer).call call) (reached b world settings optimizer calls) =
          (.error fault, s') → s'.result = none ∧ s'.adapted = none := by
  refine ⟨alike_reached world calls, stems_reached world calls, fun call task fault s' ht he => ?_⟩
  obtain ⟨hnone, -⟩ | ⟨-, -, ⟨res, t, he', -⟩ | ⟨fault', t, he', -, hres⟩⟩ :=
    call_cases settings optimizer (alike_reached world calls) call
  · cases hnone.symm.trans ht
  · cases he'.symm.trans he
  · obtain ⟨-, rfl⟩ := Prod.mk.inj (he'.symm.trans he)
    exact ⟨hres, by rw [adapted, hres]; rfl⟩

end AnyCalls

/-! ## States over the poles -/

section OverPole

open Converter Session

/-- A state over the poles that goes up at some speed. -/
noncomputable def upward (speed : ℝ) : OrbitState ℝ := ⟨0, ⟨1, 0, 0⟩, ⟨0, 0, speed⟩, 1, .eci⟩

/-- One at the periapsis of an ellipse. -/
noncomputable def overPole : OrbitState ℝ := upward 1.25

/-- A builder for its motion. -/
noncomputable def twoBody : Builder ℝ := kepler 1 .eci none

/-- An optimizer that stays at that state. -/
noncomputable def staying : FitProblem ℝ → StateM Unit (Run ℝ (Optimum ℝ)) :=
  settled (NdArray.ofList [1, 0, 0, 0, 0, 1.25])

/-- An optimizer that gives up. -/
def givingUp : FitProblem ℝ → StateM Unit (Run ℝ (Optimum ℝ)) := fun _ => pure (.done (.error .evaluationLimit))

/-- A request to convert states as they are. -/
def asTheyAre (states : List (OrbitState ℝ)) : Call (AnalyticPropagator ℝ) ℝ := .states states false []

/-- The state is still there in no time. -/
theorem stateAt_overPole : (AnalyticPropagator.mk .kepler overPole none).stateAt 0 = .ok overPole := by
  show (MotionModel.kepler.advanceWith eccentricAnomaly ⟨1, 0, 0⟩ ⟨0, 0, 1.25⟩ (secondsBetween 0 0) 1).bind _ = _
  rw [secondsBetween, sub_zero, zero_mul, MotionModel.advanceWith, keplerMotion_eq_j2Motion, motion_upward]
  rfl

/-- The point that the optimizer stays at has the components of that state, whatever the sample is. -/
theorem components_overPole (speed : ℝ) : Objective.components ⟨[upward speed], .known .eci, false, 0, none⟩
    ⟨.kepler, overPole, none⟩ = .ok (NdArray.ofList [1, 0, 0, 0, 0, 1.25]) := by
  have hrow : Objective.componentsAt ⟨[upward speed], .known .eci, false, 0, none⟩ ⟨.kepler, overPole, none⟩
      (upward speed).epoch = .ok [1, 0, 0, 0, 0, 1.25] := by
    rw [componentsAt_eq]
    show (AnalyticPropagator.stateAt _ 0).bind _ = _
    rw [stateAt_overPole]
    rfl
  exact bind_eq_ok_iff.mpr ⟨_, mapM_cons_eq_ok_iff.mpr ⟨_, [], hrow, rfl, rfl⟩, rfl⟩

/-- A state that goes up is converted by the optimizer that stays. -/
theorem exists_exec_upward (speed : ℝ) : ∃ s', exec ((standard twoBody.frame ⟨1, 1, .forward⟩ staying).call
    (asTheyAre [upward speed])) (start twoBody ()) = (.ok ⟨.kepler, overPole, none⟩, s') := by
  have htask : Task.ofStates? (start twoBody ()).builder.available [upward speed] false [] =
    some ⟨upward speed, [], false, []⟩ := rfl
  obtain ⟨b, hb, he⟩ := exec_convertStates_of_some (c := standard twoBody.frame ⟨1, 1, .forward⟩ staying) htask
  obtain rfl : twoBody = b := Except.ok.inj hb
  have hend : Ends ((standard twoBody.frame ⟨1, 1, .forward⟩ staying).convertStates [upward speed] false [])
      (start twoBody ()) (fun p s' => p = ⟨.kepler, overPole, none⟩ ∧ s'.evaluations = 0) (fun _ _ => False) :=
    (ends_congr he).mpr (ends_adapt_of_staysAt staysAt_settled ⟨upward speed, [], false, []⟩ rfl rfl rfl rfl
      (components_overPole speed) rfl)
  rcases h : exec ((standard twoBody.frame ⟨1, 1, .forward⟩ staying).convertStates [upward speed] false [])
    (start twoBody ()) with ⟨fault | p, s'⟩
  · exact (hend.of_error h).elim
  · obtain ⟨rfl, -⟩ := hend.of_ok h
    exact ⟨s', h⟩

/-- The session after that and after an empty sample. -/
noncomputable def emptyBehind (speed : ℝ) : Session ℝ Unit :=
  reached twoBody () ⟨1, 1, .forward⟩ staying [asTheyAre [upward speed], asTheyAre []]

/-- An empty sample is turned away, and the result stays. -/
theorem exists_result_upward (speed : ℝ) : ∃ res, (emptyBehind speed).result = some res ∧
    res.propagator = ⟨.kepler, overPole, none⟩ ∧ (emptyBehind speed).Coherent ⟨upward speed, [], false, []⟩ res := by
  obtain ⟨s, he⟩ := exists_exec_upward speed
  obtain ⟨-, fault, journal, he'⟩ | ⟨task, htask, ⟨res, s', he', -, hres, hcoherent⟩ | ⟨fault, s', he', -⟩⟩ :=
    call_cases ⟨1, 1, .forward⟩ staying (s := start twoBody ()) (Alike.refl twoBody) (asTheyAre [upward speed])
  · cases he.symm.trans he'
  · obtain rfl := Option.some.inj htask
    obtain ⟨hp, rfl⟩ := Prod.mk.inj (he.symm.trans he')
    obtain ⟨fault, journal, hempty⟩ : ∃ fault journal, exec ((standard twoBody.frame ⟨1, 1, .forward⟩ staying).call
        (asTheyAre [])) s = (.error fault, { s with journal }) := exec_call_of_none rfl
    have hs : emptyBehind speed = { s with journal } := by
      show (exec _ (exec _ (start twoBody ())).2).2 = _
      rw [he', hempty]
    rw [hs]
    exact ⟨res, hres, (Except.ok.inj hp).symm, { hcoherent with }⟩
  · cases he.symm.trans he'

/-- What is coherent for the sample and that propagator misses one of six components by a quarter. -/
theorem rms_upward {s : Session ℝ Unit} {task : Task ℝ} {res : Conversion ℝ} (h : s.Coherent task res)
    (hs : Alike twoBody s.builder) (hp : res.propagator = ⟨.kepler, overPole, none⟩)
    (hsample : s.sample = [upward 1]) (honly : s.onlyPosition = false) :
    s.targets.target = [1, 0, 0, 0, 0, 1] ∧ res.rms = √((1 / 4) ^ 2 / 6) := by
  have hframe : s.builder.frame = .eci := hs.frame
  have heop : s.builder.eop = none := hs.eop
  have htargets := h.targets
  obtain ⟨rows, hrows, -, hrms⟩ := h.rms
  rw [hsample, hframe, heop, honly] at htargets hrows
  have htarget : s.targets.target = [1, 0, 0, 0, 0, 1] := by rw [← Except.ok.inj htargets]; rfl
  have hmodel := components_overPole 1
  rw [← hp] at hmodel
  obtain ⟨rows', hrows', hflat⟩ := components_eq_ok hmodel
  obtain rfl := Except.ok.inj (hrows.symm.trans hrows')
  have hflat : rows.flatten = [1, 0, 0, 0, 0, 1.25] := (congrArg NdArray.data hflat).symm
  refine ⟨htarget, ?_⟩
  rw [hrms, hflat, htarget]
  norm_num

/-- After a state was converted by the optimizer that stays, and an empty sample was turned away, there is a result of
the first: what is left of the speed of one is a quarter, and nothing of the five other components.  An optimizer that
gives up leaves none. -/
theorem conversions_coherent_overPole :
    (∃ res task, (emptyBehind 1).result = some res ∧
      Stems twoBody () ⟨1, 1, .forward⟩ staying [asTheyAre [upward 1], asTheyAre []] task res ∧
      (emptyBehind 1).Coherent task res ∧ res.propagator.initial = overPole ∧
      (emptyBehind 1).targets.target = [1, 0, 0, 0, 0, 1] ∧ res.rms = √((1 / 4) ^ 2 / 6)) ∧
    ∃ fault s', exec ((standard twoBody.frame ⟨1, 1, .forward⟩ givingUp).call (asTheyAre [overPole]))
      (reached twoBody () ⟨1, 1, .forward⟩ givingUp ([] : List (Call (AnalyticPropagator ℝ) ℝ))) =
        (.error fault, s') ∧ s'.result = none ∧ s'.adapted = none := by
  constructor
  · obtain ⟨res, hres, hp, hupward⟩ := exists_result_upward 1
    obtain ⟨halike, hresult, -⟩ := conversions_coherent twoBody () ⟨1, 1, .forward⟩ staying
      [asTheyAre [upward 1], asTheyAre []]
    obtain ⟨task, hstems, hcoherent⟩ := hresult res hres
    obtain ⟨htarget, hrms⟩ := rms_upward hcoherent halike hp hupward.sample hupward.onlyPosition
    exact ⟨res, task, hres, hstems, hcoherent, by rw [hp], htarget, hrms⟩
  · refine ⟨_, _, rfl, ?_⟩
    exact (conversions_coherent twoBody () ⟨1, 1, .forward⟩ givingUp []).2.2 (asTheyAre [overPole])
      ⟨overPole, [], false, []⟩ _ _ rfl rfl

end OverPole

end OrbitFit
