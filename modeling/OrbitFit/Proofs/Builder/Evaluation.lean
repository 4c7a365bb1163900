import Mathlib.Data.List.Induction
import OrbitFit.Objective
import OrbitFit.Proofs.Action

/-!
# OrbitFit.Proofs.Builder.Evaluation — evaluations rewrite what evaluations wrote

A builder is shared by all objectives of a fit, and every evaluation writes to it.  What it writes are the values of
the free parameters, all of them or none, so the builder that any evaluations leave is the first one, or the first
one with values placed in its free parameters (`Evaluated`).  The next evaluation places its own values over those
before anything is read, or reads nothing.

* `place_eq`, `placed_placed`: placing values, parameter by parameter; the later values win.
* `build_cases`: what building does to the builder and what it makes of the point.
* `evaluation_history_free`: an objective is a function of the point.
-/

namespace OrbitFit

variable {α : Type}

/-! ## Placing values -/

section Placing

/-- The value that a list of named values gives to a name, the last one if there are several. -/
def lastValue? (values : List (String × α)) (name : String) : Option α :=
  values.foldl (fun found entry => if name == entry.1 then some entry.2 else found) none

/-- The parameter after named values were placed. -/
def Parameter.placed (values : List (String × α)) (p : Parameter α) : Parameter α :=
  match lastValue? values p.name with
  | some x => { p with value := [x] }
  | none => p

theorem lastValue?_concat (values : List (String × α)) (entry : String × α) (name : String) :
    lastValue? (values ++ [entry]) name =
      if name = entry.1 then some entry.2 else lastValue? values name := by
  simp [lastValue?, List.foldl_append]

theorem lastValue?_isSome {values : List (String × α)} {name : String} :
    (lastValue? values name).isSome ↔ name ∈ values.map Prod.fst := by
  induction values using List.reverseRecOn with
  | nil => simp [lastValue?]
  | append_singleton values entry ih =>
    rw [lastValue?_concat, List.map_append, List.mem_append]
    by_cases h : name = entry.1
    · simp [h]
    · simp [h, ih]

/-- A value that is given comes from an entry. -/
theorem mem_of_lastValue? {values : List (String × α)} {name : String} {x : α}
    (h : lastValue? values name = some x) : (name, x) ∈ values := by
  induction values using List.reverseRecOn with
  | nil => simp [lastValue?] at h
  | append_singleton values entry ih =>
    rw [lastValue?_concat] at h
    split_ifs at h with he
    · obtain rfl := Option.some.inj h
      exact List.mem_append_right _ (by simp [he])
    · exact List.mem_append_left _ (ih h)

namespace Parameter

@[simp] theorem placed_name (values : List (String × α)) (p : Parameter α) : (p.placed values).name = p.name := by
  unfold placed
  split <;> rfl

@[simp] theorem placed_estimated (values : List (String × α)) (p : Parameter α) :
    (p.placed values).estimated = p.estimated := by
  unfold placed
  split <;> rfl

theorem placed_of_some {values : List (String × α)} {p : Parameter α} {x : α}
    (h : lastValue? values p.name = some x) : p.placed values = { p with value := [x] } := by
  unfold placed
  rw [h]

theorem placed_of_none {values : List (String × α)} {p : Parameter α} (h : lastValue? values p.name = none) :
    p.placed values = p := by
  unfold placed
  rw [h]

/-- Values placed over others for the same names are as if they were placed first. -/
theorem placed_placed {first second : List (String × α)} (h : first.map Prod.fst = second.map Prod.fst)
    (p : Parameter α) : (p.placed first).placed second = p.placed second := by
  have hsome : (lastValue? first p.name).isSome ↔ (lastValue? second p.name).isSome := by
    rw [lastValue?_isSome, lastValue?_isSome, h]
  cases h2 : lastValue? second p.name with
  | some x =>
    rw [placed_of_some h2, placed_of_some (x := x) (by rw [placed_name, h2])]
    unfold placed
    split <;> rfl
  | none =>
    have h1 : lastValue? first p.name = none := by
      rw [h2, Option.isSome_none] at hsome
      simpa using hsome
    rw [placed_of_none h1]

end Parameter

namespace Builder

theorem place_eq (b : Builder α) (values : List (String × α)) :
    b.place values = { b with parameters := b.parameters.map (Parameter.placed values) } := by
  induction values using List.reverseRecOn with
  | nil =>
    have h : Parameter.placed ([] : List (String × α)) = id := funext fun p => Parameter.placed_of_none rfl
    rw [h, List.map_id]
    rfl
  | append_singleton values entry ih =>
    have hstep : b.place (values ++ [entry]) = (b.place values).place [entry] := by
      simp only [place, List.foldl_append]
    rw [hstep, ih]
    simp only [place, List.foldl_cons, List.foldl_nil, List.map_map]
    congr 1
    refine List.map_congr_left fun p _ => ?_
    simp only [Function.comp_apply, Parameter.placed_name, beq_iff_eq]
    by_cases h : p.name = entry.1
    · have hlast : lastValue? (values ++ [entry]) p.name = some entry.2 := by rw [lastValue?_concat, if_pos h]
      rw [if_pos h, Parameter.placed_of_some hlast]
      unfold Parameter.placed
      split <;> rfl
    · rw [if_neg h]
      unfold Parameter.placed
      rw [lastValue?_concat, if_neg h]

theorem place_place {first second : List (String × α)} (h : first.map Prod.fst = second.map Prod.fst)
    (b : Builder α) : (b.place first).place second = b.place second := by
  simp only [place_eq, List.map_map]
  congr 1
  exact List.map_congr_left fun p _ => Parameter.placed_placed h p

end Builder

end Placing

/-! ## Looking values up -/

section Lookup

namespace Builder

variable {b : Builder α} {name : String} {values : List (String × α)}

theorem parameter_eq_ok_iff : (∃ p, b.parameter name = .ok p) ↔ name ∈ b.available := by
  have hfind : (b.parameters.find? fun p => p.name == name).isSome ↔ name ∈ b.available := by
    simp [available, List.find?_isSome]
  rw [← hfind]
  unfold parameter
  cases b.parameters.find? fun p => p.name == name with
  | some p => exact iff_of_true ⟨p, rfl⟩ rfl
  | none => exact iff_of_false (by rintro ⟨_, ⟨⟩⟩) (by simp)

theorem place_available (b : Builder α) (values : List (String × α)) : (b.place values).available = b.available := by
  simp only [available, place_eq, List.map_map]
  exact List.map_congr_left fun p _ => Parameter.placed_name values p

theorem parameter_place (b : Builder α) (values : List (String × α)) (name : String) :
    (b.place values).parameter name = (b.parameter name).map (Parameter.placed values) := by
  have hfind : ((b.place values).parameters.find? fun p => p.name == name) =
      (b.parameters.find? fun p => p.name == name).map (Parameter.placed values) := by
    rw [place_eq, List.find?_map]
    simp only [Function.comp_def, Parameter.placed_name]
  unfold parameter
  rw [hfind, place_available]
  cases b.parameters.find? fun p => p.name == name <;> rfl

theorem parameter_name {p : Parameter α} (h : b.parameter name = .ok p) : p.name = name := by
  unfold parameter at h
  cases hf : b.parameters.find? fun p => p.name == name with
  | none => rw [hf] at h; cases h
  | some q =>
    rw [hf] at h
    obtain rfl := Except.ok.inj h
    simpa using List.find?_some hf

/-- The value of a parameter is the one that is placed, or the one that was there. -/
theorem value_place (hn : name ∈ b.available) : (b.place values).value name =
    match lastValue? values name with
    | some x => .ok x
    | none => b.value name := by
  obtain ⟨p, hp⟩ := parameter_eq_ok_iff.mpr hn
  obtain rfl := parameter_name hp
  have hplaced : (b.place values).value p.name = (p.placed values).first := by
    rw [value, parameter_place, hp]
    rfl
  cases hl : lastValue? values p.name with
  | some x =>
    rw [hplaced, Parameter.placed_of_some hl]
    rfl
  | none =>
    rw [hplaced, Parameter.placed_of_none hl, value, hp]
    rfl

theorem create_eq {mu : α} {m : MotionModel α} (hmu : b.value muName = .ok mu) (hm : b.model = .ok m) (epoch : α)
    (r v : Vec3 α) : b.create epoch r v = .ok ⟨m, ⟨epoch, r, v, mu, b.frame⟩, b.eop⟩ := by
  simp only [create, hmu, hm, bind, Except.bind]
  rfl

theorem create_eq_ok {epoch : α} {r v : Vec3 α} {p : AnalyticPropagator α} (h : b.create epoch r v = .ok p) :
    ∃ mu, p.initial = ⟨epoch, r, v, mu, b.frame⟩ ∧ p.eop = b.eop := by
  unfold create at h
  obtain ⟨mu, -, h⟩ := bind_eq_ok_iff.mp h
  obtain ⟨m, -, h⟩ := bind_eq_ok_iff.mp h
  obtain rfl := Except.ok.inj h
  exact ⟨mu, rfl, rfl⟩

/-- Parameters can be set free exactly if the builder has them. -/
theorem withFree_eq_ok_iff {names : List String} {b' : Builder α} : b.withFree names = .ok b' ↔
    (∀ name ∈ names, name ∈ b.available) ∧ b' = { b with
      parameters := b.parameters.map fun p => { p with estimated := names.contains p.name }
      free := names } := by
  unfold withFree
  constructor
  · intro h
    obtain ⟨ps, hps, h⟩ := bind_eq_ok_iff.mp h
    exact ⟨fun name hn => parameter_eq_ok_iff.mp (exists_mapM_iff.mp ⟨ps, hps⟩ name hn), (Except.ok.inj h).symm⟩
  · rintro ⟨hn, rfl⟩
    obtain ⟨ps, hps⟩ := exists_mapM_iff.mpr fun name h => parameter_eq_ok_iff.mpr (hn name h)
    exact bind_eq_ok_iff.mpr ⟨ps, hps, rfl⟩

theorem free_withFree {names : List String} {b' : Builder α} (h : b.withFree names = .ok b') : b'.free = names := by
  obtain ⟨-, rfl⟩ := withFree_eq_ok_iff.mp h
  rfl

theorem available_withFree {names : List String} {b' : Builder α} (h : b.withFree names = .ok b') :
    b'.available = b.available := by
  obtain ⟨-, rfl⟩ := withFree_eq_ok_iff.mp h
  simp only [available, List.map_map, Function.comp_def]

/-- Which parameters are free does not change what they are. -/
theorem value_withFree {names : List String} {b' : Builder α} (h : b.withFree names = .ok b') (name : String) :
    b'.value name = b.value name := by
  have hav := available_withFree h
  obtain ⟨-, rfl⟩ := withFree_eq_ok_iff.mp h
  unfold value parameter
  rw [hav, List.find?_map]
  simp only [Function.comp_def]
  cases b.parameters.find? fun p => p.name == name <;> rfl

end Builder

end Lookup

/-! ## Building -/

section Building

namespace Builder

variable {b : Builder α} {epoch : α} {point : NdArray α}

theorem place_free (b : Builder α) (values : List (String × α)) : (b.place values).free = b.free := by
  rw [place_eq]

theorem exec_build_of_shape_ne (h : point.shape ≠ [b.pointSize]) :
    (build epoch point).exec b = (.error (.pointShape b.pointSize b.free.length point.shape), b) := by
  have hb : (point.shape == [b.pointSize]) = false := by simpa using h
  rw [build, Action.exec_bind_ok (Action.exec_get b), hb]
  rfl

/-- A point is a position, a velocity and the values of the free parameters. -/
theorem exec_build_of_data {r v : Vec3 α} {values : List α} (hs : point.shape = [b.pointSize])
    (hd : point.data = r.toList ++ v.toList ++ values) : (build epoch point).exec b =
      ((b.place (b.free.zip values)).create epoch r v, b.place (b.free.zip values)) := by
  have hb : (point.shape == [b.pointSize]) = true := by simpa using hs
  rw [build, Action.exec_bind_ok (Action.exec_get b), hb, hd]
  rfl

theorem exists_of_shape (hs : point.shape = [b.pointSize]) : ∃ (r v : Vec3 α) (values : List α),
    point.data = r.toList ++ v.toList ++ values ∧ values.length = b.free.length := by
  have hl : point.data.length = 6 + b.free.length := NdArray.length_data_of_row hs
  match hd : point.data, hl with
  | x :: y :: z :: vx :: vy :: vz :: values, hl =>
    refine ⟨⟨x, y, z⟩, ⟨vx, vy, vz⟩, values, rfl, ?_⟩
    simp only [List.length_cons] at hl
    omega
  | [], hl | [_], hl | [_, _], hl | [_, _, _], hl | [_, _, _, _], hl | [_, _, _, _, _], hl =>
    simp only [List.length_cons, List.length_nil] at hl
    omega

/-- **Building** either refuses a point for its shape and does nothing, or places the values of all free parameters
and makes the propagator of the parameters that result. -/
theorem build_cases (epoch : α) (point : NdArray α) (b : Builder α) :
    (point.shape ≠ [b.pointSize] ∧
      (build epoch point).exec b = (.error (.pointShape b.pointSize b.free.length point.shape), b)) ∨
    ∃ (r v : Vec3 α) (values : List α), point.shape = [b.pointSize] ∧
      point.data = r.toList ++ v.toList ++ values ∧ values.length = b.free.length ∧
      (build epoch point).exec b =
        ((b.place (b.free.zip values)).create epoch r v, b.place (b.free.zip values)) := by
  by_cases hs : point.shape = [b.pointSize]
  · obtain ⟨r, v, values, hd, hl⟩ := exists_of_shape hs
    exact Or.inr ⟨r, v, values, hs, hd, hl, exec_build_of_data hs hd⟩
  · exact Or.inl ⟨hs, exec_build_of_shape_ne hs⟩

/-- What is built starts from the position and the velocity in the point. -/
theorem build_eq_ok {p : AnalyticPropagator α} (h : ((build epoch point).exec b).1 = .ok p) :
    ∃ (r v : Vec3 α) (values : List α) (mu : α), point.shape = [b.pointSize] ∧
      point.data = r.toList ++ v.toList ++ values ∧ p.initial = ⟨epoch, r, v, mu, b.frame⟩ ∧ p.eop = b.eop := by
  obtain ⟨-, he⟩ | ⟨r, v, values, hs, hd, -, he⟩ := build_cases epoch point b
  · rw [he] at h
    cases h
  · rw [he] at h
    obtain ⟨mu, hi, heop⟩ := create_eq_ok h
    rw [place_eq] at hi heop
    exact ⟨r, v, values, mu, hs, hd, hi, heop⟩

end Builder

end Building

/-! ## Evaluations -/

section Evaluations

namespace Builder

variable {b b' b'' : Builder α} {epoch : α} {point : NdArray α}

/-- The builder that evaluations can leave: the one they found, or that one with values in its free parameters. -/
def Evaluated (b b' : Builder α) : Prop :=
  b' = b ∨ ∃ values : List α, values.length = b.free.length ∧ b' = b.place (b.free.zip values)

theorem map_fst_zip_free {values : List α} (h : values.length = b.free.length) :
    (b.free.zip values).map Prod.fst = b.free :=
  List.map_fst_zip (Nat.le_of_eq h.symm)

theorem Evaluated.refl (b : Builder α) : Evaluated b b := Or.inl rfl

theorem evaluated_place {values : List α} (h : values.length = b.free.length) :
    Evaluated b (b.place (b.free.zip values)) := Or.inr ⟨values, h, rfl⟩

theorem Evaluated.free_eq (h : Evaluated b b') : b'.free = b.free := by
  obtain rfl | ⟨values, -, rfl⟩ := h
  · rfl
  · exact place_free b _

theorem Evaluated.frame_eq (h : Evaluated b b') : b'.frame = b.frame := by
  obtain rfl | ⟨values, -, rfl⟩ := h
  · rfl
  · rw [Builder.place_eq]

theorem Evaluated.eop_eq (h : Evaluated b b') : b'.eop = b.eop := by
  obtain rfl | ⟨values, -, rfl⟩ := h
  · rfl
  · rw [Builder.place_eq]

theorem Evaluated.available_eq (h : Evaluated b b') : b'.available = b.available := by
  obtain rfl | ⟨values, -, rfl⟩ := h
  · rfl
  · exact place_available b _

theorem Evaluated.pointSize_eq (h : Evaluated b b') : b'.pointSize = b.pointSize := by
  rw [pointSize, pointSize, h.free_eq]

/-- **Placing forgets what evaluations left.** -/
theorem Evaluated.place_eq (h : Evaluated b b') {values : List α} (hl : values.length = b.free.length) :
    b'.place (b'.free.zip values) = b.place (b.free.zip values) := by
  rw [h.free_eq]
  obtain rfl | ⟨before, hb, rfl⟩ := h
  · rfl
  · exact place_place (by rw [map_fst_zip_free hb, map_fst_zip_free hl]) b

theorem Evaluated.trans (h : Evaluated b b') (h' : Evaluated b' b'') : Evaluated b b'' := by
  obtain rfl | ⟨values, hl, rfl⟩ := h'
  · exact h
  · rw [h.free_eq] at hl
    rw [h.place_eq hl]
    exact evaluated_place hl

theorem evaluated_build (epoch : α) (point : NdArray α) (b : Builder α) :
    Evaluated b ((build epoch point).exec b).2 := by
  obtain ⟨-, he⟩ | ⟨r, v, values, -, -, hl, he⟩ := build_cases epoch point b
  · rw [he]
    exact Evaluated.refl b
  · rw [he]
    exact evaluated_place hl

/-- What is built does not depend on earlier evaluations. -/
theorem Evaluated.build_eq (h : Evaluated b b') (epoch : α) (point : NdArray α) :
    ((build epoch point).exec b').1 = ((build epoch point).exec b).1 := by
  obtain ⟨hs, he⟩ | ⟨r, v, values, hs, hd, hl, he⟩ := build_cases epoch point b
  · rw [he, exec_build_of_shape_ne (by rwa [h.pointSize_eq]), h.pointSize_eq, h.free_eq]
  · rw [he, exec_build_of_data (by rwa [h.pointSize_eq]) hd, h.place_eq hl]

/-- A point that builds a propagator builds it again. -/
theorem ends_build {p : AnalyticPropagator α} (h : ((build epoch point).exec b).1 = .ok p) :
    Action.Ends (build epoch point) b
      (fun p' b' => p' = p ∧ Evaluated b b' ∧ ((build epoch point).exec b').1 = .ok p) (fun _ _ => False) := by
  have hb := evaluated_build epoch point b
  have hagain := (hb.build_eq epoch point).trans h
  unfold Action.Ends
  rcases he : (build epoch point).exec b with ⟨fault | p', b'⟩
  · rw [he] at h
    cases h
  · rw [he] at h hb hagain
    exact ⟨Except.ok.inj h, hb, hagain⟩

end Builder

variable [Scalar α]

namespace Objective

open Builder (Evaluated)

/-- An evaluation builds, and propagates what was built. -/
theorem exec_value (q : ObjectiveRequest α) (point : NdArray α) (b : Builder α) :
    ((propagated q).value point).exec b =
      ((((Builder.build q.referenceEpoch point).exec b).1.bind (components q)),
        ((Builder.build q.referenceEpoch point).exec b).2) := by
  show ((Builder.build q.referenceEpoch point >>= fun p => Action.ofExcept (components q p)).exec b) = _
  rw [Action.exec_bind]
  rcases (Builder.build q.referenceEpoch point).exec b with ⟨_ | p, b'⟩ <;> rfl

theorem evaluated_value (q : ObjectiveRequest α) (point : NdArray α) (b : Builder α) :
    Evaluated b (((propagated q).value point).exec b).2 := by
  rw [exec_value]
  exact Builder.evaluated_build q.referenceEpoch point b

/-- What an evaluation ends with. -/
theorem ends_value (q : ObjectiveRequest α) (point : NdArray α) (b : Builder α) :
    Action.Ends ((propagated q).value point) b
      (fun model b' => Evaluated b b' ∧ ∃ p, ((Builder.build q.referenceEpoch point).exec b).1 = .ok p ∧
        components q p = .ok model)
      (fun _ b' => Evaluated b b') := by
  have hb := evaluated_value q point b
  rw [exec_value] at hb
  unfold Action.Ends
  rw [exec_value]
  cases hp : ((Builder.build q.referenceEpoch point).exec b).1 with
  | error fault => exact hb
  | ok p =>
    dsimp only [Except.bind]
    cases hm : components q p with
    | error fault => exact hb
    | ok model => exact ⟨hb, p, rfl, hm⟩

end Objective

/-- The builder after objectives were evaluated at points, one after the other. -/
def Builder.afterEvaluations (b : Builder α) (history : List (ObjectiveRequest α × NdArray α)) : Builder α :=
  history.foldl (fun b call => (((Objective.propagated call.1).value call.2).exec b).2) b

theorem Builder.evaluated_afterEvaluations (history : List (ObjectiveRequest α × NdArray α)) (b : Builder α) :
    Evaluated b (b.afterEvaluations history) := by
  induction history generalizing b with
  | nil => exact Evaluated.refl b
  | cons call history ih => exact (Objective.evaluated_value call.1 call.2 b).trans (ih _)

/-- **An objective is a function of the point**: whatever objectives were evaluated on the builder before, at any
points and with any outcome, the next evaluation ends as it would have without them. -/
theorem evaluation_history_free (b : Builder α) (history : List (ObjectiveRequest α × NdArray α))
    (q : ObjectiveRequest α) (point : NdArray α) :
    (((Objective.propagated q).value point).exec (b.afterEvaluations history)).1 =
      (((Objective.propagated q).value point).exec b).1 := by
  rw [Objective.exec_value, Objective.exec_value]
  exact congrArg (Except.bind · (Objective.components q))
    ((Builder.evaluated_afterEvaluations history b).build_eq q.referenceEpoch point)

end Evaluations

end OrbitFit
