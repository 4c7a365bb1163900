import Mathlib
import OrbitFit.Proofs.Builder.Evaluation
import OrbitFit.Proofs.Fit.Layout
import OrbitFit.Proofs.Fit.Sampling
import OrbitFit.Proofs.Frame.Conversion

/-!
# OrbitFit.Proofs.Fit.SelfFit — a model fits its own trajectory

Sampling a closed form and evaluating an objective of the same kind reach the same states by different ways: from
the initial state as it is, and from its view in the frame of the builder, rebuilt from a point.  The view has the
same inertial motion (`stateAtWith_carried`), the point puts the right number into every slot (`create_place`), and
the rows of both have one layout (`components_of_reached`).

* `take_reached`: a sample holds states of the trajectory, the initial epoch first.
* `self_fit`: at the true point nothing is left.
-/

namespace OrbitFit

/-! ## Samples of a trajectory -/

section Reached

variable {α : Type} [Scalar α] {p : AnalyticPropagator α}

theorem AnalyticPropagator.stateAt_epoch {epoch : α} {s : OrbitState α} (h : p.stateAt epoch = .ok s) :
    s.epoch = epoch := by
  obtain ⟨x, -, h⟩ := bind_eq_ok_iff.mp h
  obtain ⟨y, -, h⟩ := bind_eq_ok_iff.mp h
  obtain rfl := Except.ok.inj h
  rfl

/-- A closed form answers with states of its trajectory, and stays as it is. -/
theorem Answered.reached {epochs : List α} {states : List (OrbitState α)} {p' : AnalyticPropagator α}
    (h : Answered p epochs states p') :
    states.map OrbitState.epoch = epochs ∧ ∀ s ∈ states, p.stateAt s.epoch = .ok s := by
  induction h with
  | none p => exact ⟨rfl, nofun⟩
  | @next p p₁ p₂ epoch s epochs states first rest ih =>
    obtain ⟨hs, rfl⟩ : p.stateAt epoch = .ok s ∧ p = p₁ := Prod.mk.inj first
    have hepoch := AnalyticPropagator.stateAt_epoch hs
    refine ⟨by rw [List.map_cons, hepoch, ih.1], fun t ht => ?_⟩
    obtain rfl | ht := List.mem_cons.mp ht
    · rw [hepoch, hs]
    · exact ih.2 t ht

/-- **A sample** holds states of the trajectory, the one at the initial epoch first. -/
theorem take_reached {span : α} {points : ℤ} {sample : Sample α} (h : (Sample.take span points p).1 = .ok sample) :
    (∀ s ∈ sample.states, p.stateAt s.epoch = .ok s) ∧
      ∃ first rest, sample.states = first :: rest ∧ first.epoch = shiftEpoch p.initial.epoch 0 := by
  obtain ⟨-, fault, htake⟩ | ⟨hpoints, hspan, intervals, step, -, -,
    ⟨states, p', hanswered, -, ⟨hend, htake⟩ | ⟨-, fault, p'', -, htake⟩⟩ | ⟨-, htake⟩⟩ :=
    Sample.take_cases span points p
  · rw [htake] at h
    cases h
  · rw [htake] at h
    obtain rfl := Except.ok.inj h
    obtain ⟨hepochs, hreached⟩ := hanswered.reached
    refine ⟨hreached, ?_⟩
    cases states with
    | nil =>
      exact absurd hspan hend
    | cons first rest => exact ⟨first, rest, rfl, (List.cons.inj hepochs).1⟩
  · rw [htake] at h
    cases h
  · rw [htake] at h
    cases h

end Reached

/-! ## Builders of the same kind -/

section Fits

variable {α : Type}

def MotionModel.kind : MotionModel α → ModelKind
  | kepler => .kepler
  | j2 _ => .j2

/-- The value that a propagator has for a parameter of builders of its kind. -/
def AnalyticPropagator.parameter? (p : AnalyticPropagator α) (name : String) : Option α :=
  if name = muName then some p.initial.mu
  else match p.model with
    | .j2 coefficient => if name = j2Name then some coefficient else none
    | .kepler => none

theorem j2Name_ne_muName : j2Name ≠ muName := by decide

/-- A builder of the kind of a propagator: it has the same parameters and history of Earth orientation, and the
parameters that are not free have the values of the propagator. -/
structure Builder.Fits (b : Builder α) (p : AnalyticPropagator α) : Prop where
  kind : b.kind = p.model.kind
  eop : b.eop = p.eop
  available : ∀ name, name ∈ b.available ↔ (p.parameter? name).isSome
  free : ∀ name ∈ b.free, name ∈ b.available
  fixed : ∀ name x, name ∉ b.free → p.parameter? name = some x → b.value name = .ok x

theorem mem_zip_filterMap {β γ : Type} {f : β → Option γ} {x : β} {y : γ} : ∀ {xs : List β},
    (∀ x ∈ xs, (f x).isSome) → (x, y) ∈ xs.zip (xs.filterMap f) → f x = some y
  | [], _, h => by simp at h
  | z :: xs, hs, h => by
    obtain ⟨w, hw⟩ := Option.isSome_iff_exists.mp (hs z (by simp))
    rw [List.filterMap_cons_some hw, List.zip_cons_cons] at h
    obtain h | h := List.mem_cons.mp h
    · obtain ⟨rfl, rfl⟩ := Prod.mk.inj h
      exact hw
    · exact mem_zip_filterMap (fun x hx => hs x (List.mem_cons_of_mem z hx)) h

namespace Builder.Fits

variable {b : Builder α} {p : AnalyticPropagator α}

theorem isSome_of_free (h : b.Fits p) : ∀ name ∈ b.free, (p.parameter? name).isSome :=
  fun name hn => (h.available name).mp (h.free name hn)

theorem length_values (h : b.Fits p) : (b.free.filterMap p.parameter?).length = b.free.length :=
  List.filterMap_length_eq_length.mpr h.isSome_of_free

/-- The values of the propagator fill the slots of all parameters. -/
theorem value_place (h : b.Fits p) {name : String} {x : α} (hx : p.parameter? name = some x) :
    (b.place (b.free.zip (b.free.filterMap p.parameter?))).value name = .ok x := by
  have hn : name ∈ b.available := (h.available name).mpr (by rw [hx]; rfl)
  rw [Builder.value_place hn]
  cases hl : lastValue? (b.free.zip (b.free.filterMap p.parameter?)) name with
  | some y =>
    have hy := mem_zip_filterMap h.isSome_of_free (mem_of_lastValue? hl)
    exact congrArg Except.ok (Option.some.inj (hy.symm.trans hx))
  | none =>
    have hfree : name ∉ b.free := by
      rw [← map_fst_zip_free h.length_values, ← lastValue?_isSome, hl]
      simp
    exact h.fixed name x hfree hx

theorem model_place (h : b.Fits p) :
    (b.place (b.free.zip (b.free.filterMap p.parameter?))).model = .ok p.model := by
  have hk : (b.place (b.free.zip (b.free.filterMap p.parameter?))).kind = p.model.kind := by
    rw [Builder.place_eq, ← h.kind]
  unfold Builder.model
  rw [hk]
  cases hm : p.model with
  | kepler => rfl
  | j2 coefficient =>
    have hc : p.parameter? j2Name = some coefficient := by
      rw [AnalyticPropagator.parameter?, if_neg j2Name_ne_muName, hm]
      rfl
    simp only [MotionModel.kind, h.value_place hc]
    rfl

/-- **What is built of the values of the propagator** is its motion, from the state that is given. -/
theorem create_place (h : b.Fits p) (epoch : α) (r v : Vec3 α) :
    (b.place (b.free.zip (b.free.filterMap p.parameter?))).create epoch r v =
      .ok ⟨p.model, ⟨epoch, r, v, p.initial.mu, b.frame⟩, p.eop⟩ := by
  rw [Builder.create_eq (h.value_place (if_pos rfl)) h.model_place, ← h.eop]
  simp only [Builder.place_eq]

end Builder.Fits

/-- A builder for a model, before parameters are set free. -/
def Builder.ofModel (model : MotionModel α) (mu : α) (frame : Frame) (eop : Option (OrientationHistory α)) :
    Builder α :=
  match model with
  | .kepler => kepler mu frame eop
  | .j2 coefficient => j2 mu coefficient frame eop

section Made

variable {p : AnalyticPropagator α} {model : MotionModel α} {mu : α} {frame : Frame}

theorem mem_available_ofModel (hk : model.kind = p.model.kind) (name : String) :
    name ∈ (Builder.ofModel model mu frame p.eop).available ↔ (p.parameter? name).isSome := by
  have hlist : (Builder.ofModel model mu frame p.eop).available =
      match p.model with
      | .kepler => [muName]
      | .j2 _ => [muName, j2Name] := by
    cases model <;> cases hm : p.model <;> rw [hm] at hk <;> first | rfl | cases hk
  rw [hlist, AnalyticPropagator.parameter?]
  cases p.model with
  | kepler => by_cases hmu : name = muName <;> simp [hmu]
  | j2 coefficient => by_cases hmu : name = muName <;> by_cases hj : name = j2Name <;>
    simp [hmu, hj, j2Name_ne_muName]

theorem value_ofModel {name : String} {x : α} (hmu : name = muName → mu = p.initial.mu)
    (hm : name = j2Name → model = p.model) (hx : p.parameter? name = some x) :
    (Builder.ofModel model mu frame p.eop).value name = .ok x := by
  unfold AnalyticPropagator.parameter? at hx
  by_cases h1 : name = muName
  · rw [if_pos h1, ← hmu h1] at hx
    obtain rfl := Option.some.inj hx
    rw [h1]
    cases model <;> rfl
  · rw [if_neg h1] at hx
    cases hp : p.model with
    | kepler => rw [hp] at hx; cases hx
    | j2 coefficient =>
      rw [hp] at hx
      obtain ⟨h2, hc⟩ := Option.ite_none_right_eq_some.mp hx
      obtain rfl := Option.some.inj hc
      rw [hm h2, h2, hp]
      rfl

/-- **A builder made for a model of the kind fits**, once the parameters with other values are free. -/
theorem Builder.fits_of_withFree {names : List String} {b : Builder α}
    (hb : (ofModel model mu frame p.eop).withFree names = .ok b) (hk : model.kind = p.model.kind)
    (hmu : muName ∉ names → mu = p.initial.mu) (hm : j2Name ∉ names → model = p.model) : b.Fits p := by
  obtain ⟨hn, rfl⟩ := withFree_eq_ok_iff.mp hb
  have hav : ∀ name, name ∈ (ofModel model mu frame p.eop).available ↔ (p.parameter? name).isSome :=
    mem_available_ofModel hk
  refine ⟨?_, ?_, fun name => ?_, fun name h => ?_, fun name x h hx => ?_⟩
  · rw [← hk]
    cases model <;> rfl
  · cases model <;> rfl
  · rw [available_withFree hb, hav]
  · rw [available_withFree hb]
    exact hn name h
  · rw [value_withFree hb]
    exact value_ofModel (fun h1 => hmu (h1 ▸ h)) (fun h2 => hm (h2 ▸ h)) hx

end Made

end Fits

/-! ## At the true point -/

section SelfFit

variable {p : AnalyticPropagator ℝ} {b : Builder ℝ}

theorem shiftEpoch_zero (epoch : ℝ) : shiftEpoch epoch 0 = epoch := by
  unfold shiftEpoch
  simp

/-- **A model fits its own trajectory**: at the initial state as the frame of the builder shows it and the values
that the propagator has for the free parameters, the objective for a sample of the trajectory is the target of the
sample. -/
theorem self_fit (hb : b.Fits p) {span : ℝ} {points : ℤ} {sample : Sample ℝ}
    (hs : (Sample.take span points p).1 = .ok sample) (hk : ∀ s ∈ sample.states, Known p.eop s.epoch)
    (onlyPosition : Bool) :
    ∃ first rest r v t, sample.states = first :: rest ∧ p.initial.positionVelocity b.frame p.eop = .ok (r, v) ∧
      Targets.ofStates sample.states (.known b.frame) onlyPosition p.eop = .ok t ∧
      (((Objective.propagated ⟨sample.states, .known b.frame, onlyPosition, first.epoch, p.eop⟩).value
        (NdArray.ofList (r.toList ++ v.toList ++ b.free.filterMap p.parameter?))).exec b).1 =
          .ok (NdArray.ofList t.target) := by
  obtain ⟨hreached, first, rest, hstates, hfirst⟩ := take_reached hs
  rw [shiftEpoch_zero] at hfirst
  have hne : sample.states ≠ [] := by simp [hstates]
  obtain ⟨angle, ha⟩ := Frame.exists_rotation (hk first (by simp [hstates]))
  rw [hfirst] at ha
  set rv := Frame.carry angle p.initial.frame b.frame (p.initial.position, p.initial.velocity) with hrv
  obtain ⟨t, ht⟩ := exists_ofStates (.known b.frame) onlyPosition p.eop hne fun s hs => by
    obtain ⟨here, hh⟩ := Frame.exists_rotation (hk s hs)
    exact ⟨_, Frame.convert_eq_carry hh _ _ _ _⟩
  refine ⟨first, rest, rv.1, rv.2, t, hstates, Frame.convert_eq_carry ha _ _ _ _, ht, ?_⟩
  have hbuild : ((Builder.build first.epoch (NdArray.ofList (rv.1.toList ++ rv.2.toList ++
      b.free.filterMap p.parameter?))).exec b).1 = .ok ⟨p.model, p.initial.carried angle b.frame, p.eop⟩ := by
    rw [Builder.exec_build_of_data (r := rv.1) (v := rv.2) ?_ rfl, hb.create_place, hfirst]
    · rfl
    · rw [NdArray.shape_ofList, List.length_append, hb.length_values]
      rfl
  rw [Objective.exec_value, hbuild]
  refine components_of_reached hne (fun s hs => ?_) ht
  exact (AnalyticPropagator.stateAtWith_carried ha b.frame p.model eccentricAnomaly s.epoch).trans (hreached s hs)

/-- A turning ellipse over the poles, from the start of the first day. -/
noncomputable def polar : AnalyticPropagator ℝ :=
  ⟨.j2 (0.001), ⟨2400000.5, ⟨1, 0, 0⟩, ⟨0, 0, 1.25⟩, 1, .eci⟩, some firstDay⟩

theorem exists_stateAt_polar (epoch : ℝ) : ∃ s, polar.stateAt epoch = .ok s := by
  obtain ⟨o, hok⟩ : ∃ o : Osculating ℝ, boundElements ⟨1, 0, 0⟩ ⟨0, 0, 1.25⟩ 1 = .ok o :=
    exists_boundElements_upward zero_lt_one (by norm_num) (by norm_num) (by norm_num) (by norm_num)
  simp only [AnalyticPropagator.stateAt, AnalyticPropagator.stateAtWith, polar, OrbitState.positionVelocity,
    Frame.convert, MotionModel.advanceWith, j2MotionWith, bind, Except.bind, hok]
  exact ⟨_, rfl⟩

theorem take_polar : ∃ s₀ s₁, (Sample.take 1 3 polar).1 = .ok ⟨[s₀, s₁], 1, 1 / 2⟩ ∧
    s₀.epoch = 2400000.5 ∧ s₁.epoch = 2400000.5 + 1 / 172800 := by
  obtain ⟨s₀, h₀⟩ := exists_stateAt_polar (shiftEpoch polar.initial.epoch 0)
  obtain ⟨s₁, h₁⟩ := exists_stateAt_polar (shiftEpoch polar.initial.epoch (0 + 1 / 2))
  have hstep : (1 : ℝ) / (((3 - 1 : ℤ) : ℝ) / ((1 : ℤ) : ℝ)) = 1 / 2 := by norm_num
  have hcollect : Sample.collect (Propagator.initialState polar).epoch 1 (1 / 2) 0 [] polar =
      some (.ok [s₀, s₁], polar) := by
    rw [Sample.collect_of_answer (by norm_num) (Prod.ext h₀ rfl),
      Sample.collect_of_answer (by norm_num) (Prod.ext h₁ rfl), Sample.collect_of_not_lt (by norm_num)]
    rfl
  refine ⟨s₀, s₁, ?_, ?_, ?_⟩
  · rw [Sample.take_eq (by norm_num) zero_lt_one (ratioChecked_real _ _) (by rw [hstep]; exact hcollect), hstep]
    rfl
  · rw [AnalyticPropagator.stateAt_epoch h₀]
    norm_num [polar, shiftEpoch]
  · rw [AnalyticPropagator.stateAt_epoch h₁]
    norm_num [polar, shiftEpoch, daySeconds]

/-- Two positions over the poles, with everything free in the rotating frame. -/
theorem self_fit_polar : ∃ b s₀ s₁ r v t,
    (Builder.ofModel (.j2 0) 3 .ecr (some firstDay)).withFree [j2Name, muName] = .ok b ∧
    (Sample.take 1 3 polar).1 = .ok ⟨[s₀, s₁], 1, 1 / 2⟩ ∧
    polar.initial.positionVelocity .ecr (some firstDay) = .ok (r, v) ∧
    Targets.ofStates [s₀, s₁] (.known .ecr) true (some firstDay) = .ok t ∧
    (((Objective.propagated ⟨[s₀, s₁], .known .ecr, true, s₀.epoch, some firstDay⟩).value
      (NdArray.ofList (r.toList ++ v.toList ++ [0.001, 1]))).exec b).1 = .ok (NdArray.ofList t.target) := by
  obtain ⟨s₀, s₁, hs, h₀, h₁⟩ := take_polar
  have hk : ∀ s ∈ [s₀, s₁], Known polar.eop s.epoch := by
    intro s hs history hh
    obtain rfl := Option.some.inj hh
    rw [covers_firstDay]
    obtain rfl | rfl : s = s₀ ∨ s = s₁ := by simpa using hs
    · rw [h₀]
      norm_num [toModified, modifiedOffset]
    · rw [h₁]
      norm_num [toModified, modifiedOffset]
  obtain ⟨b, hb⟩ : ∃ b, (Builder.ofModel (.j2 0) 3 .ecr polar.eop).withFree [j2Name, muName] = .ok b :=
    ⟨_, Builder.withFree_eq_ok_iff.mpr ⟨by decide, rfl⟩⟩
  have hfits : b.Fits polar := Builder.fits_of_withFree hb rfl (by simp) (by simp)
  obtain ⟨first, rest, r, v, t, hstates, hr, ht, hvalue⟩ := self_fit hfits hs hk true
  obtain ⟨rfl, -⟩ := List.cons.inj hstates
  obtain ⟨-, rfl⟩ := Builder.withFree_eq_ok_iff.mp hb
  exact ⟨_, s₀, s₁, r, v, t, hb, hs, hr, ht, hvalue⟩

end SelfFit

end OrbitFit
