import OrbitFit.Proofs.Fit.SelfFit

/-!
# OrbitFit.Proofs.Fit.Blocks — an objective and a target are laid out alike

A model joins the rows of the states that a propagator reaches, while a target and its weights grow by what each state
pushes.  Both are blocks of one width, one for each state: the `i`-th block is made of the `i`-th state alone, as it is
seen in the frame of the fit.  An objective has a value at a point exactly if the propagator of the point reaches the
epochs of the sample and the states that it reaches have targets, and the value is the target of those states.

* `block_of_mapM`: the blocks of joined rows are the rows.
* `laidOut_ofStates`: the blocks of targets.
* `value_eq_target_iff`: the value of an objective is the target of what the propagator reaches.
-/

namespace OrbitFit

/-! ## Definitions -/

section Defs

/-- The `i`-th of the blocks of one width that a list consists of. -/
def block {β : Type} (width i : ℕ) (entries : List β) : List β := (entries.drop (i * width)).take width

variable {α : Type} [Scalar α]

/-- Targets are laid out for states: one block of the target and one of the weights for each state, of its vectors in
the frame of the fit. -/
structure Targets.LaidOut (t : Targets α) (states : List (OrbitState α)) (frame : FrameRequest) (onlyPosition : Bool)
    (eop : Option (OrientationHistory α)) : Prop where
  length_target : t.target.length = states.length * rowWidth onlyPosition
  length_weight : t.weight.length = states.length * rowWidth onlyPosition
  blocks : ∀ (i : ℕ) (s : OrbitState α), states[i]? = some s → ∃ r v, s.view frame eop = .ok (r, v) ∧
    block (rowWidth onlyPosition) i t.target = (if onlyPosition then r.toList else r.toList ++ v.toList) ∧
    block (rowWidth onlyPosition) i t.weight = weightsOf onlyPosition r v s.mu

end Defs

/-! ## Blocks -/

section Rows

variable {ε β γ : Type} {width : ℕ}

theorem block_zero_append {row : List γ} (h : row.length = width) (rest : List γ) :
    block width 0 (row ++ rest) = row := by
  rw [block, Nat.zero_mul, List.drop_zero, List.take_left' h]

theorem block_succ_append {row : List γ} (h : row.length = width) (i : ℕ) (rest : List γ) :
    block width (i + 1) (row ++ rest) = block width i rest := by
  rw [block, Nat.succ_mul, Nat.add_comm, ← List.drop_drop, List.drop_left' h, block]

/-- Rows of one width, one for each entry, are the blocks of what they join to. -/
theorem block_of_mapM {f : β → Except (Fault ε) (List γ)} (hf : ∀ x row, f x = .ok row → row.length = width) :
    ∀ {xs : List β} {rows : List (List γ)}, xs.mapM f = .ok rows → ∀ {i : ℕ} {x : β}, xs[i]? = some x →
      ∃ row, f x = .ok row ∧ block width i rows.flatten = row
  | [], _, _, _, _, hx => by cases hx
  | z :: xs, _, h, i, x, hx => by
    obtain ⟨row, rest, hrow, hrest, rfl⟩ := mapM_cons_eq_ok_iff.mp h
    rw [List.flatten_cons]
    cases i with
    | zero =>
      obtain rfl := Option.some.inj hx
      exact ⟨row, hrow, block_zero_append (hf z row hrow) _⟩
    | succ i =>
      rw [block_succ_append (hf z row hrow)]
      exact block_of_mapM hf hrest hx

end Rows

/-! ## The blocks of targets -/

section Target

variable {α : Type} [Scalar α] {frame : FrameRequest} {onlyPosition : Bool} {eop : Option (OrientationHistory α)}
  {states : List (OrbitState α)} {t : Targets α}

/-- **Targets are laid out in blocks**, one for each state. -/
theorem laidOut_ofStates (h : Targets.ofStates states frame onlyPosition eop = .ok t) :
    t.LaidOut states frame onlyPosition eop := by
  refine ⟨length_target _ _ _ h, length_weight h, fun i s hs => ?_⟩
  obtain ⟨-, rows, hrows, hflat⟩ := rows_of_ofStates _ _ _ h
  obtain ⟨weights, hweights, hweight⟩ := weight_ofStates h
  obtain ⟨row, hrow, hblock⟩ := block_of_mapM (fun s row => OrbitState.length_row) hrows hs
  obtain ⟨w, hw, hwblock⟩ := block_of_mapM (fun s row => OrbitState.length_weights) hweights hs
  obtain ⟨⟨r, v⟩, hview, hrow⟩ := bind_eq_ok_iff.mp hrow
  rw [OrbitState.contribution, hview] at hw
  refine ⟨r, v, hview, ?_, ?_⟩
  · rw [hflat, hblock]
    exact (Except.ok.inj hrow).symm
  · rw [hweight, hwblock]
    exact (Except.ok.inj hw).symm

end Target

/-! ## The value of an objective -/

section Value

variable {α : Type} [Scalar α]

/-- **The value of an objective is the target** of the states that the propagator of the point reaches at the epochs of
the sample, and there is a value exactly if there are such states and such a target.  The target has one block for each
entry of the sample, and so have the weights, each of the state that is reached there. -/
theorem Objective.value_eq_target_iff (b : Builder α) (q : ObjectiveRequest α) (point model : NdArray α) :
    (((propagated q).value point).exec b).1 = .ok model ↔ ∃ p states t,
      ((Builder.build q.referenceEpoch point).exec b).1 = .ok p ∧
      (q.states.mapM fun s => p.stateAt s.epoch) = .ok states ∧ states.length = q.states.length ∧
      Targets.ofStates states q.frame q.onlyPosition q.eop = .ok t ∧
      t.LaidOut states q.frame q.onlyPosition q.eop ∧ model = NdArray.ofList t.target := by
  rw [exec_value]
  constructor
  · intro h
    obtain ⟨p, hp, hmodel⟩ := bind_eq_ok_iff.mp h
    obtain ⟨states, t, hstates, ht, rfl⟩ := components_eq_target_iff.mp hmodel
    exact ⟨p, states, t, hp, hstates, length_of_mapM hstates, ht, laidOut_ofStates ht, rfl⟩
  · rintro ⟨p, states, t, hp, hstates, -, ht, -, rfl⟩
    exact bind_eq_ok_iff.mpr ⟨p, hp, components_eq_target_iff.mpr ⟨states, t, hstates, ht, rfl⟩⟩

/-- At its start the turning ellipse over the poles is where it starts. -/
theorem stateAt_polar_start : polar.stateAt 2400000.5 = .ok polar.initial := by
  show ((MotionModel.j2 0.001).advanceWith eccentricAnomaly ⟨1, 0, 0⟩ ⟨0, 0, 1.25⟩
    (secondsBetween 2400000.5 2400000.5) 1).bind _ = _
  rw [secondsBetween, sub_self, zero_mul, MotionModel.advanceWith, motion_upward]
  rfl

/-- In the rotating frame the state at the start of the first day has the speed of the Earth's rotation as well: the
weight of its velocity does not depend on the angle between the frames. -/
theorem weightsOf_polar_start {r v : Vec3 ℝ}
    (h : polar.initial.view (.known .ecr) (some firstDay) = .ok (r, v)) :
    weightsOf false r v 1 = [1, 1, 1] ++ List.replicate 3 √(1.25 ^ 2 + 7.2921150e-5 ^ 2) := by
  obtain ⟨angle, ha⟩ := Frame.exists_rotation (known_firstDay (le_refl (2400000.5 : ℝ)) (by norm_num))
  obtain ⟨rfl, rfl⟩ := Prod.mk.inj (Except.ok.inj
    (h.symm.trans (Frame.convert_eq_carry ha ⟨1, 0, 0⟩ ⟨0, 0, 1.25⟩ .eci .ecr)))
  have hspeed : ((Frame.turn angle).apply (⟨0, 0, 1.25⟩ - Frame.spin.cross ⟨1, 0, 0⟩ : Vec3 ℝ)).norm =
      √(1.25 ^ 2 + 7.2921150e-5 ^ 2) := by
    rw [Frame.norm_apply_turn, Vec3.norm_def]
    norm_num [Frame.spin, Frame.earthRate, Vec3.sub_def, Vec3.cross_def, Vec3.dot_def]
  have hdistance : ((Frame.turn angle).apply (⟨1, 0, 0⟩ : Vec3 ℝ)).dot ((Frame.turn angle).apply ⟨1, 0, 0⟩) = 1 := by
    rw [← Vec3.norm_sq, Frame.norm_apply_turn, Vec3.norm_sq]
    norm_num [Vec3.dot_def]
  show [1, 1, 1] ++ List.replicate 3 (_ * _ / _) = _
  rw [hspeed, hdistance, mul_one, div_one]

/-- The turning ellipse over the poles is built of its own state, and reaches the start and the noon of the first day;
positions and velocities are laid out for the rotating frame, in which the first of the velocities is faster than in
the inertial one. -/
theorem Objective.value_eq_target_iff_polar : ∃ states t,
    [2400000.5, 2400001].mapM polar.stateAt = .ok states ∧
      Targets.ofStates states (.known .ecr) false (some firstDay) = .ok t ∧
      (((propagated ⟨[polar.initial, { polar.initial with epoch := 2400001 }], .known .ecr, false, 2400000.5,
        some firstDay⟩).value (NdArray.ofList [1, 0, 0, 0, 0, 1.25])).exec
          (Builder.j2 1 0.001 .eci (some firstDay))).1 = .ok (NdArray.ofList t.target) ∧
      t.target.length = 12 ∧ t.weight.length = 12 ∧
      block 6 0 t.weight = [1, 1, 1] ++ List.replicate 3 √(1.25 ^ 2 + 7.2921150e-5 ^ 2) := by
  have hbuild : ((Builder.build 2400000.5 (NdArray.ofList [1, 0, 0, 0, 0, 1.25])).exec
      (Builder.j2 1 0.001 .eci (some firstDay))).1 = .ok polar := by
    have hdata : (NdArray.ofList [1, 0, 0, 0, 0, 1.25]).data =
        (⟨1, 0, 0⟩ : Vec3 ℝ).toList ++ (⟨0, 0, 1.25⟩ : Vec3 ℝ).toList ++ [] := rfl
    rw [Builder.exec_build_of_data rfl hdata]
    exact Builder.create_eq rfl rfl _ _ _
  obtain ⟨s, hs⟩ := exists_stateAt_polar 2400001
  have hstates : [2400000.5, 2400001].mapM polar.stateAt = .ok [polar.initial, s] := by
    rw [List.mapM_cons, List.mapM_cons, List.mapM_nil, stateAt_polar_start, hs]
    rfl
  have hview : ∀ t ∈ [polar.initial, s], ∃ p, t.view (.known .ecr) (some firstDay) = .ok p := by
    have hknown : ∀ t ∈ [polar.initial, s], Known (some firstDay) t.epoch := by
      intro t ht
      obtain rfl | rfl := List.mem_pair.mp ht
      · exact known_firstDay le_rfl (by norm_num [polar])
      · rw [AnalyticPropagator.stateAt_epoch hs]
        exact known_firstDay (by norm_num) (by norm_num)
    intro t ht
    obtain ⟨angle, ha⟩ := Frame.exists_rotation (hknown t ht)
    exact ⟨_, Frame.convert_eq_carry ha _ _ _ _⟩
  obtain ⟨t, ht⟩ := exists_ofStates (.known .ecr) false (some firstDay) (List.cons_ne_nil polar.initial [s]) hview
  have hlaid := laidOut_ofStates ht
  refine ⟨[polar.initial, s], t, hstates, ht, ?_, hlaid.length_target, hlaid.length_weight, ?_⟩
  · exact (Objective.value_eq_target_iff _ _ _ _).mpr ⟨polar, _, t, hbuild, hstates, rfl, ht, hlaid, rfl⟩
  · obtain ⟨r, v, hrv, -, hweight⟩ := hlaid.blocks 0 polar.initial rfl
    exact hweight.trans (weightsOf_polar_start hrv)

end Value

end OrbitFit
