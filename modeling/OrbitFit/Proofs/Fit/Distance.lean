import OrbitFit.Proofs.Fit.Layout
import OrbitFit.Proofs.Frame.Conversion

/-!
# OrbitFit.Proofs.Fit.Distance — positions are as far apart in either frame

At one epoch the positions of two bodies are carried from the inertial to the rotating frame by one rotation, so what
separates them is as long as before.  The rotation differs from epoch to epoch, and a state may be given in either
frame; the distances are still those of the inertial positions, state by state, and the root mean square of a fit of
positions is made of nothing else.

* `norm_carried_sub`: the distance of two states of one epoch.
* `sum_sq_flatMap`: the squares of all components are the squares of the distances.
* `positionRms_frame_free`: the root mean square of the differences of two samples.
-/

namespace OrbitFit

/-! ## Definitions -/

section Defs

/-- The root mean square of the differences between the positions of two samples, seen in a frame. -/
noncomputable def positionRms (first second : List (OrbitState ℝ)) (frame : FrameRequest)
    (eop : Option (OrientationHistory ℝ)) : Except (Fault ℝ) ℝ := do
  let t ← Targets.ofStates first frame true eop
  let u ← Targets.ofStates second frame true eop
  let rest ← (NdArray.ofList t.target).sub (NdArray.ofList u.target)
  return Targets.rootMeanSquare rest.data

/-- The sum of the squared distances between the states of two samples in a frame, for an Earth that stands at some
angle at each epoch. -/
noncomputable def squaredDistances (angle : ℝ → ℝ) (f : Frame) (first second : List (OrbitState ℝ)) : ℝ :=
  (List.zipWith (fun s t : OrbitState ℝ =>
    ((s.carried (angle s.epoch) f).position - (t.carried (angle t.epoch) f).position).norm ^ 2) first second).sum

end Defs

/-! ## Distances -/

section Distances

namespace Frame

theorem apply_turn_sub (angle : ℝ) (a b : Vec3 ℝ) :
    (turn angle).apply (a - b) = (turn angle).apply a - (turn angle).apply b := by
  ext <;> simp only [turn, Mat3.apply, Vec3.dot_def, Vec3.sub_def] <;> ring

end Frame

namespace OrbitState

theorem position_carried (s : OrbitState ℝ) (angle : ℝ) :
    (s.carried angle .ecr).position = (Frame.turn angle).apply (s.carried angle .eci).position := by
  rw [← carried_carried s angle .eci .ecr]
  rfl

/-- **States of one epoch are as far apart in either frame**, whatever frames they are given in. -/
theorem norm_carried_sub (s t : OrbitState ℝ) (angle : ℝ) (f : Frame) :
    ((s.carried angle f).position - (t.carried angle f).position).norm =
      ((s.carried angle .eci).position - (t.carried angle .eci).position).norm := by
  cases f with
  | eci => rfl
  | ecr => rw [position_carried, position_carried, ← Frame.apply_turn_sub, Frame.norm_apply_turn]

end OrbitState

theorem squaredDistances_frame_free (angle : ℝ → ℝ) (f : Frame) :
    ∀ {first second : List (OrbitState ℝ)}, first.map OrbitState.epoch = second.map OrbitState.epoch →
      squaredDistances angle f first second = squaredDistances angle .eci first second
  | [], [], _ => rfl
  | s :: first, t :: second, h => by
    obtain ⟨hepoch, hrest⟩ : s.epoch = t.epoch ∧ first.map OrbitState.epoch = second.map OrbitState.epoch := by
      simpa using h
    have ih := squaredDistances_frame_free angle f hrest
    unfold squaredDistances at ih ⊢
    rw [List.zipWith_cons_cons, List.zipWith_cons_cons, List.sum_cons, List.sum_cons, ih, hepoch,
      OrbitState.norm_carried_sub]

end Distances

/-! ## Sums of squares -/

section Squares

theorem rootMeanSquare_eq_sqrt (xs : List ℝ) :
    Targets.rootMeanSquare xs = √((xs.map fun x => x ^ 2).sum / xs.length) := by
  rw [Targets.rootMeanSquare, Scalar.ofNat_real, Scalar.sum, List.sum_eq_foldl]
  rfl

theorem sum_sq_toList (a b : Vec3 ℝ) :
    ((List.zipWith (fun x y => x - y) a.toList b.toList).map fun x => x ^ 2).sum = (a - b).norm ^ 2 := by
  rw [Vec3.norm_sq, Vec3.sub_def, Vec3.dot_def]
  simp only [Vec3.toList, List.zipWith_cons_cons, List.zipWith_nil_left, List.map_cons, List.map_nil, List.sum_cons,
    List.sum_nil]
  ring

/-- **The squares of all components are the squares of the distances.** -/
theorem sum_sq_flatMap {β : Type} (f : β → Vec3 ℝ) : ∀ {xs ys : List β}, xs.length = ys.length →
    ((List.zipWith (fun x y => x - y) (xs.flatMap fun x => (f x).toList) (ys.flatMap fun y => (f y).toList)).map
        fun x => x ^ 2).sum = (List.zipWith (fun x y => (f x - f y).norm ^ 2) xs ys).sum
  | [], [], _ => rfl
  | x :: xs, y :: ys, h => by
    have ih := sum_sq_flatMap f (Nat.succ.inj h)
    have hrow : (f x).toList.length = (f y).toList.length := rfl
    rw [List.flatMap_cons, List.flatMap_cons, List.zipWith_append hrow, List.map_append, List.sum_append,
      sum_sq_toList, ih, List.zipWith_cons_cons, List.sum_cons]

end Squares

/-! ## The root mean square of a sample -/

section Sample

variable {eop : Option (OrientationHistory ℝ)} {angle : ℝ → ℝ} {states : List (OrbitState ℝ)}

/-- The Earth stands at some angle at each date at which its rotation is known. -/
theorem exists_angle (eop : Option (OrientationHistory ℝ)) :
    ∃ angle : ℝ → ℝ, ∀ jd, Known eop jd → Frame.rotation jd eop = .ok (Frame.turn (angle jd)) := by
  have h : ∀ jd, ∃ angle : ℝ, Known eop jd → Frame.rotation jd eop = .ok (Frame.turn angle) := by
    intro jd
    by_cases hk : Known eop jd
    · obtain ⟨angle, ha⟩ := Frame.exists_rotation hk
      exact ⟨angle, fun _ => ha⟩
    · exact ⟨0, fun h => absurd h hk⟩
  exact Classical.skolem.mp h

/-- The target of a fit of positions is the positions of the states, each carried to the frame at its own epoch. -/
theorem ofStates_position (hne : states ≠ [])
    (ha : ∀ s ∈ states, Frame.rotation s.epoch eop = .ok (Frame.turn (angle s.epoch))) (f : Frame) :
    ∃ t, Targets.ofStates states (.known f) true eop = .ok t ∧
      t.target = states.flatMap fun s => (s.carried (angle s.epoch) f).position.toList := by
  have hview : ∀ s ∈ states, s.view (.known f) eop =
      .ok ((s.carried (angle s.epoch) f).position, (s.carried (angle s.epoch) f).velocity) :=
    fun s hs => Frame.convert_eq_carry (ha s hs) _ _ _ _
  have hrows : (states.mapM fun s : OrbitState ℝ => s.row (.known f) true eop) =
      .ok (states.map fun s => (s.carried (angle s.epoch) f).position.toList) := by
    refine (mapM_congr fun s hs => ?_).trans (List.mapM_pure)
    rw [OrbitState.row, hview s hs]
    rfl
  obtain ⟨t, ht⟩ := exists_ofStates (.known f) true eop hne fun s hs => ⟨_, hview s hs⟩
  have htarget := target_ofStates (.known f) true eop hne
  rw [ht, hrows] at htarget
  exact ⟨t, ht, Except.ok.inj htarget⟩

theorem length_positions (f : Frame) : (states.flatMap fun s : OrbitState ℝ =>
    (s.carried (angle s.epoch) f).position.toList).length = 3 * states.length := by
  rw [List.length_flatMap]
  simp [Vec3.toList, mul_comm]

/-- Where the states have the same epochs the Earth stands at the same angles. -/
theorem rotation_of_epochs {first second : List (OrbitState ℝ)}
    (he : first.map OrbitState.epoch = second.map OrbitState.epoch)
    (ha : ∀ s ∈ first, Frame.rotation s.epoch eop = .ok (Frame.turn (angle s.epoch))) :
    ∀ t ∈ second, Frame.rotation t.epoch eop = .ok (Frame.turn (angle t.epoch)) := by
  intro t ht
  have hmem : t.epoch ∈ first.map OrbitState.epoch := by
    rw [he]
    exact List.mem_map_of_mem ht
  obtain ⟨s, hs, hst⟩ := List.mem_map.mp hmem
  rw [← hst]
  exact ha s hs

/-- In either frame the root mean square is that of the distances. -/
theorem positionRms_eq {first second : List (OrbitState ℝ)} (hne : first ≠ [])
    (he : first.map OrbitState.epoch = second.map OrbitState.epoch)
    (ha : ∀ s ∈ first, Frame.rotation s.epoch eop = .ok (Frame.turn (angle s.epoch))) (f : Frame) :
    positionRms first second (.known f) eop =
      .ok (√(squaredDistances angle .eci first second / (3 * first.length))) := by
  have hlength : first.length = second.length := by simpa using congrArg List.length he
  have hne' : second ≠ [] := by
    rintro rfl
    exact hne (List.eq_nil_of_length_eq_zero hlength)
  have ha' := rotation_of_epochs he ha
  obtain ⟨t, ht, htarget⟩ := ofStates_position hne ha f
  obtain ⟨u, hu, hutarget⟩ := ofStates_position hne' ha' f
  have htlength : t.target.length = 3 * first.length := by rw [htarget, length_positions]
  have hulength : u.target.length = 3 * first.length := by rw [hutarget, length_positions, hlength]
  have hshape : (NdArray.ofList u.target).shape = (NdArray.ofList t.target).shape := by
    rw [NdArray.shape_ofList, NdArray.shape_ofList, htlength, hulength]
  have hrest := zipWith_of_shape_eq (fun x y : ℝ => x - y) hshape
  have hsum := sum_sq_flatMap (fun s : OrbitState ℝ => (s.carried (angle s.epoch) f).position) hlength
  rw [← htarget, ← hutarget] at hsum
  have hsquares := hsum.trans (squaredDistances_frame_free angle f he)
  simp only [positionRms, ht, hu, NdArray.sub, hrest, bind, Except.bind, data_arrange, NdArray.data_ofList]
  rw [rootMeanSquare_eq_sqrt, hsquares, List.length_zipWith, htlength, hulength, min_self, Nat.cast_mul,
    Nat.cast_ofNat]
  rfl

/-- The inertial views of states are those with the Earth at its angle. -/
theorem mapM_inertial (ha : ∀ s ∈ states, Frame.rotation s.epoch eop = .ok (Frame.turn (angle s.epoch))) :
    (states.mapM fun s : OrbitState ℝ => s.positionVelocity .eci eop) =
      .ok (states.map fun s => ((s.carried (angle s.epoch) .eci).position, (s.carried (angle s.epoch) .eci).velocity)) :=
  (mapM_congr fun s hs => Frame.convert_eq_carry (ha s hs) _ _ _ _).trans List.mapM_pure

/-- **The root mean square of positions is the same in both frames**: for samples whose states have the same epochs one
by one, at dates at which the Earth's rotation is known, whatever frames the states are given in.  It is the root of a
third of the mean squared distance between the inertial positions. -/
theorem positionRms_frame_free {first second : List (OrbitState ℝ)} (hne : first ≠ [])
    (he : first.map OrbitState.epoch = second.map OrbitState.epoch) (hk : ∀ s ∈ first, Known eop s.epoch) :
    ∃ ps qs x, (first.mapM fun s : OrbitState ℝ => s.positionVelocity .eci eop) = .ok ps ∧
      (second.mapM fun s : OrbitState ℝ => s.positionVelocity .eci eop) = .ok qs ∧
      x = √((List.zipWith (fun p q => (p.1 - q.1).norm ^ 2) ps qs).sum / (3 * first.length)) ∧
      positionRms first second (.known .eci) eop = .ok x ∧
      positionRms first second (.known .ecr) eop = .ok x := by
  obtain ⟨angle, hangle⟩ := exists_angle eop
  have ha : ∀ s ∈ first, Frame.rotation s.epoch eop = .ok (Frame.turn (angle s.epoch)) :=
    fun s hs => hangle s.epoch (hk s hs)
  have ha' := rotation_of_epochs he ha
  refine ⟨_, _, _, mapM_inertial ha, mapM_inertial ha', rfl, ?_⟩
  rw [List.zipWith_map]
  exact ⟨positionRms_eq hne he ha .eci, positionRms_eq hne he ha .ecr⟩

/-- A state over a pole is seen at one place from either frame. -/
theorem positionVelocity_over_pole {s : OrbitState ℝ} (hk : Known eop s.epoch) (hx : s.position.x = 0)
    (hy : s.position.y = 0) : ∃ v, s.positionVelocity .eci eop = .ok (s.position, v) := by
  obtain ⟨angle, ha⟩ := Frame.exists_rotation hk
  refine ⟨(Frame.carry angle s.frame .eci (s.position, s.velocity)).2, (Frame.convert_eq_carry ha _ _ _ _).trans ?_⟩
  have hplace : (Frame.carry angle s.frame .eci (s.position, s.velocity)).1 = s.position := by
    cases s.frame with
    | eci => rfl
    | ecr => ext <;> simp [Frame.carry, Frame.turn, Mat3.transpose, Mat3.apply, Vec3.dot_def, hx, hy]
  exact congrArg Except.ok (Prod.ext hplace rfl)

/-- A state beside the axis and one over a pole, on the first day. -/
noncomputable def besideAndOver : List (OrbitState ℝ) :=
  [⟨2400000.5, ⟨0.3, 0, 0⟩, ⟨0, 1, 0⟩, 1, .eci⟩, ⟨2400001.25, ⟨0, 0, 1⟩, ⟨1, 0, 0⟩, 1, .ecr⟩]

/-- Two states over a pole at the same epochs, each in the other frame. -/
noncomputable def overPoleTwice : List (OrbitState ℝ) :=
  [⟨2400000.5, ⟨0, 0, 0.4⟩, ⟨1, 0, 0⟩, 1, .ecr⟩, ⟨2400001.25, ⟨0, 0, 2.5⟩, ⟨0, 1, 0⟩, 1, .eci⟩]

/-- Distances of one half and of one and a half, at different epochs and in mixed frames. -/
theorem positionRms_frame_free_mixed :
    besideAndOver.map OrbitState.epoch = overPoleTwice.map OrbitState.epoch ∧
      (∀ s ∈ besideAndOver, Known (some firstDay) s.epoch) ∧
      positionRms besideAndOver overPoleTwice (.known .eci) (some firstDay) = .ok (√(5 / 12)) ∧
      positionRms besideAndOver overPoleTwice (.known .ecr) (some firstDay) = .ok (√(5 / 12)) := by
  have he : besideAndOver.map OrbitState.epoch = overPoleTwice.map OrbitState.epoch := rfl
  have hk₀ : Known (some firstDay) 2400000.5 := known_firstDay le_rfl (by norm_num)
  have hk₁ : Known (some firstDay) 2400001.25 := known_firstDay (by norm_num) (by norm_num)
  have hk : ∀ s ∈ besideAndOver, Known (some firstDay) s.epoch := by
    intro s hs
    obtain rfl | rfl := List.mem_pair.mp hs
    · exact hk₀
    · exact hk₁
  obtain ⟨ps, qs, x, hps, hqs, hx, heci, hecr⟩ := positionRms_frame_free (by simp [besideAndOver]) he hk
  obtain ⟨v, hv⟩ := positionVelocity_over_pole (s := ⟨2400001.25, ⟨0, 0, 1⟩, ⟨1, 0, 0⟩, 1, .ecr⟩) hk₁ rfl rfl
  obtain ⟨w, hw⟩ := positionVelocity_over_pole (s := ⟨2400000.5, ⟨0, 0, 0.4⟩, ⟨1, 0, 0⟩, 1, .ecr⟩) hk₀ rfl rfl
  rw [besideAndOver, List.mapM_cons, List.mapM_cons, List.mapM_nil, hv] at hps
  rw [overPoleTwice, List.mapM_cons, List.mapM_cons, List.mapM_nil, hw] at hqs
  obtain rfl := Except.ok.inj hps
  obtain rfl := Except.ok.inj hqs
  have hvalue : x = √(5 / 12) := by
    rw [hx]
    norm_num [Vec3.norm_sq, Vec3.sub_def, Vec3.dot_def, besideAndOver]
  exact ⟨he, hk, hvalue ▸ heci, hvalue ▸ hecr⟩

end Sample

end OrbitFit
