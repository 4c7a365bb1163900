import OrbitFit.LeastSquares.Optimizer
import OrbitFit.Proofs.Fit.Layout
import OrbitFit.Proofs.Frame.Conversion
import OrbitFit.Proofs.Orbit.Motion

/-!
# OrbitFit.Proofs.Fit.Weights — samples whose targets are turned away

The weight of a velocity is taken in the frame of the fit, and an optimizer takes positive weights only.  A state on
an ellipse moves and is off the focus, seen from the inertial frame, so its weight there is positive.  Seen from the
rotating frame a body may stand still: it does if its inertial velocity is that of the frame at its place
(`OrbitState.Corotates`), as that of a body over one place of the equator is.

* `weight_pos_iff`: the weights of a sample are positive if those of its velocities are.
* `OrbitState.Accepted.weight_pos_iff`: the states whose velocities have a positive weight.
* `weights_pos_iff_not_corotating`: the samples whose targets an optimizer takes.
-/

namespace OrbitFit

/-! ## Definitions -/

section Defs

namespace OrbitState

/-- Seen from the inertial frame, the state lies on an ellipse. -/
def Accepted (s : OrbitState ℝ) (eop : Option (OrientationHistory ℝ)) : Prop :=
  ∃ r v o, s.positionVelocity .eci eop = .ok (r, v) ∧ boundElements r v s.mu = .ok o

/-- The body turns with the Earth: its inertial velocity is that of the rotating frame at its place. -/
def Corotates (s : OrbitState ℝ) (eop : Option (OrientationHistory ℝ)) : Prop :=
  ∃ r v, s.positionVelocity .eci eop = .ok (r, v) ∧ v = Frame.spin.cross r

end OrbitState

/-- A velocity is fitted in the rotating frame, and its body turns with the Earth. -/
def FitsStandingBody (states : List (OrbitState ℝ)) (f : Frame) (onlyPosition : Bool)
    (eop : Option (OrientationHistory ℝ)) : Prop :=
  onlyPosition = false ∧ f = .ecr ∧ ∃ s ∈ states, s.Corotates eop

/-- The problem of fitting targets. -/
def Targets.problem (t : Targets ℝ) (maxEvaluations : ℤ) (guess : NdArray ℝ) (analytic : Bool) : FitProblem ℝ :=
  ⟨maxEvaluations, NdArray.ofList t.target, NdArray.ofList t.weight, guess, analytic⟩

end Defs

/-! ## The weights of a sample -/

section Sample

variable {frame : FrameRequest} {onlyPosition : Bool} {eop : Option (OrientationHistory ℝ)}
  {states : List (OrbitState ℝ)} {t : Targets ℝ}

theorem weightsOf_pos_iff (onlyPosition : Bool) (r v : Vec3 ℝ) (mu : ℝ) :
    (∀ w ∈ weightsOf onlyPosition r v mu, 0 < w) ↔ (onlyPosition = false → 0 < v.norm * r.dot r / mu) := by
  cases onlyPosition <;> simp [weightsOf]

/-- What holds of the numbers of all rows holds row by row. -/
theorem forall_mem_flatten_of_mapM {β γ : Type} {f : β → Except (Fault ℝ) (List γ)} {P : γ → Prop} :
    ∀ {xs : List β} {rows : List (List γ)}, xs.mapM f = .ok rows →
      ((∀ w ∈ rows.flatten, P w) ↔ ∀ x ∈ xs, ∀ row, f x = .ok row → ∀ w ∈ row, P w)
  | [], rows, h => by
    rw [List.mapM_nil] at h
    obtain rfl := Except.ok.inj h
    simp
  | x :: xs, rows, h => by
    obtain ⟨row, rest, hrow, hrest, rfl⟩ := mapM_cons_eq_ok_iff.mp h
    have ih := forall_mem_flatten_of_mapM (P := P) hrest
    simp only [List.flatten_cons, List.mem_append, List.forall_mem_cons, hrow, Except.ok.injEq, forall_eq', or_imp,
      forall_and, ih]

/-- The weights of a sample are positive if those of its velocities are. -/
theorem weight_pos_iff (h : Targets.ofStates states frame onlyPosition eop = .ok t) : (∀ w ∈ t.weight, 0 < w) ↔
    (onlyPosition = false → ∀ s ∈ states, ∀ r v, s.view frame eop = .ok (r, v) → 0 < v.norm * r.dot r / s.mu) := by
  obtain ⟨rows, hrows, hflat⟩ := weight_ofStates h
  have hrow : ∀ s : OrbitState ℝ,
      (∀ row, s.contribution frame eop (weightsOf onlyPosition) = .ok row → ∀ w ∈ row, 0 < w) ↔
        ∀ r v, s.view frame eop = .ok (r, v) → onlyPosition = false → 0 < v.norm * r.dot r / s.mu := by
    intro s
    constructor
    · intro hs r v hv
      refine (weightsOf_pos_iff onlyPosition r v s.mu).mp (hs _ ?_)
      rw [OrbitState.contribution, hv]
      rfl
    · intro hs row hr
      obtain ⟨rv, hv, hr⟩ := bind_eq_ok_iff.mp hr
      obtain rfl := Except.ok.inj hr
      exact (weightsOf_pos_iff onlyPosition rv.1 rv.2 s.mu).mpr (hs rv.1 rv.2 hv)
  rw [hflat, forall_mem_flatten_of_mapM hrows]
  simp only [hrow]
  exact ⟨fun h hp s hs r v hv => h s hs r v hv hp, fun h s hs r v hv hp => h hp s hs r v hv⟩

end Sample

/-! ## The weight of a velocity -/

section Velocity

variable {eop : Option (OrientationHistory ℝ)} {s : OrbitState ℝ} {r v : Vec3 ℝ}

theorem Vec3.sub_eq_zero_iff (a b : Vec3 ℝ) : a - b = 0 ↔ a = b := by
  rw [sub_def, zero_def, Vec3.mk.injEq, Vec3.ext_iff, sub_eq_zero, sub_eq_zero, sub_eq_zero]

theorem Vec3.cross_zero (a : Vec3 ℝ) : a.cross 0 = 0 := by
  simp [cross_def, zero_def]

/-- The weight of a velocity off the focus. -/
theorem velocityWeight_pos_iff {mu : ℝ} (hmu : 0 < mu) (hr : 0 < r.norm) : 0 < v.norm * r.dot r / mu ↔ v ≠ 0 := by
  have hrr : 0 < r.dot r := by
    rw [← Vec3.norm_sq]
    exact pow_pos hr 2
  rw [div_pos_iff_of_pos_right hmu, mul_pos_iff_of_pos_right hrr, Vec3.norm_pos_iff]

/-- **The weight of an accepted state's velocity** is positive in the inertial frame, and in the rotating one unless
the body turns with the Earth. -/
theorem OrbitState.Accepted.weight_pos_iff (h : s.Accepted eop) (hk : Known eop s.epoch) {f : Frame}
    (hv : s.positionVelocity f eop = .ok (r, v)) :
    0 < v.norm * r.dot r / s.mu ↔ (f = .ecr → ¬ s.Corotates eop) := by
  obtain ⟨angle, ha⟩ := Frame.exists_rotation hk
  obtain ⟨ri, vi, o, hi, hb⟩ := h
  obtain ⟨hmu, hh, hr, -, -⟩ := boundElements_eq_ok_iff.mp hb
  have hcarry := fun g => Frame.convert_eq_carry ha s.position s.velocity s.frame g
  have hci := Except.ok.inj ((hcarry .eci).symm.trans hi)
  have hcf := Except.ok.inj ((hcarry f).symm.trans hv)
  rw [← Frame.carry_carry angle s.frame .eci f, hci] at hcf
  cases f with
  | eci =>
    obtain ⟨rfl, rfl⟩ := Prod.mk.inj hcf
    refine iff_of_true ((velocityWeight_pos_iff hmu (pos_of_tolerance_le hr)).mpr ?_) nofun
    rintro rfl
    rw [Vec3.cross_zero, Vec3.norm_eq_zero.mpr rfl] at hh
    norm_num at hh
  | ecr =>
    obtain ⟨rfl, rfl⟩ := Prod.mk.inj hcf
    have hcorotates : s.Corotates eop ↔ vi = Frame.spin.cross ri := by
      constructor
      · rintro ⟨r, v, hrv, rfl⟩
        obtain ⟨rfl, rfl⟩ := Prod.mk.inj (Except.ok.inj (hi.symm.trans hrv))
        rfl
      · exact fun hspin => ⟨ri, vi, hi, hspin⟩
    rw [velocityWeight_pos_iff hmu (by rw [Frame.norm_apply_turn]; exact pos_of_tolerance_le hr), hcorotates,
      Ne, ← Vec3.norm_eq_zero, Frame.norm_apply_turn, Vec3.norm_eq_zero, Vec3.sub_eq_zero_iff]
    exact ⟨fun h _ => h, fun h => h rfl⟩

end Velocity

/-! ## Bodies at rest in the rotating frame -/

section Rest

variable {eop : Option (OrientationHistory ℝ)} {s : OrbitState ℝ}

/-- A state at rest, seen from the inertial frame. -/
theorem OrbitState.positionVelocity_of_rest {angle : ℝ} (ha : Frame.rotation s.epoch eop = .ok (Frame.turn angle))
    (hf : s.frame = .ecr) (hv : s.velocity = 0) : s.positionVelocity .eci eop =
      .ok ((Frame.turn angle).transpose.apply s.position,
        Frame.spin.cross ((Frame.turn angle).transpose.apply s.position)) := by
  have hzero : (Frame.turn angle).transpose.apply 0 = 0 := by
    simp [Mat3.apply, Vec3.dot_def, Vec3.zero_def]
  rw [OrbitState.positionVelocity, Frame.convert_eq_carry ha, hf, hv]
  simp only [Frame.carry, hzero]
  simp [Vec3.add_def, Vec3.zero_def]

theorem OrbitState.corotates_of_rest (hk : Known eop s.epoch) (hf : s.frame = .ecr) (hv : s.velocity = 0) :
    s.Corotates eop := by
  obtain ⟨angle, ha⟩ := Frame.exists_rotation hk
  exact ⟨_, _, OrbitState.positionVelocity_of_rest ha hf hv, rfl⟩

/-- A body at rest over the equator is on an ellipse below the height at which the Earth's rotation carries it off. -/
theorem OrbitState.accepted_of_rest (hk : Known eop s.epoch) (hf : s.frame = .ecr) (hv : s.velocity = 0)
    (hz : s.position.z = 0) (hmu : 0 < s.mu) (hr : 1e-12 ≤ s.position.norm)
    (hh : 1e-12 ≤ Frame.earthRate * s.position.norm ^ 2)
    (hescape : Frame.earthRate ^ 2 * s.position.norm ^ 3 < 2 * s.mu) : s.Accepted eop := by
  obtain ⟨angle, ha⟩ := Frame.exists_rotation hk
  obtain ⟨ri, hri⟩ : ∃ ri, ri = (Frame.turn angle).transpose.apply s.position := ⟨_, rfl⟩
  have hrest := OrbitState.positionVelocity_of_rest ha hf hv
  have hnorm : ri.norm = s.position.norm := by
    rw [← Frame.norm_apply_turn angle, hri, Frame.turn_apply_transpose]
  have hspin : Frame.spin.dot ri = 0 := by
    rw [hri]
    simp [Frame.spin, Frame.turn, Mat3.transpose, Mat3.apply, Vec3.dot_def, hz]
  have hrate : (Frame.spin : Vec3 ℝ).dot Frame.spin = Frame.earthRate ^ 2 := by
    simp [Frame.spin, Vec3.dot_def, sq]
  have hvv : (Frame.spin.cross ri).dot (Frame.spin.cross ri) = (Frame.earthRate * s.position.norm) ^ 2 := by
    rw [Vec3.cross_dot_cross, hspin, hrate, ← Vec3.norm_sq, hnorm]
    ring
  have hrv : ri.dot (Frame.spin.cross ri) = 0 := by
    rw [Vec3.dot_comm, Vec3.cross_dot_right]
  have hcross : (ri.cross (Frame.spin.cross ri)).norm = Frame.earthRate * s.position.norm ^ 2 := by
    refine Vec3.norm_eq_of_sq (le_trans (by norm_num) hh) ?_
    rw [Vec3.cross_dot_cross, hrv, hvv, ← Vec3.norm_sq, hnorm]
    ring
  rw [← hri] at hrest
  obtain ⟨o, ho⟩ := exists_boundElements_at_apsis hmu hrv (by rwa [hcross]) (by rwa [hnorm]) (by
    rw [hnorm, hvv]
    linarith)
  exact ⟨ri, _, o, hrest, ho⟩

end Rest

/-! ## What an optimizer takes -/

section Optimizers

variable {t : Targets ℝ}

/-- An optimizer looks at the shapes of targets and weights, and then at the signs of the weights. -/
theorem problemFault?_problem (hlength : t.weight.length = t.target.length) (maxEvaluations : ℤ) (guess : NdArray ℝ)
    (analytic : Bool) : Optimizer.problemFault? (t.problem maxEvaluations guess analytic) =
      if t.weight.any (fun w => decide (w ≤ 0)) then some .weightSign else none := by
  unfold Optimizer.problemFault?
  rw [if_neg]
  · rfl
  · simp [Targets.problem, hlength]

/-- **Targets are turned away for bodies that turn with the Earth**: a sample of accepted states has targets, with
one weight for each component.  All of them are positive, and no optimizer turns them away for their weights, unless
velocities are fitted in the rotating frame and one of the bodies stands still there; then every optimizer turns them
away at once. -/
theorem weights_pos_iff_not_corotating (states : List (OrbitState ℝ)) (hne : states ≠ []) (f : Frame)
    (onlyPosition : Bool) (eop : Option (OrientationHistory ℝ)) (hk : ∀ s ∈ states, Known eop s.epoch)
    (ha : ∀ s ∈ states, s.Accepted eop) :
    ∃ t, Targets.ofStates states (.known f) onlyPosition eop = .ok t ∧ t.weight.length = t.target.length ∧
      ((∀ w ∈ t.weight, 0 < w) ↔ ¬ FitsStandingBody states f onlyPosition eop) ∧
      ∀ (maxEvaluations : ℤ) (guess : NdArray ℝ) (analytic : Bool),
        (¬ FitsStandingBody states f onlyPosition eop →
          Optimizer.problemFault? (t.problem maxEvaluations guess analytic) = none) ∧
        (FitsStandingBody states f onlyPosition eop →
          ∀ (solver : Solver ℝ) (threshold : ℝ) (scheme : DifferenceScheme),
            Optimizer.weighted solver threshold scheme (t.problem maxEvaluations guess analytic) =
              .done (.error .weightSign)) := by
  have hview : ∀ s ∈ states, ∃ p, s.view (.known f) eop = .ok p := fun s hs => by
    obtain ⟨angle, hangle⟩ := Frame.exists_rotation (hk s hs)
    exact ⟨_, Frame.convert_eq_carry hangle s.position s.velocity s.frame f⟩
  obtain ⟨t, ht⟩ := exists_ofStates (.known f) onlyPosition eop hne hview
  have hlength : t.weight.length = t.target.length := (length_weight ht).trans (length_target _ _ _ ht).symm
  have hpos : (∀ w ∈ t.weight, 0 < w) ↔ ¬ FitsStandingBody states f onlyPosition eop := by
    rw [weight_pos_iff ht, FitsStandingBody, not_and, not_and, not_exists]
    refine forall_congr' fun _ => ⟨fun h hf s hs => ?_, fun h s hs r v hv => ?_⟩
    · obtain ⟨⟨r, v⟩, hv⟩ := hview s hs.1
      exact ((ha s hs.1).weight_pos_iff (hk s hs.1) hv).mp (h s hs.1 r v hv) hf hs.2
    · exact ((ha s hs).weight_pos_iff (hk s hs) hv).mpr fun hf hc => h hf s ⟨hs, hc⟩
  refine ⟨t, ht, hlength, hpos, fun maxEvaluations guess analytic => ?_⟩
  have hfault := problemFault?_problem hlength maxEvaluations guess analytic
  constructor
  · intro h
    rw [hfault, if_neg (by simpa using hpos.mpr h)]
  · intro h solver threshold scheme
    have hsign : ¬ ∀ w ∈ t.weight, 0 < w := fun hall => hpos.mp hall h
    rw [Optimizer.weighted, hfault, if_pos (by simpa using hsign)]

/-- A body over one place of the equator. -/
noncomputable def geostationary : OrbitState ℝ := ⟨2461095, ⟨42164172, 0, 0⟩, 0, earthMu, .ecr⟩

theorem geostationary_accepted : geostationary.Accepted none ∧ geostationary.Corotates none := by
  have hk : Known none geostationary.epoch := nofun
  have hnorm : geostationary.position.norm = 42164172 :=
    Vec3.norm_eq_of_sq (by norm_num) (by norm_num [geostationary, Vec3.dot_def])
  refine ⟨OrbitState.accepted_of_rest hk rfl rfl rfl ?_ ?_ ?_ ?_, OrbitState.corotates_of_rest hk rfl rfl⟩
  · norm_num [geostationary, earthMu]
  · norm_num [hnorm]
  · norm_num [hnorm, Frame.earthRate]
  · rw [hnorm]
    norm_num [Frame.earthRate, geostationary, earthMu]

/-- The geostationary body is fitted in the inertial frame and turned away in the rotating one. -/
theorem weights_pos_iff_not_corotating_geostationary :
    geostationary.Accepted none ∧
      (∃ t, Targets.ofStates [geostationary] (.known .eci) false none = .ok t ∧ (∀ w ∈ t.weight, 0 < w) ∧
        Optimizer.problemFault? (t.problem 1000 (NdArray.ofList [0, 0, 0, 0, 0, 0]) false) = none) ∧
      ∃ t, Targets.ofStates [geostationary] (.known .ecr) false none = .ok t ∧ ¬ ∀ w ∈ t.weight, 0 < w := by
  have hk : ∀ s ∈ [geostationary], Known none s.epoch := fun _ _ => nofun
  have ha : ∀ s ∈ [geostationary], s.Accepted none := by
    simpa using geostationary_accepted.1
  have hinertial : ¬ FitsStandingBody [geostationary] .eci false none := nofun ∘ fun h => h.2.1
  have hrotating : FitsStandingBody [geostationary] .ecr false none :=
    ⟨rfl, rfl, geostationary, List.mem_singleton_self _, geostationary_accepted.2⟩
  obtain ⟨t, ht, -, hpos, htaken⟩ := weights_pos_iff_not_corotating [geostationary] nofun .eci false none hk ha
  obtain ⟨t', ht', -, hpos', -⟩ := weights_pos_iff_not_corotating [geostationary] nofun .ecr false none hk ha
  exact ⟨ha _ (List.mem_singleton_self _), ⟨t, ht, hpos.mpr hinertial, (htaken _ _ _).1 hinertial⟩,
    t', ht', fun hall => hpos'.mp hall hrotating⟩

/-- The geostationary body is accepted, and its velocity has no weight in the rotating frame. -/
theorem not_weights_pos_geostationary :
    0 < geostationary.mu ∧ geostationary.Accepted none ∧ Known none geostationary.epoch ∧
      ∃ t, Targets.ofStates [geostationary] (.known .ecr) false none = .ok t ∧ t.weight = [1, 1, 1, 0, 0, 0] ∧
        ∀ (solver : Solver ℝ) (threshold : ℝ) (scheme : DifferenceScheme) (guess : NdArray ℝ),
          Optimizer.weighted solver threshold scheme (t.problem 1000 guess false) = .done (.error .weightSign) := by
  have hzero : (⟨0, 0, 0⟩ : Vec3 ℝ).norm = 0 := Vec3.norm_eq_zero.mpr rfl
  refine ⟨by norm_num [geostationary, earthMu], geostationary_accepted.1, nofun,
    ⟨[42164172, 0, 0, 0, 0, 0], [1, 1, 1, 0, 0, 0]⟩, ?_, rfl, fun solver threshold scheme guess => ?_⟩
  · have hpush : Targets.empty.push geostationary.position geostationary.velocity geostationary.mu false =
        ⟨[42164172, 0, 0, 0, 0, 0], [1, 1, 1, 0, 0, 0]⟩ := by
      simp [Targets.push, Targets.empty, geostationary, Vec3.toList, Vec3.zero_def, hzero]
    exact congrArg Except.ok hpush
  · rw [Optimizer.weighted, problemFault?_problem rfl, if_pos (by simp)]

end Optimizers

end OrbitFit
