import OrbitFit.Frame.Batch
import OrbitFit.Proofs.EarthOrientation.Interpolation
import OrbitFit.Proofs.Orbit.Plane
import OrbitFit.Propagator.Analytic

/-!
# OrbitFit.Proofs.Frame.Conversion — a view in a frame does not depend on the way to it

At a date whose Earth rotation is known the two frames differ by one angle.  Going to the rotating frame and coming
back are inverse to each other (`carry_carry`): the motion of the frame is taken off before the rotation and put
back on after it, both times at the inertial position.  So any chain of conversions is one conversion.

* `convert_eq_carry`, `convert_outside`: a conversion at a date that is covered, and at one that is not.
* `convertAlong_eq`, `inFrames_eq`: chains of conversions, of vectors and of states.
* `convert_path_independent`: both, with what a propagator makes of a state seen in another frame.
-/

namespace OrbitFit

/-! ## Definitions -/

section Defs

/-- The Earth's rotation is known at a date: there is no history, or it covers the date. -/
def Known (eop : Option (OrientationHistory ℝ)) (jd : ℝ) : Prop :=
  ∀ h ∈ eop, h.covers (toModified jd) = true

namespace Frame

/-- Position and velocity carried between two frames given by their names. -/
noncomputable def convertNamed (p : Vec3 ℝ × Vec3 ℝ) (jd : ℝ) (source target : String)
    (eop : Option (OrientationHistory ℝ)) : Except (Fault ℝ) (Vec3 ℝ × Vec3 ℝ) := do
  let source ← parse source
  let target ← parse target
  convert p.1 p.2 jd source target eop

/-- Position and velocity carried from frame to frame, each given by its name. -/
noncomputable def convertAlong (jd : ℝ) (eop : Option (OrientationHistory ℝ)) :
    String → List String → Vec3 ℝ × Vec3 ℝ → Except (Fault ℝ) (Vec3 ℝ × Vec3 ℝ)
  | _, [], p => .ok p
  | source, target :: names, p => do
    convertAlong jd eop target names (← convertNamed p jd source target eop)

/-- Position and velocity carried between frames that are an angle apart. -/
noncomputable def carry (angle : ℝ) : Frame → Frame → Vec3 ℝ × Vec3 ℝ → Vec3 ℝ × Vec3 ℝ
  | eci, ecr, p => ((turn angle).apply p.1, (turn angle).apply (p.2 - spin.cross p.1))
  | ecr, eci, p =>
    let inertial := (turn angle).transpose.apply p.1
    (inertial, (turn angle).transpose.apply p.2 + spin.cross inertial)
  | _, _, p => p

end Frame

namespace OrbitState

/-- The state in a frame given by its name. -/
noncomputable def inNamed (s : OrbitState ℝ) (name : String) (eop : Option (OrientationHistory ℝ)) :
    Except (Fault ℝ) (OrbitState ℝ) := do
  s.inFrame (← Frame.parse name) eop

/-- The state taken from frame to frame, each given by its name. -/
noncomputable def inFrames (s : OrbitState ℝ) (names : List String) (eop : Option (OrientationHistory ℝ)) :
    Except (Fault ℝ) (OrbitState ℝ) :=
  names.foldlM (fun s name => s.inNamed name eop) s

/-- The state in a frame an angle apart. -/
noncomputable def carried (s : OrbitState ℝ) (angle : ℝ) (g : Frame) : OrbitState ℝ :=
  ⟨s.epoch, (Frame.carry angle s.frame g (s.position, s.velocity)).1,
    (Frame.carry angle s.frame g (s.position, s.velocity)).2, s.mu, g⟩

end OrbitState

end Defs

/-! ## The rotation at a date -/

namespace Vec3

theorem sub_add_same (a b : Vec3 ℝ) : a - b + b = a := by
  ext <;> simp only [add_def, sub_def, sub_add_cancel]

theorem add_sub_same (a b : Vec3 ℝ) : a + b - b = a := by
  ext <;> simp only [add_def, sub_def, add_sub_cancel_right]

end Vec3

section Rotation

namespace Frame

variable {jd : ℝ} {eop : Option (OrientationHistory ℝ)}

/-- The sidereal angle is a number at every date. -/
theorem exists_siderealAngle (jd : ℝ) : ∃ angle, siderealAngle jd = .ok angle := by
  simp only [siderealAngle, powChecked, Scalar.isFinite_real, Bool.not_true, Bool.and_false]
  exact ⟨_, rfl⟩

theorem exists_ut1 (h : Known eop jd) : ∃ t, ut1 jd eop = .ok t := by
  cases eop with
  | none => exact ⟨jd, rfl⟩
  | some history =>
    obtain ⟨x, hx⟩ := OrientationHistory.exists_interpolate (h history rfl) OrientationEntry.ut1MinusUtc
    exact ⟨jd + x / daySeconds, by simp only [ut1, OrientationHistory.ut1MinusUtc, hx]; rfl⟩

theorem exists_rotation (h : Known eop jd) : ∃ angle, rotation jd eop = .ok (turn angle) := by
  obtain ⟨t, ht⟩ := exists_ut1 h
  obtain ⟨angle, ha⟩ := exists_siderealAngle t
  refine ⟨angle, ?_⟩
  simp only [rotation, ht, bind, Except.bind, ha]
  rfl

theorem rotation_outside {h : OrientationHistory ℝ} (hc : h.covers (toModified jd) = false) :
    rotation jd (some h) = .error (.outsideHistory (toModified jd) h.first.mjd h.last.mjd) := by
  simp only [rotation, ut1, OrientationHistory.ut1MinusUtc, OrientationHistory.interpolate_outside hc]
  rfl

theorem transpose_apply_turn (angle : ℝ) (a : Vec3 ℝ) : (turn angle).transpose.apply ((turn angle).apply a) = a := by
  have h := Real.sin_sq_add_cos_sq angle
  ext <;> simp only [turn, Mat3.transpose, Mat3.apply, Vec3.dot_def, Scalar.cos_real, Scalar.sin_real]
  · linear_combination a.x * h
  · linear_combination a.y * h
  · ring

theorem turn_apply_transpose (angle : ℝ) (a : Vec3 ℝ) : (turn angle).apply ((turn angle).transpose.apply a) = a := by
  have h := Real.sin_sq_add_cos_sq angle
  ext <;> simp only [turn, Mat3.transpose, Mat3.apply, Vec3.dot_def, Scalar.cos_real, Scalar.sin_real]
  · linear_combination a.x * h
  · linear_combination a.y * h
  · ring

theorem norm_apply_turn (angle : ℝ) (a : Vec3 ℝ) : ((turn angle).apply a).norm = a.norm := by
  have h := Real.sin_sq_add_cos_sq angle
  refine Vec3.norm_eq_of_sq (Vec3.norm_nonneg a) ?_
  rw [Vec3.norm_sq]
  simp only [turn, Mat3.apply, Vec3.dot_def, Scalar.cos_real, Scalar.sin_real]
  linear_combination (a.x ^ 2 + a.y ^ 2) * h

/-- **The way back is the way there, backwards**: frames an angle apart are carried into one another by any way. -/
theorem carry_carry (angle : ℝ) (f g k : Frame) (p : Vec3 ℝ × Vec3 ℝ) :
    carry angle g k (carry angle f g p) = carry angle f k p := by
  obtain ⟨r, v⟩ := p
  cases f <;> cases g <;> cases k <;> try rfl
  case eci.ecr.eci =>
    simp only [carry, transpose_apply_turn, Vec3.sub_add_same]
  case ecr.eci.ecr =>
    simp only [carry, turn_apply_transpose, Vec3.add_sub_same]

theorem carry_self (angle : ℝ) (f : Frame) (p : Vec3 ℝ × Vec3 ℝ) : carry angle f f p = p := by
  cases f <;> rfl

end Frame

end Rotation

/-! ## One conversion -/

section Conversion

namespace Frame

variable {jd : ℝ} {eop : Option (OrientationHistory ℝ)} {angle : ℝ}

/-- A conversion at a date whose rotation is known. -/
theorem convert_eq_carry (h : rotation jd eop = .ok (turn angle)) (r v : Vec3 ℝ) (f g : Frame) :
    convert r v jd f g eop = .ok (carry angle f g (r, v)) := by
  cases f <;> cases g <;> try rfl
  case eci.ecr => simp only [convert, toRotating, h, bind, Except.bind]; rfl
  case ecr.eci => simp only [convert, toInertial, h, bind, Except.bind]; rfl

/-- A conversion at a date that the history leaves out. -/
theorem convert_outside {h : OrientationHistory ℝ} (hc : h.covers (toModified jd) = false) (r v : Vec3 ℝ)
    (f g : Frame) : convert r v jd f g (some h) =
      if f = g then .ok (r, v) else .error (.outsideHistory (toModified jd) h.first.mjd h.last.mjd) := by
  cases f <;> cases g <;> try rfl
  case eci.ecr => simp only [convert, toRotating, rotation_outside hc]; rfl
  case ecr.eci => simp only [convert, toInertial, rotation_outside hc]; rfl

/-- Arrays that are vectors are converted as vectors. -/
theorem convertArrays_vectors (r v : Vec3 ℝ) (jd : ℝ) (f g : Frame) (eop : Option (OrientationHistory ℝ)) :
    convertArrays (.row [.leaf r.x, .leaf r.y, .leaf r.z]) (.row [.leaf v.x, .leaf v.y, .leaf v.z]) jd f g eop =
      (convert r v jd f g eop).map arraysOf := by
  cases f <;> cases g <;> try rfl
  case ecr.eci =>
    simp only [convertArrays, toInertialArrays, convert, toInertial]
    cases rotation jd eop <;> rfl

theorem parse_eq_ok {text : String} {f : Frame} (h : ofName? text = some f) :
    (parse text : Except (Fault ℝ) Frame) = .ok f := by
  unfold parse
  rw [h]

theorem ofName?_name (f : Frame) : ofName? f.name = some f := by
  cases f <;> decide +kernel

theorem convertNamed_eq {source target : String} {f g : Frame} (hf : ofName? source = some f)
    (hg : ofName? target = some g) (p : Vec3 ℝ × Vec3 ℝ) (jd : ℝ) (eop : Option (OrientationHistory ℝ)) :
    convertNamed p jd source target eop = convert p.1 p.2 jd f g eop := by
  simp only [convertNamed, parse_eq_ok hf, parse_eq_ok hg, bind, Except.bind]

end Frame

end Conversion

/-! ## Chains of conversions -/

section Chains

variable {eop : Option (OrientationHistory ℝ)} {angle : ℝ}

/-- **A chain of conversions is one conversion.** -/
theorem Frame.convertAlong_eq {jd : ℝ} (h : rotation jd eop = .ok (turn angle)) :
    ∀ (names : List String) (source : String) (f k : Frame) (p : Vec3 ℝ × Vec3 ℝ), ofName? source = some f →
      (∀ name ∈ names, (ofName? name).isSome) → ofName? (names.getLastD source) = some k →
      convertAlong jd eop source names p = .ok (carry angle f k p)
  | [], source, f, k, p, hf, _, hk => by
    obtain rfl : f = k := Option.some.inj (hf.symm.trans hk)
    cases f <;> rfl
  | name :: names, source, f, k, p, hf, hn, hk => by
    obtain ⟨g, hg⟩ := Option.isSome_iff_exists.mp (hn name (by simp))
    rw [List.getLastD_cons] at hk
    have hrest := convertAlong_eq h names name g k (carry angle f g p) hg
      (fun n hm => hn n (List.mem_cons_of_mem _ hm)) hk
    rw [carry_carry] at hrest
    simp only [convertAlong, convertNamed_eq hf hg, convert_eq_carry h, bind, Except.bind]
    exact hrest

theorem OrbitState.inFrame_eq {s : OrbitState ℝ} (h : Frame.rotation s.epoch eop = .ok (Frame.turn angle))
    (g : Frame) : s.inFrame g eop = .ok (s.carried angle g) := by
  simp only [OrbitState.inFrame, OrbitState.positionVelocity, Frame.convert_eq_carry h, bind, Except.bind]
  rfl

theorem OrbitState.carried_carried (s : OrbitState ℝ) (angle : ℝ) (f g : Frame) :
    (s.carried angle f).carried angle g = s.carried angle g := by
  simp only [OrbitState.carried, Prod.mk.eta, Frame.carry_carry]

theorem OrbitState.carried_self (s : OrbitState ℝ) (angle : ℝ) : s.carried angle s.frame = s := by
  simp only [OrbitState.carried, Frame.carry_self]

/-- **A chain of views is one view.** -/
theorem OrbitState.inFrames_eq : ∀ (names : List String) (s : OrbitState ℝ) (k : Frame),
    Frame.rotation s.epoch eop = .ok (Frame.turn angle) → (∀ name ∈ names, (Frame.ofName? name).isSome) →
    Frame.ofName? (names.getLastD s.frame.name) = some k → s.inFrames names eop = .ok (s.carried angle k)
  | [], s, k, _, _, hk => by
    obtain rfl : s.frame = k := Option.some.inj ((Frame.ofName?_name _).symm.trans hk)
    rw [OrbitState.carried_self]
    rfl
  | name :: names, s, k, h, hn, hk => by
    obtain ⟨g, hg⟩ := Option.isSome_iff_exists.mp (hn name (by simp))
    rw [List.getLastD_cons] at hk
    have hlast : Frame.ofName? (names.getLastD g.name) = some k := by
      cases names with
      | nil =>
        rw [← hk, List.getLastD_nil, List.getLastD_nil, hg, Frame.ofName?_name]
      | cons n ns => simpa only [List.getLastD_cons] using hk
    have hrest := inFrames_eq names (s.carried angle g) k h (fun n hm => hn n (List.mem_cons_of_mem _ hm)) hlast
    rw [OrbitState.carried_carried] at hrest
    simp only [OrbitState.inFrames, List.foldlM_cons, OrbitState.inNamed, Frame.parse_eq_ok hg,
      OrbitState.inFrame_eq h, bind, Except.bind]
    exact hrest

/-- A propagator makes the same of a state in either frame. -/
theorem AnalyticPropagator.stateAtWith_carried {s : OrbitState ℝ}
    (h : Frame.rotation s.epoch eop = .ok (Frame.turn angle)) (g : Frame) (model : MotionModel ℝ)
    (solve : ℝ → ℝ → ℝ) (epoch : ℝ) :
    AnalyticPropagator.stateAtWith solve ⟨model, s.carried angle g, eop⟩ epoch =
      AnalyticPropagator.stateAtWith solve ⟨model, s, eop⟩ epoch := by
  have hg : (s.carried angle g).positionVelocity .eci eop = s.positionVelocity .eci eop := by
    have hc := Frame.convert_eq_carry (r := (s.carried angle g).position) (v := (s.carried angle g).velocity)
      (f := g) (g := .eci) h
    refine hc.trans ((congrArg Except.ok ?_).trans (Frame.convert_eq_carry h _ _ _ _).symm)
    exact Frame.carry_carry angle s.frame g .eci (s.position, s.velocity)
  unfold AnalyticPropagator.stateAtWith
  dsimp only
  rw [hg]
  rfl

end Chains

/-! ## Path independence -/

section Paths

variable {eop : Option (OrientationHistory ℝ)} {jd : ℝ}

/-- What a chain of conversions gives where the rotation is known. -/
theorem convertAlong_known (hk : Known eop jd) (p : Vec3 ℝ × Vec3 ℝ) {first : String} {names : List String}
    (hn : ∀ name ∈ first :: names, (Frame.ofName? name).isSome) :
    ∃ q, Frame.convertAlong jd eop first names p = .ok q ∧
      Frame.convertNamed p jd first (names.getLastD first) eop = .ok q ∧
      (Frame.ofName? (names.getLastD first) = Frame.ofName? first → q = p) := by
  obtain ⟨angle, ha⟩ := Frame.exists_rotation hk
  obtain ⟨f, hf⟩ := Option.isSome_iff_exists.mp (hn first (by simp))
  obtain ⟨k, hk⟩ := Option.isSome_iff_exists.mp (hn (names.getLastD first) List.getLastD_mem_cons)
  refine ⟨Frame.carry angle f k p, ?_, ?_, fun hback => ?_⟩
  · exact Frame.convertAlong_eq ha names first f k p hf (fun n hm => hn n (List.mem_cons_of_mem _ hm)) hk
  · rw [Frame.convertNamed_eq hf hk, Frame.convert_eq_carry ha]
  · obtain rfl : k = f := Option.some.inj (hk.symm.trans (hback.trans hf))
    exact Frame.carry_self angle k p

/-- What a chain of views gives where the rotation is known. -/
theorem inFrames_known {s : OrbitState ℝ} (hk : Known eop s.epoch) {names : List String}
    (hn : ∀ name ∈ names, (Frame.ofName? name).isSome) :
    ∃ t, s.inFrames names eop = .ok t ∧ s.inNamed (names.getLastD s.frame.name) eop = .ok t ∧
      (Frame.ofName? (names.getLastD s.frame.name) = some s.frame → t = s) ∧ t.epoch = s.epoch ∧ t.mu = s.mu ∧
      ∀ (model : MotionModel ℝ) (epoch : ℝ),
        (AnalyticPropagator.mk model t eop).stateAt epoch = (AnalyticPropagator.mk model s eop).stateAt epoch := by
  obtain ⟨angle, ha⟩ := Frame.exists_rotation hk
  have hlast : (Frame.ofName? (names.getLastD s.frame.name)).isSome := by
    rcases List.mem_cons.mp (List.getLastD_mem_cons (l := names) (a := s.frame.name)) with h | h
    · rw [h, Frame.ofName?_name]
      rfl
    · exact hn _ h
  obtain ⟨k, hk⟩ := Option.isSome_iff_exists.mp hlast
  refine ⟨s.carried angle k, OrbitState.inFrames_eq names s k ha hn hk, ?_, fun hback => ?_, rfl, rfl, ?_⟩
  · simp only [OrbitState.inNamed, Frame.parse_eq_ok hk, bind, Except.bind]
    exact OrbitState.inFrame_eq ha k
  · obtain rfl : k = s.frame := Option.some.inj (hk.symm.trans hback)
    exact OrbitState.carried_self s angle
  · exact fun model epoch => AnalyticPropagator.stateAtWith_carried ha k model eccentricAnomaly epoch

/-- A conversion where the rotation is not known. -/
theorem convertNamed_unknown (hk : ¬ Known eop jd) (p : Vec3 ℝ × Vec3 ℝ) {source target : String} {f g : Frame}
    (hf : Frame.ofName? source = some f) (hg : Frame.ofName? target = some g) :
    if f = g then Frame.convertNamed p jd source target eop = .ok p
    else ∃ fault, Frame.convertNamed p jd source target eop = .error fault ∧ fault.kind = .dateRange := by
  obtain ⟨h, he, hc⟩ : ∃ h, eop = some h ∧ h.covers (toModified jd) = false := by
    simpa [Known, Bool.not_eq_true] using hk
  subst he
  rw [Frame.convertNamed_eq hf hg, Frame.convert_outside hc]
  split_ifs
  · rfl
  · exact ⟨_, rfl, rfl⟩

/-- **A view in a frame does not depend on the way to it**: where the rotation is known, any chain of conversions,
of vectors or of states, is the one conversion from the first frame to the last, and a chain that comes back to its
first frame changes nothing; a state seen in another frame has the epoch, the gravitational parameter and the
motion that it had.  Where the rotation is not known, only a conversion between different frames is refused, and it
is for the date. -/
theorem convert_path_independent (eop : Option (OrientationHistory ℝ)) (jd : ℝ) :
    (Known eop jd →
      (∀ (p : Vec3 ℝ × Vec3 ℝ) (first : String) (names : List String),
        (∀ name ∈ first :: names, (Frame.ofName? name).isSome) →
        ∃ q, Frame.convertAlong jd eop first names p = .ok q ∧
          Frame.convertNamed p jd first (names.getLastD first) eop = .ok q ∧
          (Frame.ofName? (names.getLastD first) = Frame.ofName? first → q = p)) ∧
      ∀ (s : OrbitState ℝ) (names : List String), s.epoch = jd →
        (∀ name ∈ names, (Frame.ofName? name).isSome) →
        ∃ t, s.inFrames names eop = .ok t ∧ s.inNamed (names.getLastD s.frame.name) eop = .ok t ∧
          (Frame.ofName? (names.getLastD s.frame.name) = some s.frame → t = s) ∧
          t.epoch = s.epoch ∧ t.mu = s.mu ∧
          ∀ (model : MotionModel ℝ) (epoch : ℝ),
            (AnalyticPropagator.mk model t eop).stateAt epoch = (AnalyticPropagator.mk model s eop).stateAt epoch) ∧
    (¬ Known eop jd → ∀ (p : Vec3 ℝ × Vec3 ℝ) (source target : String) (f g : Frame),
      Frame.ofName? source = some f → Frame.ofName? target = some g →
      ((∃ fault, Frame.convertNamed p jd source target eop = .error fault ∧ fault.kind = .dateRange) ↔ f ≠ g) ∧
        (f = g → Frame.convertNamed p jd source target eop = .ok p)) := by
  refine ⟨fun hk => ⟨fun p first names hn => convertAlong_known hk p hn, ?_⟩, fun hk p source target f g hf hg => ?_⟩
  · rintro s names rfl hn
    exact inFrames_known hk hn
  · have h := convertNamed_unknown hk p hf hg
    by_cases hfg : f = g
    · rw [if_pos hfg] at h
      exact ⟨iff_of_false (by rw [h]; rintro ⟨_, ⟨⟩, _⟩) (not_not.mpr hfg), fun _ => h⟩
    · rw [if_neg hfg] at h
      exact ⟨iff_of_true h hfg, fun he => absurd he hfg⟩

/-- A history of the days 0 and 1. -/
noncomputable def firstDay : OrientationHistory ℝ := ⟨⟨0, 0.3, 0, 0, 0, 0, 0⟩, [⟨1, 0.4, 0, 0, 0, 0, 0⟩]⟩

theorem covers_firstDay (mjd : ℝ) : firstDay.covers mjd = true ↔ 0 ≤ mjd ∧ mjd ≤ 1 := by
  simp only [OrientationHistory.covers, Bool.and_eq_true]
  exact Iff.and decide_eq_true_iff decide_eq_true_iff

theorem known_firstDay {jd : ℝ} (h : 2400000.5 ≤ jd) (h' : jd ≤ 2400001.5) : Known (some firstDay) jd := by
  rintro history ⟨⟩
  rw [covers_firstDay, toModified, modifiedOffset]
  constructor <;> norm_num at h h' ⊢ <;> linarith

/-- At noon of the first day a chain comes back to its first frame; two days later the first step is refused. -/
theorem convert_path_independent_firstDay :
    (∀ p, Frame.convertAlong 2400001 (some firstDay) "eci" ["ECR", "ecr", "Eci"] p = .ok p) ∧
      (∀ s : OrbitState ℝ, s.epoch = 2400001 → s.frame = .ecr →
        s.inFrames ["eci", "ecr"] (some firstDay) = .ok s) ∧
      ∀ p, ∃ fault, Frame.convertNamed p 2400003 "eci" "ECR" (some firstDay) = .error fault ∧
        fault.kind = .dateRange := by
  have hk : Known (some firstDay) 2400001 := by
    rintro h ⟨⟩
    rw [covers_firstDay]
    norm_num [toModified, modifiedOffset]
  have hu : ¬ Known (some firstDay) 2400003 := by
    intro h
    have hc := (covers_firstDay _).mp (h _ rfl)
    norm_num [toModified, modifiedOffset] at hc
  refine ⟨fun p => ?_, fun s he hf => ?_, fun p => ?_⟩
  · obtain ⟨q, hq, -, hback⟩ := ((convert_path_independent (some firstDay) 2400001).1 hk).1 p "eci"
      ["ECR", "ecr", "Eci"] (by decide +kernel)
    rw [hq, hback (by decide +kernel)]
  · obtain ⟨t, ht, -, hback, -⟩ := ((convert_path_independent (some firstDay) 2400001).1 hk).2 s
      ["eci", "ecr"] he (by decide +kernel)
    rw [ht, hback (by rw [hf]; decide +kernel)]
  · exact ((convert_path_independent (some firstDay) 2400003).2 hu p "eci" "ECR" .eci .ecr (by decide +kernel)
      (by decide +kernel)).1.mpr (by decide)

end Paths

end OrbitFit
