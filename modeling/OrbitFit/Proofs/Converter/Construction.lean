import OrbitFit.LeastSquares.Standard
import OrbitFit.Proofs.Converter.Adaptation
import OrbitFit.Proofs.Frame.Conversion

/-!
# OrbitFit.Proofs.Converter.Construction — what a converter that is refused leaves behind

A converter is given a builder, and perhaps a history of Earth orientation, an iteration limit and a threshold.  The
history goes to the builder first, and then the limit and the threshold are looked at, so a construction that is refused
has handed the history over already (`exec_configure`).  Nothing else of the builder is touched.  It is therefore left
alone exactly if there was no history to hand over, or none but its own (`configure_failed_keeps_iff`).
-/

namespace OrbitFit

open OrbitFit.Action Converter

section Construction

variable {α σ : Type}

/-- The builder with a history of Earth orientation, or its own where none is given. -/
def Builder.takingUp (b : Builder α) (eop : Option (OrientationHistory α)) : Builder α := { b with eop := eop.or b.eop }

/-- A builder is the same with a history only if it had that one. -/
theorem Builder.takingUp_eq_iff {b : Builder α} {eop : Option (OrientationHistory α)} :
    b.takingUp eop = b ↔ eop = none ∨ eop = b.eop := by
  have h : b.takingUp eop = b ↔ eop.or b.eop = b.eop := by
    constructor
    · intro hb
      exact congrArg Builder.eop hb
    · intro hb
      show { b with eop := eop.or b.eop } = b
      rw [hb]
  rw [h]
  cases eop with
  | none => exact iff_of_true (Option.none_or) (Or.inl rfl)
  | some history => simp

variable [Scalar α]

/-- What a converter is refused for.  The iteration limit is looked at first. -/
inductive RefusedFor (limit : Int) (threshold : α) : Fault α → Prop
  | limit (few : limit < 1) : RefusedFor limit threshold (.iterationLimit limit)
  | threshold (enough : 1 ≤ limit) (none : ¬ 0 < threshold) : RefusedFor limit threshold (.threshold threshold)

namespace Converter

variable (solver : Solver α)
  (objective : ObjectiveRequest α → Action α (Builder α × σ) (Objective α (Builder α × σ)))
  (threshold : Option α) (maxIterations : Option Int) (settings : FitSettings α)
  (eop : Option (OrientationHistory α)) (b : Builder α)

/-- The converter of a frame, or what it is refused for. -/
def configured? (frame : Frame) : Except (Fault α) (Converter α σ) := do
  let limit ← checkIterations (maxIterations.getD settings.maxIterations)
  let threshold ← checkThreshold (threshold.getD settings.threshold)
  return ⟨frame, ⟨threshold, limit, settings.scheme⟩, objective, fun problem =>
    pure (Optimizer.weighted solver threshold settings.scheme problem)⟩

/-- The history is handed over whether or not the converter is refused. -/
theorem exec_configure :
    exec (configure solver objective threshold maxIterations settings eop) b =
      (configured? solver objective threshold maxIterations settings b.frame, b.takingUp eop) := by
  -- the checks and what follows them only read, from whichever builder they start
  have hchecks : ∀ b : Builder α, exec (do
      let limit ← Action.ofExcept (checkIterations (maxIterations.getD settings.maxIterations))
      let threshold ← Action.ofExcept (checkThreshold (threshold.getD settings.threshold))
      return ⟨(← get).frame, ⟨threshold, limit, settings.scheme⟩, objective, fun problem =>
        pure (Optimizer.weighted solver threshold settings.scheme problem)⟩) b =
      (configured? solver objective threshold maxIterations settings b.frame, b) := by
    intro b
    unfold configured?
    cases checkIterations (maxIterations.getD settings.maxIterations) with
    | error fault => rfl
    | ok limit => cases checkThreshold (threshold.getD settings.threshold) <;> rfl
  cases eop with
  | none => exact hchecks b
  | some history => exact hchecks { b with eop := some history }

theorem configured?_eq_error_iff {frame : Frame} {fault : Fault α} :
    configured? solver objective threshold maxIterations settings frame = .error fault ↔
      RefusedFor (maxIterations.getD settings.maxIterations) (threshold.getD settings.threshold) fault := by
  unfold configured?
  generalize maxIterations.getD settings.maxIterations = limit
  generalize threshold.getD settings.threshold = bound
  unfold checkIterations checkThreshold
  -- a limit that is too low hides whatever the threshold is
  by_cases hfew : limit < 1
  · rw [if_pos hfew]
    constructor
    · rintro ⟨⟩
      exact .limit hfew
    · rintro (_ | ⟨enough, _⟩)
      · rfl
      · omega
  rw [if_neg hfew]
  by_cases hpos : 0 < bound
  · rw [if_pos hpos]
    constructor
    · rintro ⟨⟩
    · rintro (few | ⟨_, none⟩)
      · exact absurd few hfew
      · exact absurd hpos none
  · rw [if_neg hpos]
    constructor
    · rintro ⟨⟩
      exact .threshold (by omega) hpos
    · rintro (few | _)
      · exact absurd few hfew
      · rfl

variable {solver objective threshold maxIterations settings eop b}

theorem exec_configure_of_refused {fault : Fault α}
    (h : RefusedFor (maxIterations.getD settings.maxIterations) (threshold.getD settings.threshold) fault) :
    exec (configure solver objective threshold maxIterations settings eop) b = (.error fault, b.takingUp eop) := by
  rw [exec_configure, (configured?_eq_error_iff ..).mpr h]

/-- **A converter that is refused leaves its builder alone exactly if it brought no other history.**  It is refused for
the iteration limit or, where that is fine, for the threshold.  The parameters of the builder, with their values and
flags, and its free list are as before; the history is the one that was brought. -/
theorem configure_failed_keeps_iff {fault : Fault α} {b' : Builder α}
    (h : exec (configure solver objective threshold maxIterations settings eop) b = (.error fault, b')) :
    RefusedFor (maxIterations.getD settings.maxIterations) (threshold.getD settings.threshold) fault ∧
      (b'.kind = b.kind ∧ b'.frame = b.frame ∧ b'.parameters = b.parameters ∧ b'.free = b.free) ∧
      b'.eop = eop.or b.eop ∧ (b' = b ↔ eop = none ∨ eop = b.eop) := by
  rw [exec_configure, Prod.mk.injEq, configured?_eq_error_iff] at h
  obtain ⟨hfault, rfl⟩ := h
  exact ⟨hfault, ⟨rfl, rfl, rfl, rfl⟩, rfl, Builder.takingUp_eq_iff⟩

/-- A converter without a history, and one with the history of its own builder, are refused and leave the builder
alone. -/
theorem configure_failed_keeps_firstDay :
    (∃ b', exec (configure (σ := Unit) Solver.standard propagated none (some 0) .standard none)
        (.kepler 1 .ecr (some firstDay)) = (.error (.iterationLimit 0), b') ∧ b' = .kepler 1 .ecr (some firstDay)) ∧
      ∃ b', exec (configure (σ := Unit) Solver.standard propagated (some 0) none .standard (some firstDay))
        (.kepler 1 .ecr (some firstDay)) = (.error (.threshold 0), b') ∧ b' = .kepler 1 .ecr (some firstDay) := by
  have hlimit : RefusedFor (0 : ℤ) (1e-10 : ℝ) (.iterationLimit 0) := .limit (by omega)
  have hthreshold : RefusedFor (1000 : ℤ) (0 : ℝ) (.threshold 0) := .threshold (by omega) (lt_irrefl 0)
  constructor
  · refine Exists.imp (fun b' h => ⟨h, ?_⟩) ⟨_, exec_configure_of_refused hlimit⟩
    exact (configure_failed_keeps_iff h).2.2.2.mpr (Or.inl rfl)
  · refine Exists.imp (fun b' h => ⟨h, ?_⟩) ⟨_, exec_configure_of_refused hthreshold⟩
    exact (configure_failed_keeps_iff h).2.2.2.mpr (Or.inr rfl)

/-- A builder without a history is left with one by a converter that is refused for an iteration limit of zero. -/
theorem not_configure_failed_keeps :
    ∃ b', exec (configure (σ := Unit) Solver.standard propagated none (some 0) .standard (some firstDay))
        (.kepler 1 .ecr none) = (.error (.iterationLimit 0), b') ∧
      (Builder.kepler (1 : ℝ) .ecr none).eop = none ∧ b'.eop = some firstDay := by
  have hlimit : RefusedFor (0 : ℤ) (1e-10 : ℝ) (.iterationLimit 0) := .limit (by omega)
  exact ⟨_, exec_configure_of_refused hlimit, rfl, rfl⟩

end Converter

end Construction

end OrbitFit
