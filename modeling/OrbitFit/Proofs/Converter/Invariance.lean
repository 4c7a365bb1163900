import OrbitFit.Proofs.Converter.Accounting

/-!
# OrbitFit.Proofs.Converter.Invariance — what the phases of a conversion leave alone

Whatever objectives do, they do to the builder and the world, and whatever an optimizer does, it does to the world.  A
property of sessions that survives both is spared (`Converter.Spares`): it survives a phase, a look at the residuals and
the end of a conversion, also where they fail.
-/

namespace OrbitFit

open OrbitFit.Action

section Spares

variable {α σ : Type}

namespace Converter

/-- The objective is one that the converter makes. -/
def Makes (c : Converter α σ) (o : Objective α (Builder α × σ)) : Prop :=
  ∃ q m m', exec (c.objective q) m = (.ok o, m')

/-- A property of sessions survives what the converter does between two changes of its sample. -/
structure Spares (c : Converter α σ) (P : Session α σ → Prop) : Prop where
  made : ∀ q s, P s → P (s.withModel (exec (c.objective q) s.model).2)
  value : ∀ o, c.Makes o → ∀ point s, P s → P (s.withModel (exec (o.value point) s.model).2)
  jacobian : ∀ o, c.Makes o → ∀ derivatives, o.jacobian = some derivatives →
    ∀ point s, P s → P (s.withModel (exec (derivatives point) s.model).2)
  /-- the optimizer makes a new world -/
  asked : ∀ world s, P s → P (s.withModel (s.builder, world))
  built : ∀ epoch point s, P s → P (s.withModel ((exec (Builder.build epoch point) s.builder).2, s.world))
  noted : ∀ (s : Session α σ) evaluations result journal, P s → P { s with evaluations, result, journal }

namespace Spares

variable {c : Converter α σ} {P : Session α σ → Prop} {s : Session α σ} {β : Type}

/-- A run is one evaluation after the other. -/
theorem against (h : c.Spares P) {o : Objective α (Builder α × σ)} (ho : c.Makes o) (run : Run α β) (hs : P s) :
    P (s.withModel (run.against o s.model).2) := by
  induction run generalizing s with
  | done result => exact hs
  | value point next ih =>
    have hvalue := h.value o ho point s hs
    rw [Run.against_value]
    generalize exec (o.value point) s.model = answered at hvalue ⊢
    exact ih answered.1 hvalue
  | jacobian point next ih =>
    cases hd : o.jacobian with
    | none =>
      rw [Run.against_jacobian_none _ _ _ hd]
      exact ih _ hs
    | some derivatives =>
      have hderivatives := h.jacobian o ho derivatives hd point s hs
      rw [Run.against_jacobian_some _ _ _ hd]
      generalize exec (derivatives point) s.model = answered at hderivatives ⊢
      exact ih answered.1 hderivatives

theorem ends_currentObjective (h : c.Spares P) (hs : P s) (epoch : α) :
    Ends (c.currentObjective epoch) s (fun o s' => c.Makes o ∧ P s') (fun _ s' => P s') := by
  rw [ends_currentObjective_iff]
  have hmade := h.made (s.request c.frame epoch) s hs
  rcases he : exec (c.objective (s.request c.frame epoch)) s.model with ⟨fault | o, m⟩
  · rw [he] at hmade
    exact (ends_of_error he).mpr hmade
  · rw [he] at hmade
    exact (ends_of_ok he).mpr ⟨⟨_, _, _, he⟩, hmade⟩

theorem ends_fit (h : c.Spares P) (hs : P s) (epoch : α) (phase : Phase) (guess : NdArray α) :
    Ends (c.fit epoch phase guess) s (fun _ s' => P s') (fun _ s' => P s') := by
  unfold fit
  refine (h.ends_currentObjective hs epoch).bind fun o s₁ ⟨ho, h₁⟩ => ?_
  let problem : FitProblem α := ⟨c.settings.maxIterations, NdArray.ofList s₁.targets.target,
    NdArray.ofList s₁.targets.weight, guess, o.jacobian.isSome⟩
  rw [ends_bind, ends_get]
  -- the optimizer has changed the world by the time its run is played
  have h₂ := h.against ho (c.optimizer problem s₁.world).1 (h.asked (c.optimizer problem s₁.world).2 s₁ h₁)
  refine (ends_bind_of_ok (Session.exec_lift_onWorld _ s₁)).mpr ?_
  refine (ends_bind_of_ok (Session.exec_lift_onModel _ _)).mpr ?_
  rw [ends_bind, ends_modify, ends_bind, ends_ofExcept]
  have h₃ := fun evaluations result journal => h.noted _ evaluations result journal h₂
  exact ⟨fun optimum _ => h₃ _ _ _, fun fault _ => h₃ _ _ _⟩

variable [Scalar α]

theorem ends_residuals (h : c.Spares P) (hs : P s) (epoch : α) (point : NdArray α) :
    Ends (c.residuals epoch point) s (fun _ s' => P s') (fun _ s' => P s') := by
  unfold residuals
  refine (h.ends_currentObjective hs epoch).bind fun o s₁ ⟨ho, h₁⟩ => ?_
  have h₂ := h.value o ho point s₁ h₁
  rw [ends_bind, Session.ends_onModel]
  rcases he : exec (o.value point) s₁.model with ⟨fault | model, m⟩
  · rw [he] at h₂
    exact (ends_of_error he).mpr h₂
  · rw [he] at h₂
    rw [ends_of_ok he, ends_bind, ends_get, ends_ofExcept]
    exact ⟨fun _ _ => h₂, fun _ _ => h₂⟩

theorem ends_close (h : c.Spares P) (hs : P s) (epoch : α) (point : NdArray α) :
    Ends (do
      let rms := Targets.rootMeanSquare (← c.residuals epoch point).data
      let propagator ← (Builder.build epoch point).onPart Session.builder fun b s => { s with builder := b }
      modify fun s => { s with result := some ⟨propagator, rms, s.evaluations, point⟩ }
      modify fun s => s.report (.converted rms s.evaluations)
      return propagator) s (fun _ s' => P s') (fun _ s' => P s') := by
  refine (h.ends_residuals hs epoch point).bind fun rest s₁ h₁ => ?_
  have h₂ := h.built epoch point s₁ h₁
  rw [ends_bind, ends_onPart]
  rcases he : exec (Builder.build epoch point) s₁.builder with ⟨fault | p, b⟩
  · rw [he] at h₂
    exact (ends_of_error he).mpr h₂
  · rw [he] at h₂
    have h₃ := fun evaluations result journal => h.noted _ evaluations result journal h₂
    exact (ends_of_ok he).mpr (h₃ _ _ _)

end Spares

end Converter

end Spares

end OrbitFit
