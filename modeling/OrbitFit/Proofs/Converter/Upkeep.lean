import OrbitFit.Proofs.Builder.Operations
import OrbitFit.Proofs.Converter.Invariance

/-!
# OrbitFit.Proofs.Converter.Upkeep — a builder between conversions

A conversion frees parameters and then builds, as often as its optimizer asks: whatever becomes of it, its builder is
what operations make of a builder (`exists_operations_of_call`).  So what any operations uphold, conversions uphold
as well (`builder_upheld`).
-/

namespace OrbitFit

open OrbitFit.Action Builder

variable {π α σ : Type}

/-- What holds of a builder that operations made of another. -/
structure Builder.Upheld (first : Builder α) (operations : List (Operation α)) (b : Builder α) : Prop where
  kind : b.kind = first.kind
  sound : b.Sound
  free : b.free = first.lastFreed operations
  /-- the next operation succeeds, or it changes nothing -/
  atomic : ∀ operation : Operation α,
    (∃ b', exec operation.perform b = (.ok ⟨⟩, b') ∧ b.Performed operation b') ∨
      ∃ fault, exec operation.perform b = (.error fault, b)
  /-- what builds is a flat row of a state and of the values of the free parameters -/
  builds : ∀ (epoch : α) (point : Nested α), (exec (Operation.build epoch point).perform b).1 = .ok ⟨⟩ ↔
    ∃ xs, point = .flat xs ∧ xs.length = 6 + b.free.length
  /-- building touches nothing but the values of free parameters -/
  refits : ∀ (epoch : α) (point : Nested α), b.Refitted (exec (Operation.build epoch point).perform b).2

theorem Builder.upheld_afterOperations {first : Builder α} (h : first.Sound) (operations : List (Operation α)) :
    first.Upheld operations (first.afterOperations operations) := by
  obtain ⟨hsound, hkind⟩ := sound_afterOperations h operations
  refine ⟨hkind, hsound, free_afterOperations h operations, hsound.perform_cases, fun epoch point => ?_,
    fun epoch point => ?_⟩
  · obtain ⟨r, v, values, rfl, hl, he⟩ | ⟨hflat, fault, he⟩ := hsound.build_cases epoch point
    · rw [he]
      refine iff_of_true rfl ⟨_, rfl, ?_⟩
      rw [List.length_append, hl]
      rfl
    · rw [he]
      exact iff_of_false nofun hflat
  · obtain ⟨r, v, values, rfl, hl, he⟩ | ⟨-, fault, he⟩ := hsound.build_cases epoch point
    · rw [he]
      exact refitted_place hl
    · rw [he]
      exact Refitted.refl _

/-! ## Conversions -/

section Conversions

/-- An action on a builder and a world does nothing to the builder that operations could not do. -/
def Operating {β : Type} (a : Action α (Builder α × σ) β) : Prop :=
  ∀ m : Builder α × σ, m.1.Reaches (exec a m).2.1

/-- The objectives of a converter only operate on its builder. -/
structure Converter.Operates (c : Converter α σ) : Prop where
  made : ∀ q, Operating (c.objective q)
  value : ∀ o, c.Makes o → ∀ point, Operating (o.value point)
  jacobian : ∀ o, c.Makes o → ∀ derivatives, o.jacobian = some derivatives → ∀ point, Operating (derivatives point)

namespace Converter

variable {c : Converter α σ}

theorem Operates.spares (h : c.Operates) (b : Builder α) : c.Spares fun s => b.Reaches s.builder where
  made q s hs := hs.trans (h.made q s.model)
  value o ho point s hs := hs.trans (h.value o ho point s.model)
  jacobian o ho derivatives hd point s hs := hs.trans (h.jacobian o ho derivatives hd point s.model)
  asked _ _ hs := hs
  built epoch point s hs := hs.trans ((evaluated_build epoch point s.builder).reaches epoch)
  noted _ _ _ _ hs := hs

variable [Scalar α]

/-- Those that propagate only build. -/
theorem operates_standard (frame : Frame) (settings : FitSettings α)
    (optimizer : FitProblem α → StateM σ (Run α (Optimum α))) : (standard frame settings optimizer).Operates where
  made q m := .refl m.1
  value o ho point m := by
    obtain ⟨q, m₀, m₁, hmade⟩ := ho
    obtain rfl := Except.ok.inj (congrArg Prod.fst hmade)
    exact (Objective.evaluated_value q point m.1).reaches q.referenceEpoch
  jacobian o ho derivatives hd := by
    obtain ⟨q, m₀, m₁, hmade⟩ := ho
    obtain rfl := Except.ok.inj (congrArg Prod.fst hmade)
    cases hd

theorem ends_setSample_builder (c : Converter α σ) (states : List (OrbitState α)) (s : Session α σ) :
    Ends (c.setSample states) s (fun _ s' => s'.builder = s.builder) (fun _ s' => s'.builder = s.builder) := by
  unfold setSample
  rw [ends_bind, ends_modify, ends_bind, ends_get, ends_bind, ends_ofExcept]
  exact ⟨fun _ _ => rfl, fun _ _ => rfl⟩

theorem Operates.ends_adapt (h : c.Operates) (task : Task α) (s : Session α σ) :
    Ends (c.adapt task.first task.states task.onlyPosition task.names) s
      (fun _ s' => s.builder.Reaches s'.builder) (fun _ s' => s.builder.Reaches s'.builder) := by
  have hspares := h.spares s.builder
  have hset : ∀ (states : List (OrbitState α)) (t : Session α σ), s.builder.Reaches t.builder →
      Ends (c.setSample states) t (fun _ s' => s.builder.Reaches s'.builder)
        (fun _ s' => s.builder.Reaches s'.builder) := fun states t ht =>
    (ends_setSample_builder c states t).mono (fun _ _ he => he ▸ ht) fun _ _ he => he ▸ ht
  unfold adapt
  rw [ends_bind, ends_modify]
  refine (ends_firstGuess c task.first task.names (P := fun t => s.builder.Reaches t.builder) (by exact .refl _)).bind
    fun guess s₁ h₁ => ?_
  rw [ends_bind, ends_modify]
  refine (hset _ (.report _ s₁) h₁).bind fun _ s₂ h₂ =>
    (hspares.ends_fit h₂ task.first.epoch .warmUp guess).bind fun rough s₃ h₃ => ?_
  refine (hset _ s₃ h₃).bind fun _ s₄ h₄ =>
    (hspares.ends_fit h₄ task.first.epoch .refinement rough).bind fun point s₅ h₅ => ?_
  exact hspares.ends_close h₅ task.first.epoch point

variable [Propagator π α]

/-- **A conversion** does nothing to its builder that operations could not do. -/
theorem Operates.reaches (h : c.Operates) (s : Session α σ) (call : Call π α) :
    s.builder.Reaches (exec (c.call call) s).2.builder := by
  cases htask : call.task? s.builder.available with
  | none =>
    obtain ⟨fault, journal, he⟩ := exec_call_of_none (c := c) htask
    rw [he]
    exact .refl s.builder
  | some task =>
    obtain ⟨b, journal, hb, he⟩ := exec_call_of_some (c := c) htask
    -- the builder that the conversion starts from has the parameters of the task free, which is an operation
    have hend := h.ends_adapt task { s with freeParameters := task.names, builder := b, journal }
    rw [he]
    exact (reaches_withFree hb).trans ((ends_iff_exec (P := fun _ (t : Session α σ) => b.Reaches t.builder)).mp hend)

theorem Operates.reaches_afterCalls (h : c.Operates) (s : Session α σ) (calls : List (Call π α)) :
    s.builder.Reaches (c.afterCalls s calls).builder := by
  induction calls using List.reverseRecOn with
  | nil => exact .refl s.builder
  | append_singleton calls call ih =>
    rw [afterCalls_concat]
    exact ih.trans (h.reaches _ call)

end Converter

variable [Scalar α] [Propagator π α]

/-- **What holds of a builder between operations**: one for either model, after any requests to set parameters free, to
assign values and to build, whatever their arguments and whether they succeed.  A conversion that is called then, with
any objectives that only operate on the builder and any optimizer, is like further operations. -/
theorem builder_upheld (kind : ModelKind) (mu coefficient : α) (frame : Frame) (eop : Option (OrientationHistory α))
    (operations : List (Operation α)) :
    (new kind mu coefficient frame eop).Upheld operations
        ((new kind mu coefficient frame eop).afterOperations operations) ∧
      ∀ (c : Converter α σ) (s : Session α σ) (call : Call π α), c.Operates →
        s.builder = (new kind mu coefficient frame eop).afterOperations operations →
        ∃ more, (exec (c.call call) s).2.builder =
          (new kind mu coefficient frame eop).afterOperations (operations ++ more) := by
  refine ⟨upheld_afterOperations (sound_new kind mu coefficient frame eop) operations, fun c s call hc hs => ?_⟩
  obtain ⟨more, he⟩ := hc.reaches s call
  refine ⟨more, ?_⟩
  rw [he, hs, afterOperations_append]

/-- Requests of which only the second succeeds: a name in the middle of the first is unknown, the third assigns two
numbers to one parameter, and the point of the last has one value too few for a name that is on the list twice. -/
noncomputable def requests : List (Operation ℝ) :=
  [.free ["mu", "drag", "j2"], .free ["j2", "mu", "j2"], .assign "mu" (.flat [1, 1]),
    .build 0 (.flat [1, 0, 0, 0, 1, 0, 1, 1])]

/-- A builder that they were made to. -/
noncomputable def requested : Builder ℝ := (new .j2 1 1 .eci none).afterOperations requests

/-- The list with the name twice is free, a point with one more value builds, and a conversion that gives up behind its
first look has done nothing else to the builder. -/
theorem builder_upheld_requested : requested.Sound ∧ requested.free = ["j2", "mu", "j2"] ∧
    (exec (Operation.build 0 (.flat [1, 0, 0, 0, 1, 0, 1, 1, 1])).perform requested).1 = .ok ⟨⟩ ∧
    ∃ more, (exec (impatient.call (asTheyAre [overPole])) (.start requested ())).2.builder =
      (new .j2 1 1 .eci none).afterOperations (requests ++ more) := by
  obtain ⟨hupheld, hcall⟩ := builder_upheld (π := AnalyticPropagator ℝ) (σ := Unit) .j2 (1 : ℝ) 1 .eci none requests
  have hfree : requested.free = ["j2", "mu", "j2"] := hupheld.free
  refine ⟨hupheld.sound, hfree, (hupheld.builds _ _).mpr ⟨_, rfl, ?_⟩, ?_⟩
  · show _ = 6 + requested.free.length
    rw [hfree]
    rfl
  · exact hcall impatient (.start requested ()) (asTheyAre [overPole]) (Converter.operates_standard ..) rfl

end Conversions

end OrbitFit
