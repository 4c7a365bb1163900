import OrbitFit.Action

/-!
# OrbitFit.Proofs.Action — how actions end

`Action.exec` runs an action from a state.  `Action.Ends` says what it ends in: a result and a state, or a fault and
the state that the fault leaves behind.  Each way to build an action has one rule for the first and, through it, one
for the second, so that what a whole operation does is said step by step along its text.  A list of operations that
only read has a result when each of them has one.
-/

namespace OrbitFit

namespace Action

variable {α σ τ β γ : Type}

/-! ## Running -/

section Exec

/-- How an action ends from a state, and the state that it leaves. -/
def exec (a : Action α σ β) (s : σ) : Except (Fault α) β × σ := a.run s

@[simp] theorem exec_pure (b : β) (s : σ) : exec (pure b : Action α σ β) s = (.ok b, s) := rfl

@[simp] theorem exec_throw (f : Fault α) (s : σ) : exec (throw f : Action α σ β) s = (.error f, s) := rfl

@[simp] theorem exec_get (s : σ) : exec (get : Action α σ σ) s = (.ok s, s) := rfl

@[simp] theorem exec_set (s t : σ) : exec (set t : Action α σ PUnit) s = (.ok ⟨⟩, t) := rfl

@[simp] theorem exec_modify (f : σ → σ) (s : σ) : exec (modify f : Action α σ PUnit) s = (.ok ⟨⟩, f s) := rfl

@[simp] theorem exec_ofExcept (x : Except (Fault α) β) (s : σ) : exec (ofExcept x : Action α σ β) s = (x, s) := rfl

@[simp] theorem exec_mk (m : StateM σ (Except (Fault α) β)) (s : σ) : exec (ExceptT.mk m) s = m s := rfl

@[simp] theorem exec_lift (m : StateM σ β) (s : σ) :
    exec (ExceptT.lift m : Action α σ β) s = (.ok (m s).1, (m s).2) := rfl

@[simp] theorem exec_onPart (read : τ → σ) (write : σ → τ → τ) (a : Action α σ β) (s : τ) :
    exec (onPart read write a) s = ((exec a (read s)).1, write (exec a (read s)).2 s) := rfl

@[simp] theorem exec_onFirst (a : Action α σ β) (s : σ × τ) :
    exec (onFirst a) s = ((exec a s.1).1, (exec a s.1).2, s.2) := rfl

@[simp] theorem exec_onSecond (a : Action α σ β) (s : τ × σ) :
    exec (onSecond a) s = ((exec a s.2).1, s.1, (exec a s.2).2) := rfl

@[simp] theorem exec_ofStep (step : σ → Except (Fault α) β × σ) (s : σ) : exec (ofStep step) s = step s := rfl

theorem exec_bind (a : Action α σ β) (f : β → Action α σ γ) (s : σ) :
    exec (a >>= f) s = match exec a s with
      | (.ok b, s') => exec (f b) s'
      | (.error fault, s') => (.error fault, s') := by
  show (match a.run s with | (x, s') => ExceptT.bindCont f x s') = _
  unfold exec
  rcases a.run s with ⟨_ | b, s'⟩ <;> rfl

theorem exec_bind_ok {a : Action α σ β} {s s' : σ} {b : β} (h : exec a s = (.ok b, s')) (f : β → Action α σ γ) :
    exec (a >>= f) s = exec (f b) s' := by
  rw [exec_bind, h]

theorem exec_bind_error {a : Action α σ β} {s s' : σ} {fault : Fault α} (h : exec a s = (.error fault, s'))
    (f : β → Action α σ γ) : exec (a >>= f) s = (.error fault, s') := by
  rw [exec_bind, h]

end Exec

/-! ## What an action ends in -/

section Ends

/-- From `s`, the action ends with a result and a state in `Q`, or with a fault and a state in `E`. -/
def Ends (a : Action α σ β) (s : σ) (Q : β → σ → Prop) (E : Fault α → σ → Prop) : Prop :=
  match exec a s with
  | (.ok b, s') => Q b s'
  | (.error fault, s') => E fault s'

variable {a : Action α σ β} {s s' : σ} {Q Q' : β → σ → Prop} {E E' : Fault α → σ → Prop}

theorem Ends.of_ok (h : Ends a s Q E) {b : β} (he : exec a s = (.ok b, s')) : Q b s' := by
  unfold Ends at h
  rw [he] at h
  exact h

theorem Ends.of_error (h : Ends a s Q E) {fault : Fault α} (he : exec a s = (.error fault, s')) : E fault s' := by
  unfold Ends at h
  rw [he] at h
  exact h

theorem Ends.mono (h : Ends a s Q E) (hQ : ∀ b s', Q b s' → Q' b s') (hE : ∀ f s', E f s' → E' f s') :
    Ends a s Q' E' := by
  unfold Ends
  rcases he : exec a s with ⟨f | b, s'⟩
  · exact hE f s' (h.of_error he)
  · exact hQ b s' (h.of_ok he)

theorem Ends.and (h : Ends a s Q E) (h' : Ends a s Q' E') :
    Ends a s (fun b s' => Q b s' ∧ Q' b s') (fun f s' => E f s' ∧ E' f s') := by
  unfold Ends
  rcases he : exec a s with ⟨f | b, s'⟩
  · exact ⟨h.of_error he, h'.of_error he⟩
  · exact ⟨h.of_ok he, h'.of_ok he⟩

theorem ends_of_ok {b : β} (h : exec a s = (.ok b, s')) : Ends a s Q E ↔ Q b s' := by
  unfold Ends
  rw [h]

theorem ends_of_error {fault : Fault α} (h : exec a s = (.error fault, s')) : Ends a s Q E ↔ E fault s' := by
  unfold Ends
  rw [h]

/-- What is said of a result and of a fault alike is said of the end. -/
theorem ends_iff_exec {P : Except (Fault α) β → σ → Prop} :
    Ends a s (fun b s' => P (.ok b) s') (fun fault s' => P (.error fault) s') ↔ P (exec a s).1 (exec a s).2 := by
  unfold Ends
  rcases exec a s with ⟨_ | b, s'⟩ <;> rfl

theorem ends_congr {a' : Action α σ β} {t : σ} (h : exec a s = exec a' t) :
    Ends a s Q E ↔ Ends a' t Q E := by
  unfold Ends
  rw [h]

theorem ends_bind {f : β → Action α σ γ} {Q : γ → σ → Prop} :
    Ends (a >>= f) s Q E ↔ Ends a s (fun b s' => Ends (f b) s' Q E) E := by
  unfold Ends
  rw [exec_bind]
  rcases exec a s with ⟨_ | b, s'⟩ <;> rfl

theorem ends_bind_of_ok {b : β} (h : exec a s = (.ok b, s')) {f : β → Action α σ γ} {Q : γ → σ → Prop} :
    Ends (a >>= f) s Q E ↔ Ends (f b) s' Q E := by
  unfold Ends
  rw [exec_bind_ok h]

theorem Ends.bind {f : β → Action α σ γ} {Q' : γ → σ → Prop} (h : Ends a s Q E)
    (hf : ∀ b s', Q b s' → Ends (f b) s' Q' E) : Ends (a >>= f) s Q' E :=
  ends_bind.mpr (h.mono hf fun _ _ he => he)

theorem ends_get {Q : σ → σ → Prop} : Ends (get : Action α σ σ) s Q E ↔ Q s s := Iff.rfl

theorem ends_modify {f : σ → σ} {Q : PUnit → σ → Prop} :
    Ends (modify f : Action α σ PUnit) s Q E ↔ Q ⟨⟩ (f s) := Iff.rfl

theorem ends_ofExcept {x : Except (Fault α) β} :
    Ends (ofExcept x) s Q E ↔ (∀ b, x = .ok b → Q b s) ∧ ∀ f, x = .error f → E f s := by
  unfold Ends
  rw [exec_ofExcept]
  cases x with
  | ok b => exact ⟨fun h => ⟨by rintro _ ⟨⟩; exact h, nofun⟩, fun h => h.1 b rfl⟩
  | error f => exact ⟨fun h => ⟨nofun, by rintro _ ⟨⟩; exact h⟩, fun h => h.2 f rfl⟩

theorem ends_lift {m : StateM σ β} :
    Ends (ExceptT.lift m : Action α σ β) s Q E ↔ Q (m s).1 (m s).2 := Iff.rfl

theorem ends_onPart {read : τ → σ} {write : σ → τ → τ} {t : τ} {Q : β → τ → Prop} {E : Fault α → τ → Prop} :
    Ends (onPart read write a) t Q E ↔
      Ends a (read t) (fun b s' => Q b (write s' t)) (fun f s' => E f (write s' t)) := by
  unfold Ends
  rw [exec_onPart]
  rcases exec a (read t) with ⟨_ | b, s'⟩ <;> rfl

end Ends

end Action

/-! ## Results one after another -/

section Results

variable {α β γ : Type} {f g : β → Except (Fault α) γ}

theorem bind_eq_ok_iff {x : Except (Fault α) β} {z : γ} : (x >>= f) = .ok z ↔ ∃ y, x = .ok y ∧ f y = .ok z := by
  cases x with
  | error fault => exact iff_of_false nofun (by rintro ⟨_, ⟨⟩, _⟩)
  | ok y => exact ⟨fun h => ⟨y, rfl, h⟩, by rintro ⟨_, ⟨⟩, h⟩; exact h⟩

theorem map_eq_ok_iff {x : Except (Fault α) β} {f : β → γ} {z : γ} : x.map f = .ok z ↔ ∃ y, x = .ok y ∧ f y = z := by
  cases x with
  | error fault => exact iff_of_false nofun (by rintro ⟨_, ⟨⟩, _⟩)
  | ok y => exact ⟨fun h => ⟨y, rfl, Except.ok.inj h⟩, by rintro ⟨_, ⟨⟩, h⟩; exact congrArg Except.ok h⟩

theorem mapM_cons_eq_ok_iff {x : β} {xs : List β} {zs : List γ} : (x :: xs).mapM f = .ok zs ↔
    ∃ y ys, f x = .ok y ∧ xs.mapM f = .ok ys ∧ zs = y :: ys := by
  rw [List.mapM_cons, bind_eq_ok_iff]
  constructor
  · rintro ⟨y, hy, h⟩
    obtain ⟨ys, hys, h⟩ := bind_eq_ok_iff.mp h
    exact ⟨y, ys, hy, hys, (Except.ok.inj h).symm⟩
  · rintro ⟨y, ys, hy, hys, rfl⟩
    exact ⟨y, hy, bind_eq_ok_iff.mpr ⟨ys, hys, rfl⟩⟩

theorem mapM_congr : ∀ {xs : List β}, (∀ x ∈ xs, f x = g x) → xs.mapM f = xs.mapM g
  | [], _ => by rw [List.mapM_nil, List.mapM_nil]
  | x :: xs, h => by
    rw [List.mapM_cons, List.mapM_cons, h x (by simp), mapM_congr fun y hy => h y (List.mem_cons_of_mem x hy)]

/-- There are results for all entries exactly if there is one for each. -/
theorem exists_mapM_iff : ∀ {xs : List β}, (∃ ys, xs.mapM f = .ok ys) ↔ ∀ x ∈ xs, ∃ y, f x = .ok y
  | [] => iff_of_true ⟨[], List.mapM_nil⟩ (by simp)
  | x :: xs => by
    have ih : (∃ ys, xs.mapM f = .ok ys) ↔ _ := exists_mapM_iff
    rw [List.forall_mem_cons, ← ih]
    constructor
    · rintro ⟨zs, h⟩
      obtain ⟨y, ys, hy, hys, -⟩ := mapM_cons_eq_ok_iff.mp h
      exact ⟨⟨y, hy⟩, ys, hys⟩
    · rintro ⟨⟨y, hy⟩, ys, hys⟩
      exact ⟨y :: ys, mapM_cons_eq_ok_iff.mpr ⟨y, ys, hy, hys, rfl⟩⟩

theorem length_of_mapM : ∀ {xs : List β} {ys : List γ}, xs.mapM f = .ok ys → ys.length = xs.length
  | [], ys, h => by
    rw [List.mapM_nil] at h
    obtain rfl := Except.ok.inj h
    rfl
  | x :: xs, zs, h => by
    obtain ⟨y, ys, -, hys, rfl⟩ := mapM_cons_eq_ok_iff.mp h
    rw [List.length_cons, List.length_cons, length_of_mapM hys]

theorem mapM_ne_nil_iff {xs : List β} {ys : List γ} (h : xs.mapM f = .ok ys) : ys ≠ [] ↔ xs ≠ [] := by
  rw [← List.length_pos_iff, length_of_mapM h, List.length_pos_iff]

/-- Results of results are the same entry by entry and list by list. -/
theorem mapM_bind_eq_ok_iff {δ : Type} {g : γ → Except (Fault α) δ} : ∀ {xs : List β} {zs : List δ},
    (xs.mapM fun x => f x >>= g) = .ok zs ↔ ∃ ys, xs.mapM f = .ok ys ∧ ys.mapM g = .ok zs
  | [], zs => ⟨fun h => ⟨[], List.mapM_nil, h⟩, fun ⟨ys, hys, h⟩ => by
    obtain rfl := Except.ok.inj hys
    exact h⟩
  | x :: xs, zs => by
    constructor
    · intro h
      obtain ⟨z, rest, hz, hrest, rfl⟩ := mapM_cons_eq_ok_iff.mp h
      obtain ⟨y, hy, hz⟩ := bind_eq_ok_iff.mp hz
      obtain ⟨ys, hys, hrest⟩ := mapM_bind_eq_ok_iff.mp hrest
      exact ⟨y :: ys, mapM_cons_eq_ok_iff.mpr ⟨y, ys, hy, hys, rfl⟩,
        mapM_cons_eq_ok_iff.mpr ⟨z, rest, hz, hrest, rfl⟩⟩
    · -- and back: the list of results splits where the list does
      rintro ⟨_, hall, h⟩
      obtain ⟨y, ys, hy, hys, rfl⟩ := mapM_cons_eq_ok_iff.mp hall
      obtain ⟨z, rest, hz, hrest, rfl⟩ := mapM_cons_eq_ok_iff.mp h
      exact mapM_cons_eq_ok_iff.mpr ⟨z, rest, bind_eq_ok_iff.mpr ⟨y, hy, hz⟩,
        mapM_bind_eq_ok_iff.mpr ⟨ys, hys, hrest⟩, rfl⟩

end Results

end OrbitFit
