import Mathlib.Data.Nat.Notation
import OrbitFit.NdArray.Broadcast
import OrbitFit.Objective
import OrbitFit.Proofs.Action
import OrbitFit.Targets

/-!
# OrbitFit.Proofs.Fit.Layout — targets and modelled components in rows

The target and the weights of a sample are written by appending to an accumulator, the components of a model by
joining rows.  All are the rows of states in a frame, one behind the other (`target_ofStates`, `weight_ofStates`,
`components_eq_ok_iff`), so the components of a model are the target of the states that it reaches
(`components_eq_target_iff`), and the target of the sample if it reaches those (`components_of_reached`).  Whatever
states it reaches, its components are as many as those of the target (`shape_components`), and are taken from them
one by one (`zipWith_of_shape_eq`).
-/

namespace OrbitFit

/-! ## Arrays of one shape -/

section OneShape

variable {α β : Type}

theorem matchedExtents?_self : ∀ extents : List ℕ, matchedExtents? extents extents = some extents
  | [] => rfl
  | n :: extents => by
    rw [matchedExtents?, if_pos (.inl rfl), matchedExtents?_self extents]
    rfl

theorem commonShape?_self (shape : List ℕ) : commonShape? shape shape = some shape := by
  rw [commonShape?, matchedExtents?_self, Option.map_some, List.reverse_reverse]

/-- Consecutive parts of one length, one behind the other, are the list. -/
theorem flatMap_parts (length : ℕ) : ∀ (count : ℕ) (entries : List β), entries.length = count * length →
    ((List.range count).flatMap fun i => (entries.drop (i * length)).take length) = entries
  | 0, entries, h => by
    rw [List.eq_nil_of_length_eq_zero (h.trans (Nat.zero_mul _))]
    rfl
  | count + 1, entries, h => by
    have hrest : (entries.drop length).length = count * length := by
      rw [List.length_drop, h, Nat.succ_mul, Nat.add_sub_cancel]
    have hdrop : ∀ i, entries.drop ((i + 1) * length) = (entries.drop length).drop (i * length) := fun i => by
      rw [List.drop_drop, Nat.succ_mul, Nat.add_comm]
    rw [List.range_succ_eq_map, List.flatMap_cons, List.flatMap_map, Nat.zero_mul, List.drop_zero]
    simp only [Nat.succ_eq_add_one, hdrop]
    rw [flatMap_parts length count _ hrest, List.take_append_drop]

/-- Nothing is repeated to fill its own extents. -/
theorem spread_self : ∀ (shape : List ℕ) (entries : List β), entries.length = entryCount shape →
    spread shape shape entries = entries
  | [], _, _ => rfl
  | n :: shape, entries, h => by
    let part := fun i => (entries.drop (i * entryCount shape)).take (entryCount shape)
    have hpart : ∀ i ∈ List.range n, spread shape shape (part i) = part i := by
      intro i hi
      refine spread_self shape _ ?_
      have hin : (i + 1) * entryCount shape ≤ n * entryCount shape :=
        Nat.mul_le_mul_right _ (List.mem_range.mp hi)
      rw [Nat.succ_mul] at hin
      rw [List.length_take, List.length_drop, h, entryCount]
      omega
    rw [spread, if_pos rfl, List.flatMap_def, List.map_congr_left hpart, ← List.flatMap_def]
    exact flatMap_parts (entryCount shape) n entries h

theorem spreadTo_self {shape : List ℕ} {entries : List β} (h : entries.length = entryCount shape) :
    spreadTo shape shape entries = entries := by
  rw [spreadTo, Nat.sub_self]
  exact spread_self shape entries h

@[simp] theorem data_arrange (extents : List ℕ) (values : List α) : (NdArray.arrange extents values).data = values := by
  unfold NdArray.arrange
  split
  · rfl
  · rfl

/-- Arrays of one shape are combined entry by entry. -/
theorem zipWith_of_shape_eq (f : α → α → α) {a b : NdArray α} (h : b.shape = a.shape) :
    a.zipWith f b = .ok (NdArray.arrange a.shape (List.zipWith f a.data b.data)) := by
  have hb : b.data.length = entryCount a.shape := by rw [b.length_data, h]
  rw [NdArray.zipWith, h, commonShape?_self]
  dsimp only
  rw [spreadTo_self a.length_data, spreadTo_self hb]

end OneShape

variable {α : Type} [Scalar α]

/-- What a state contributes in a frame by a reading of its vectors and its gravitational parameter. -/
def OrbitState.contribution (s : OrbitState α) (frame : FrameRequest) (eop : Option (OrientationHistory α))
    (reading : Vec3 α → Vec3 α → α → List α) : Except (Fault α) (List α) := do
  let (r, v) ← s.view frame eop
  return reading r v s.mu

/-- The components that a state contributes in a frame. -/
def OrbitState.row (s : OrbitState α) (frame : FrameRequest) (onlyPosition : Bool)
    (eop : Option (OrientationHistory α)) : Except (Fault α) (List α) := do
  let (r, v) ← s.view frame eop
  return if onlyPosition then r.toList else r.toList ++ v.toList

/-- The number of components that a state contributes. -/
def rowWidth (onlyPosition : Bool) : ℕ := if onlyPosition then 3 else 6

/-- The weights of the components of a position and a velocity: one for the position, `|v| |r|² / mu` for each component
of the velocity. -/
def weightsOf (onlyPosition : Bool) (r v : Vec3 α) (mu : α) : List α :=
  if onlyPosition then [1, 1, 1] else [1, 1, 1] ++ List.replicate 3 (v.norm * r.dot r / mu)

theorem OrbitState.length_row {s : OrbitState α} {frame : FrameRequest} {onlyPosition : Bool}
    {eop : Option (OrientationHistory α)} {row : List α} (h : s.row frame onlyPosition eop = .ok row) :
    row.length = rowWidth onlyPosition := by
  obtain ⟨rv, -, h⟩ := bind_eq_ok_iff.mp h
  obtain rfl := Except.ok.inj h
  cases onlyPosition <;> rfl

theorem length_weightsOf (onlyPosition : Bool) (r v : Vec3 α) (mu : α) :
    (weightsOf onlyPosition r v mu).length = rowWidth onlyPosition := by
  cases onlyPosition <;> rfl

theorem OrbitState.length_weights {s : OrbitState α} {frame : FrameRequest} {onlyPosition : Bool}
    {eop : Option (OrientationHistory α)} {row : List α}
    (h : s.contribution frame eop (weightsOf onlyPosition) = .ok row) : row.length = rowWidth onlyPosition := by
  obtain ⟨rv, -, h⟩ := bind_eq_ok_iff.mp h
  obtain rfl := Except.ok.inj h
  exact length_weightsOf onlyPosition rv.1 rv.2 s.mu

omit [Scalar α] in
/-- Rows of one width, one for each entry, have as many numbers as that width times the number of entries. -/
theorem length_flatten_of_mapM {β γ : Type} {f : β → Except (Fault α) (List γ)} {width : ℕ}
    (hf : ∀ x row, f x = .ok row → row.length = width) : ∀ {xs : List β} {rows : List (List γ)},
    xs.mapM f = .ok rows → rows.flatten.length = xs.length * width
  | [], rows, h => by
    rw [List.mapM_nil] at h
    obtain rfl := Except.ok.inj h
    rw [List.flatten_nil, List.length_nil, List.length_nil, Nat.zero_mul]
  | x :: xs, rows, h => by
    obtain ⟨row, rest, hrow, hrest, rfl⟩ := mapM_cons_eq_ok_iff.mp h
    rw [List.flatten_cons, List.length_append, hf x row hrow, length_flatten_of_mapM hf hrest, List.length_cons,
      Nat.succ_mul, Nat.add_comm]

/-! ## Targets -/

section Target

variable (frame : FrameRequest) (onlyPosition : Bool) (eop : Option (OrientationHistory α))

/-- What a part of the targets gains from states, if one state adds a reading of it at the end. -/
theorem foldlM_push {part : Targets α → List α} {reading : Vec3 α → Vec3 α → α → List α}
    (hpush : ∀ t r v mu, part (Targets.push t r v mu onlyPosition) = part t ++ reading r v mu) :
    ∀ (states : List (OrbitState α)) (t : Targets α),
      (states.foldlM (fun (t : Targets α) (s : OrbitState α) => do
        let (r, v) ← s.view frame eop
        return t.push r v s.mu onlyPosition) t).map part =
      (states.mapM fun s : OrbitState α => s.contribution frame eop reading).map fun rows => part t ++ rows.flatten
  | [], t => by
    rw [List.mapM_nil, List.foldlM_nil]
    exact congrArg Except.ok (List.append_nil _).symm
  | s :: states, t => by
    rw [List.mapM_cons, List.foldlM_cons, OrbitState.contribution]
    cases s.view frame eop with
    | error fault => rfl
    | ok p =>
      refine (foldlM_push hpush states (t.push p.1 p.2 s.mu onlyPosition)).trans ?_
      rw [hpush]
      simp only [bind, Except.bind]
      cases states.mapM fun s : OrbitState α => s.contribution frame eop reading with
      | error fault => rfl
      | ok rows => exact congrArg Except.ok (List.append_assoc _ _ _)

theorem Targets.push_target (t : Targets α) (r v : Vec3 α) (mu : α) :
    (t.push r v mu onlyPosition).target =
      t.target ++ if onlyPosition then r.toList else r.toList ++ v.toList := by
  unfold Targets.push
  cases onlyPosition <;> rfl

/-- **The target of a sample** is the rows of its states. -/
theorem target_ofStates {states : List (OrbitState α)} (hne : states ≠ []) :
    (Targets.ofStates states frame onlyPosition eop).map Targets.target =
      (states.mapM fun s : OrbitState α => s.row frame onlyPosition eop).map List.flatten := by
  unfold Targets.ofStates
  rw [if_neg (by simpa using hne), foldlM_push frame onlyPosition eop
    (Targets.push_target onlyPosition)]
  rfl

/-- A sample that has a target is not empty, and the target is made of rows. -/
theorem rows_of_ofStates {states : List (OrbitState α)} {t : Targets α}
    (h : Targets.ofStates states frame onlyPosition eop = .ok t) : states ≠ [] ∧ ∃ rows,
      (states.mapM fun s : OrbitState α => s.row frame onlyPosition eop) = .ok rows ∧ t.target = rows.flatten := by
  have hne : states ≠ [] := by
    rintro rfl
    cases h
  have htarget := target_ofStates frame onlyPosition eop hne
  rw [h] at htarget
  obtain ⟨rows, hrows, hflat⟩ := map_eq_ok_iff.mp htarget.symm
  exact ⟨hne, rows, hrows, hflat.symm⟩

theorem length_target {states : List (OrbitState α)} {t : Targets α}
    (h : Targets.ofStates states frame onlyPosition eop = .ok t) :
    t.target.length = states.length * rowWidth onlyPosition := by
  obtain ⟨-, rows, hrows, hflat⟩ := rows_of_ofStates frame onlyPosition eop h
  rw [hflat, length_flatten_of_mapM (fun s row => OrbitState.length_row) hrows]

theorem Targets.push_weight (t : Targets α) (r v : Vec3 α) (mu : α) :
    (t.push r v mu onlyPosition).weight = t.weight ++ weightsOf onlyPosition r v mu := by
  unfold Targets.push
  cases onlyPosition <;> rfl

variable {frame onlyPosition eop} in
/-- **The weights of a sample** are the rows of its states. -/
theorem weight_ofStates {states : List (OrbitState α)} {t : Targets α}
    (h : Targets.ofStates states frame onlyPosition eop = .ok t) : ∃ rows,
      (states.mapM fun s : OrbitState α => s.contribution frame eop (weightsOf onlyPosition)) = .ok rows ∧
        t.weight = rows.flatten := by
  unfold Targets.ofStates at h
  split at h
  · cases h
  · have hweight := foldlM_push frame onlyPosition eop (Targets.push_weight onlyPosition) states Targets.empty
    rw [h] at hweight
    obtain ⟨rows, hrows, hflat⟩ := map_eq_ok_iff.mp hweight.symm
    exact ⟨rows, hrows, hflat.symm⟩

variable {frame onlyPosition eop} in
theorem length_weight {states : List (OrbitState α)} {t : Targets α}
    (h : Targets.ofStates states frame onlyPosition eop = .ok t) :
    t.weight.length = states.length * rowWidth onlyPosition := by
  obtain ⟨rows, hrows, hflat⟩ := weight_ofStates h
  rw [hflat, length_flatten_of_mapM (fun s row => OrbitState.length_weights) hrows]

theorem exists_ofStates {states : List (OrbitState α)} (hne : states ≠ [])
    (h : ∀ s ∈ states, ∃ p, s.view frame eop = .ok p) :
    ∃ t, Targets.ofStates states frame onlyPosition eop = .ok t := by
  have hrows : ∀ s ∈ states, ∃ row, s.row frame onlyPosition eop = .ok row := fun s hs => by
    obtain ⟨p, hp⟩ := h s hs
    exact ⟨_, by rw [OrbitState.row, hp]; rfl⟩
  obtain ⟨rows, hr⟩ := exists_mapM_iff.mpr hrows
  have ht := target_ofStates frame onlyPosition eop hne
  rw [hr] at ht
  cases he : Targets.ofStates states frame onlyPosition eop with
  | ok t => exact ⟨t, rfl⟩
  | error fault => rw [he] at ht; cases ht

end Target

/-! ## Modelled components -/

section Components

theorem componentsAt_eq (q : ObjectiveRequest α) (p : AnalyticPropagator α) (epoch : α) :
    Objective.componentsAt q p epoch =
      (p.stateAt epoch).bind fun s => s.row q.frame q.onlyPosition q.eop := rfl

/-- The components of a model are the rows of the states that it reaches, at least one of them. -/
theorem components_eq_ok_iff {q : ObjectiveRequest α} {p : AnalyticPropagator α} {model : NdArray α} :
    Objective.components q p = .ok model ↔ ∃ rows, (q.states.mapM fun s : OrbitState α => do
      (← p.stateAt s.epoch).row q.frame q.onlyPosition q.eop) = .ok rows ∧ rows ≠ [] ∧
        model = NdArray.ofList rows.flatten := by
  unfold Objective.components
  rw [bind_eq_ok_iff]
  refine exists_congr fun rows => and_congr_right fun _ => ?_
  cases rows with
  | nil => exact iff_of_false nofun fun h => h.1 rfl
  | cons row rows => exact ⟨fun h => ⟨nofun, (Except.ok.inj h).symm⟩, fun h => congrArg Except.ok h.2.symm⟩

theorem components_eq_ok {q : ObjectiveRequest α} {p : AnalyticPropagator α} {model : NdArray α}
    (h : Objective.components q p = .ok model) : ∃ rows, (q.states.mapM fun s : OrbitState α => do
      (← p.stateAt s.epoch).row q.frame q.onlyPosition q.eop) = .ok rows ∧ model = NdArray.ofList rows.flatten := by
  obtain ⟨rows, hrows, -, hmodel⟩ := components_eq_ok_iff.mp h
  exact ⟨rows, hrows, hmodel⟩

/-- **The components of a model are the target** of the states that it reaches. -/
theorem components_eq_target_iff {q : ObjectiveRequest α} {p : AnalyticPropagator α} {model : NdArray α} :
    Objective.components q p = .ok model ↔ ∃ states t, (q.states.mapM fun s => p.stateAt s.epoch) = .ok states ∧
      Targets.ofStates states q.frame q.onlyPosition q.eop = .ok t ∧ model = NdArray.ofList t.target := by
  rw [components_eq_ok_iff]
  constructor
  · rintro ⟨rows, hrows, hne, rfl⟩
    obtain ⟨states, hstates, hrows⟩ := mapM_bind_eq_ok_iff.mp hrows
    have htarget := target_ofStates q.frame q.onlyPosition q.eop ((mapM_ne_nil_iff hrows).mp hne)
    rw [hrows] at htarget
    obtain ⟨t, ht, hflat⟩ := map_eq_ok_iff.mp htarget
    exact ⟨states, t, hstates, ht, by rw [hflat]⟩
  · rintro ⟨states, t, hstates, ht, rfl⟩
    obtain ⟨hne, rows, hrows, hflat⟩ := rows_of_ofStates _ _ _ ht
    exact ⟨rows, mapM_bind_eq_ok_iff.mpr ⟨states, hstates, hrows⟩, (mapM_ne_nil_iff hrows).mpr hne, by rw [hflat]⟩

/-- **A model has as many components as the target** of the sample that it is for. -/
theorem shape_components {q : ObjectiveRequest α} {p : AnalyticPropagator α} {model : NdArray α}
    (h : Objective.components q p = .ok model) {t : Targets α}
    (ht : Targets.ofStates q.states q.frame q.onlyPosition q.eop = .ok t) : model.shape = [t.target.length] := by
  obtain ⟨states, reached, hstates, hreached, rfl⟩ := components_eq_target_iff.mp h
  rw [NdArray.shape_ofList, length_target _ _ _ hreached, length_target _ _ _ ht, length_of_mapM hstates]

/-- **A model that reaches the states of a sample** has the target of the sample for its components. -/
theorem components_of_reached {q : ObjectiveRequest α} {p : AnalyticPropagator α} (hne : q.states ≠ [])
    (h : ∀ s ∈ q.states, p.stateAt s.epoch = .ok s) {t : Targets α}
    (ht : Targets.ofStates q.states q.frame q.onlyPosition q.eop = .ok t) :
    Objective.components q p = .ok (NdArray.ofList t.target) := by
  have hrows : (q.states.mapM fun s => Objective.componentsAt q p s.epoch) =
      q.states.mapM fun s => s.row q.frame q.onlyPosition q.eop :=
    mapM_congr fun s hs => by
      rw [componentsAt_eq, h s hs]
      rfl
  have htarget := target_ofStates q.frame q.onlyPosition q.eop hne
  rw [ht] at htarget
  obtain ⟨rows, hr, hflat⟩ := map_eq_ok_iff.mp htarget.symm
  exact components_eq_ok_iff.mpr ⟨rows, hrows.trans hr, (mapM_ne_nil_iff hr).mpr hne, by rw [← hflat]⟩

end Components

end OrbitFit
