import Mathlib.Data.List.Forall2
import OrbitFit.Proofs.Builder.Evaluation
import OrbitFit.Proofs.NdArray.Row

/-!
# OrbitFit.Proofs.Builder.Operations — what any operations make of a builder

Three operations change a builder: parameters are set free, a value is assigned, a propagator is built.  Each of them
checks its arguments before it writes, so it does all of what it is for (`Builder.Performed`), or it fails and does
nothing.

* `Builder.perform_cases`: an operation on a sound builder succeeds or changes nothing.
* `Builder.Sound.performed`, `Builder.sound_afterOperations`: a builder stays sound.
* `Builder.free_afterOperations`: its free list is the last that was set.
-/

namespace OrbitFit

open OrbitFit.Action

variable {α : Type}

/-! ## Operations -/

section Definitions

/-- What changes a builder. -/
inductive Operation (α : Type) where
  /-- set parameters free, and no others -/
  | free (names : List String)
  /-- assign the array of nested lists to a parameter -/
  | assign (name : String) (value : Nested α)
  /-- build the propagator of a point given by nested lists -/
  | build (epoch : α) (point : Nested α)

/-- The parameters that an operation sets free. -/
def Operation.names? : Operation α → Option (List String)
  | free names => some names
  | _ => none

def Operation.perform : Operation α → Action α (Builder α) Unit
  | free names => do set (← Action.ofExcept ((← get).withFree names))
  | assign name value => do set (← Action.ofExcept ((← get).assign name value))
  | build epoch point => do
    let point ← Action.ofExcept (NdArray.ofNested point)
    let _ ← Builder.build epoch point

/-- The parameters of a model, as a builder declares them. -/
def ModelKind.names : ModelKind → List String
  | kepler => [muName]
  | j2 => [muName, j2Name]

namespace Builder

/-- A new builder for a model.  The second number is the coefficient that only one of the models has. -/
def new (kind : ModelKind) (mu coefficient : α) (frame : Frame) (eop : Option (OrientationHistory α)) : Builder α :=
  match kind with
  | .kepler => kepler mu frame eop
  | .j2 => j2 mu coefficient frame eop

/-- A builder after operations, one after the other, whether they succeed or fail. -/
def afterOperations (b : Builder α) (operations : List (Operation α)) : Builder α :=
  operations.foldl (fun b operation => (exec operation.perform b).2) b

/-- Those of some operations that succeed. -/
def succeeding (b : Builder α) : List (Operation α) → List (Operation α)
  | [] => []
  | operation :: operations =>
    match exec operation.perform b with
    | (.ok _, b') => operation :: b'.succeeding operations
    | (.error _, b') => b'.succeeding operations

/-- The free list that operations leave: the last that was set, or the one before them. -/
def lastFreed (b : Builder α) (operations : List (Operation α)) : List String :=
  ((b.succeeding operations).filterMap Operation.names?).getLastD b.free

/-- A builder has the parameters of its model, each a single number, and adjusts those on its free list. -/
structure Sound (b : Builder α) : Prop where
  available : b.available = b.kind.names
  dimension : ∀ p ∈ b.parameters, p.dimension = 1
  estimated : ∀ p ∈ b.parameters, p.estimated = true ↔ p.name ∈ b.free
  offered : ∀ name ∈ b.free, name ∈ b.available

/-- A builder that differs from another in values of free parameters at most. -/
structure Refitted (b b' : Builder α) : Prop where
  kind : b'.kind = b.kind
  free : b'.free = b.free
  parameters : List.Forall₂ (fun p p' : Parameter α => p'.name = p.name ∧ p'.estimated = p.estimated ∧
    (p.name ∉ b.free → p' = p)) b.parameters b'.parameters

/-- An operation that succeeds makes one builder of another. -/
inductive Performed (b : Builder α) : Operation α → Builder α → Prop
  | freed {names : List String} {b' : Builder α} (set : b.withFree names = .ok b') : Performed b (.free names) b'
  | assigned {name : String} {value : Nested α} {p : Parameter α} {row : NdArray α}
      (found : b.parameter name = .ok p) (read : NdArray.ofNested value = .ok row)
      (fits : row.atLeastRow.shape = [p.dimension]) :
      Performed b (.assign name value) (b.replace { p with value := row.atLeastRow.data })
  | built {epoch : α} {r v : Vec3 α} {values : List α} (enough : values.length = b.free.length) :
      Performed b (.build epoch (.flat (r.toList ++ v.toList ++ values))) (b.place (b.free.zip values))

end Builder

end Definitions

/-! ## One operation -/

section One

namespace Builder

variable {b b' : Builder α} {operation : Operation α}

theorem mem_of_parameter {name : String} {p : Parameter α} (h : b.parameter name = .ok p) : p ∈ b.parameters := by
  unfold parameter at h
  cases hf : b.parameters.find? fun p => p.name == name with
  | none => simp [hf] at h
  | some q =>
    rw [hf] at h
    obtain rfl := Except.ok.inj h
    exact List.mem_of_find?_eq_some hf

theorem Sound.exists_value (h : b.Sound) (name : String) (hn : name ∈ b.available) : ∃ x, b.value name = .ok x := by
  obtain ⟨p, hp⟩ := parameter_eq_ok_iff.mpr hn
  obtain ⟨x, hx⟩ := List.length_eq_one_iff.mp (h.dimension p (mem_of_parameter hp))
  refine ⟨x, ?_⟩
  rw [value, hp]
  show p.first = .ok x
  rw [Parameter.first, hx]

/-- A sound builder lacks nothing that its model needs. -/
theorem Sound.exists_create (h : b.Sound) (epoch : α) (r v : Vec3 α) : ∃ p, b.create epoch r v = .ok p := by
  have hnames := h.available
  cases hk : b.kind with
  | kepler =>
    rw [hk] at hnames
    obtain ⟨mu, hmu⟩ := h.exists_value muName (by simp [hnames, ModelKind.names])
    have hmodel : b.model = .ok .kepler := by rw [model, hk]
    exact ⟨_, create_eq hmu hmodel epoch r v⟩
  | j2 =>
    rw [hk] at hnames
    obtain ⟨mu, hmu⟩ := h.exists_value muName (by simp [hnames, ModelKind.names])
    obtain ⟨x, hx⟩ := h.exists_value j2Name (by simp [hnames, ModelKind.names])
    have hmodel : b.model = .ok (.j2 x) := by
      rw [model, hk]
      simp only [hx]
      rfl
    exact ⟨_, create_eq hmu hmodel epoch r v⟩

/-! ### What it keeps -/

theorem Sound.withFree (h : b.Sound) {names : List String} (hb : b.withFree names = .ok b') : b'.Sound := by
  have havailable := available_withFree hb
  obtain ⟨hoffered, rfl⟩ := withFree_eq_ok_iff.mp hb
  refine ⟨havailable.trans h.available, ?_, ?_, fun name hn => havailable ▸ hoffered name hn⟩
  · intro p hp
    obtain ⟨q, hq, rfl⟩ := List.mem_map.mp hp
    exact h.dimension q hq
  · intro p hp
    obtain ⟨q, hq, rfl⟩ := List.mem_map.mp hp
    exact List.contains_iff_mem

theorem available_replace (b : Builder α) (p : Parameter α) : (b.replace p).available = b.available := by
  simp only [available, replace, List.map_map]
  refine List.map_congr_left fun q _ => ?_
  by_cases hq : q.name = p.name <;> simp [hq]

theorem Sound.replace (h : b.Sound) {name : String} {p : Parameter α} (hp : b.parameter name = .ok p) {values : List α}
    (hv : values.length = p.dimension) : (b.replace { p with value := values }).Sound := by
  have hmem := mem_of_parameter hp
  have havailable := available_replace b { p with value := values }
  refine ⟨havailable.trans h.available, ?_, ?_, fun name hn => havailable ▸ h.offered name hn⟩
  · intro q' hq'
    obtain ⟨q, hq, rfl⟩ := List.mem_map.mp hq'
    split_ifs
    · exact hv.trans (h.dimension p hmem)
    · exact h.dimension q hq
  · intro q' hq'
    obtain ⟨q, hq, rfl⟩ := List.mem_map.mp hq'
    split_ifs
    · exact h.estimated p hmem
    · exact h.estimated q hq

theorem Refitted.refl (b : Builder α) : b.Refitted b :=
  ⟨rfl, rfl, List.forall₂_same.mpr fun _ _ => ⟨rfl, rfl, fun _ => rfl⟩⟩

theorem refitted_place {values : List α} (hv : values.length = b.free.length) :
    b.Refitted (b.place (b.free.zip values)) := by
  refine ⟨by rw [place_eq], place_free b _, ?_⟩
  rw [place_eq, List.forall₂_map_right_iff, List.forall₂_same]
  intro p hp
  refine ⟨Parameter.placed_name _ p, Parameter.placed_estimated _ p, fun hn => Parameter.placed_of_none ?_⟩
  have hsome : (lastValue? (b.free.zip values) p.name).isSome ↔ p.name ∈ b.free := by
    rw [lastValue?_isSome, map_fst_zip_free hv]
  simpa using fun hs => hn (hsome.mp hs)

theorem Sound.place (h : b.Sound) (values : List (String × α)) : (b.place values).Sound := by
  have havailable := place_available b values
  have hfree := place_free b values
  refine ⟨?_, ?_, ?_, fun name hn => ?_⟩
  · rw [havailable, h.available, place_eq]
  · intro p hp
    rw [place_eq] at hp
    obtain ⟨q, hq, rfl⟩ := List.mem_map.mp hp
    unfold Parameter.placed
    split
    · rfl
    · exact h.dimension q hq
  · intro p hp
    rw [hfree]
    rw [place_eq] at hp
    obtain ⟨q, hq, rfl⟩ := List.mem_map.mp hp
    rw [Parameter.placed_estimated, Parameter.placed_name]
    exact h.estimated q hq
  · rw [havailable]
    exact h.offered name (hfree ▸ hn)

/-- **A builder stays sound.** -/
theorem Sound.performed (h : b.Sound) (hp : b.Performed operation b') : b'.Sound := by
  cases hp with
  | freed set => exact h.withFree set
  | assigned found read fits => exact h.replace found (NdArray.length_data_of_row fits)
  | built enough => exact h.place _

/-! ### What it does -/

theorem exec_free (names : List String) (b : Builder α) : exec (Operation.free names).perform b =
    match b.withFree names with
    | .ok b' => (.ok ⟨⟩, b')
    | .error fault => (.error fault, b) := by
  rw [Operation.perform, exec_bind_ok (exec_get b)]
  cases b.withFree names <;> rfl

theorem exec_assign (name : String) (value : Nested α) (b : Builder α) :
    exec (Operation.assign name value).perform b =
      match b.assign name value with
      | .ok b' => (.ok ⟨⟩, b')
      | .error fault => (.error fault, b) := by
  rw [Operation.perform, exec_bind_ok (exec_get b)]
  cases b.assign name value <;> rfl

theorem performed_assign {name : String} {value : Nested α} (h : b.assign name value = .ok b') :
    b.Performed (.assign name value) b' := by
  obtain ⟨p, hp, h⟩ := bind_eq_ok_iff.mp h
  obtain ⟨row, hrow, h⟩ := bind_eq_ok_iff.mp h
  obtain ⟨q, hq, h⟩ := bind_eq_ok_iff.mp h
  obtain rfl := Except.ok.inj h
  unfold Parameter.assign at hq
  dsimp only at hq
  split_ifs at hq with hfits
  obtain rfl := Except.ok.inj hq
  exact .assigned hp hrow (by simpa using hfits)

/-- A flat row with the numbers of a point builds a propagator; anything else is refused. -/
theorem Sound.build_cases (h : b.Sound) (epoch : α) (point : Nested α) :
    (∃ (r v : Vec3 α) (values : List α), point = .flat (r.toList ++ v.toList ++ values) ∧
      values.length = b.free.length ∧
      exec (Operation.build epoch point).perform b = (.ok ⟨⟩, b.place (b.free.zip values))) ∨
    (¬ ∃ xs, point = .flat xs ∧ xs.length = b.pointSize) ∧
      ∃ fault, exec (Operation.build epoch point).perform b = (.error fault, b) := by
  cases ha : NdArray.ofNested point with
  | error fault =>
    refine .inr ⟨fun hflat => ?_, fault, ?_⟩
    · obtain ⟨a, ha', -⟩ := NdArray.ofNested_row_iff.mpr hflat
      cases ha.symm.trans ha'
    · rw [Operation.perform, exec_bind_error (by rw [ha]; rfl)]
  | ok a =>
    have hread : exec (Operation.build epoch point).perform b =
        exec (Builder.build epoch a >>= fun _ => pure ()) b := by
      rw [Operation.perform, ha]
      rfl
    obtain ⟨hs, he⟩ | ⟨r, v, values, hs, hd, hl, he⟩ := Builder.build_cases epoch a b
    · refine .inr ⟨fun hflat => ?_, _, hread.trans (exec_bind_error he _)⟩
      obtain ⟨a', ha', hs'⟩ := NdArray.ofNested_row_iff.mpr hflat
      obtain rfl := Except.ok.inj (ha.symm.trans ha')
      exact hs hs'
    · obtain ⟨xs, rfl, -⟩ := NdArray.ofNested_row_iff.mp ⟨a, ha, hs⟩
      obtain rfl := Except.ok.inj ((NdArray.ofNested_flat xs).symm.trans ha)
      obtain rfl : xs = _ := hd
      obtain ⟨p, hp⟩ := (h.place (b.free.zip values)).exists_create epoch r v
      rw [hp] at he
      exact .inl ⟨r, v, values, rfl, hl, hread.trans (exec_bind_ok he _)⟩

/-- **All or nothing**: an operation does what it is for, or fails and leaves the builder as it was. -/
theorem Sound.perform_cases (h : b.Sound) (operation : Operation α) :
    (∃ b', exec operation.perform b = (.ok ⟨⟩, b') ∧ b.Performed operation b') ∨
      ∃ fault, exec operation.perform b = (.error fault, b) := by
  cases operation with
  | free names =>
    rw [exec_free]
    cases hb : b.withFree names with
    | ok b' => exact .inl ⟨b', rfl, .freed hb⟩
    | error fault => exact .inr ⟨fault, rfl⟩
  | assign name value =>
    rw [exec_assign]
    cases hb : b.assign name value with
    | ok b' => exact .inl ⟨b', rfl, performed_assign hb⟩
    | error fault => exact .inr ⟨fault, rfl⟩
  | build epoch point =>
    obtain ⟨r, v, values, rfl, hl, he⟩ | ⟨-, fault, he⟩ := h.build_cases epoch point
    · exact .inl ⟨_, he, .built hl⟩
    · exact .inr ⟨fault, he⟩

end Builder

end One

/-! ## Any operations -/

section Runs

namespace Builder

variable {b b' : Builder α} {operation : Operation α}

theorem afterOperations_cons (b : Builder α) (operation : Operation α) (operations : List (Operation α)) :
    b.afterOperations (operation :: operations) = (exec operation.perform b).2.afterOperations operations := rfl

theorem afterOperations_append (b : Builder α) (operations operations' : List (Operation α)) :
    b.afterOperations (operations ++ operations') = (b.afterOperations operations).afterOperations operations' :=
  List.foldl_append

theorem sound_new (kind : ModelKind) (mu coefficient : α) (frame : Frame) (eop : Option (OrientationHistory α)) :
    (new kind mu coefficient frame eop).Sound := by
  cases kind with
  | kepler =>
    refine ⟨rfl, ?_, ?_, nofun⟩ <;> simp [new, kepler, Parameter.ofNumber, Parameter.dimension]
  | j2 =>
    refine ⟨rfl, ?_, ?_, nofun⟩ <;> simp [new, j2, Parameter.ofNumber, Parameter.dimension]

theorem Performed.kind_eq (h : b.Performed operation b') : b'.kind = b.kind := by
  cases h with
  | freed set =>
    obtain ⟨-, rfl⟩ := withFree_eq_ok_iff.mp set
    rfl
  | assigned found read fits => rfl
  | built enough => rw [place_eq]

theorem sound_afterOperations (h : b.Sound) (operations : List (Operation α)) :
    (b.afterOperations operations).Sound ∧ (b.afterOperations operations).kind = b.kind := by
  induction operations generalizing b with
  | nil => exact ⟨h, rfl⟩
  | cons operation operations ih =>
    rw [afterOperations_cons]
    obtain ⟨b', he, hp⟩ | ⟨fault, he⟩ := h.perform_cases operation
    · rw [he, ← hp.kind_eq]
      exact ih (h.performed hp)
    · rw [he]
      exact ih h

/-- What becomes of the free list. -/
theorem Performed.free_eq (h : b.Performed operation b') : b'.free = operation.names?.getD b.free := by
  cases h with
  | freed set => exact free_withFree set
  | assigned found read fits => rfl
  | built enough => exact place_free b _

/-- **The free list is the last that was set.** -/
theorem free_afterOperations (h : b.Sound) (operations : List (Operation α)) :
    (b.afterOperations operations).free = b.lastFreed operations := by
  induction operations generalizing b with
  | nil => rfl
  | cons operation operations ih =>
    rw [afterOperations_cons, lastFreed, succeeding]
    obtain ⟨b', he, hp⟩ | ⟨fault, he⟩ := h.perform_cases operation
    · rw [he, ih (h.performed hp), lastFreed, hp.free_eq, List.filterMap_cons]
      cases operation.names? with
      | none => rfl
      | some names => rw [List.getLastD_cons]; rfl
    · rw [he]
      exact ih h

/-- A point builds, whatever comes of it, by placing its values. -/
theorem exec_build_flat {values : List α} (h : values.length = b.free.length) (epoch : α) (r v : Vec3 α) :
    (exec (Operation.build epoch (.flat (r.toList ++ v.toList ++ values))).perform b).2 =
      b.place (b.free.zip values) := by
  have hs : (NdArray.ofList (r.toList ++ v.toList ++ values)).shape = [b.pointSize] := by
    rw [NdArray.shape_ofList, List.length_append, h]
    rfl
  have he : exec (Builder.build epoch (.ofList (r.toList ++ v.toList ++ values))) b = _ := exec_build_of_data hs rfl
  rw [Operation.perform, NdArray.ofNested_flat]
  show (exec (Builder.build epoch _ >>= fun _ => pure ()) b).2 = _
  rw [exec_bind, he]
  cases (b.place (b.free.zip values)).create epoch r v <;> rfl

/-- Operations make one builder of another. -/
def Reaches (b b' : Builder α) : Prop := ∃ operations, b' = b.afterOperations operations

theorem Reaches.refl (b : Builder α) : b.Reaches b := ⟨[], rfl⟩

theorem Reaches.trans {b'' : Builder α} (h : b.Reaches b') (h' : b'.Reaches b'') : b.Reaches b'' := by
  obtain ⟨operations, rfl⟩ := h
  obtain ⟨operations', rfl⟩ := h'
  exact ⟨operations ++ operations', (afterOperations_append b operations operations').symm⟩

theorem Sound.reaches (h : b.Sound) (hb : b.Reaches b') : b'.Sound := by
  obtain ⟨operations, rfl⟩ := hb
  exact (sound_afterOperations h operations).1

theorem reaches_withFree {names : List String} (h : b.withFree names = .ok b') : b.Reaches b' := by
  refine ⟨[.free names], ?_⟩
  rw [afterOperations_cons, exec_free, h]
  rfl

/-- What evaluations do to a builder, operations can do. -/
theorem Evaluated.reaches (h : Evaluated b b') (epoch : α) : b.Reaches b' := by
  obtain rfl | ⟨values, hv, rfl⟩ := h
  · exact .refl _
  · let r : Vec3 α := ⟨epoch, epoch, epoch⟩
    exact ⟨[.build epoch (.flat (r.toList ++ r.toList ++ values))], (exec_build_flat hv epoch r r).symm⟩

end Builder

end Runs

end OrbitFit
