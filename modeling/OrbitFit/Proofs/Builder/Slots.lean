import Mathlib
import OrbitFit.Proofs.Builder.Operations
import OrbitFit.Proofs.Fit.SelfFit

/-!
# OrbitFit.Proofs.Builder.Slots — where the numbers of a point go

Behind the initial state a point has one slot for each name on the free list.  The values of the slots are written
into the parameters from left to right, so a parameter keeps the value of the last slot with its name, and the
propagator is made of what the parameters keep.  A free list may hold a name twice: only the presence of the names
is checked.  Then the first of the two slots has no part in the propagator.

* `parameter?_create`: a propagator has the values of the builder that makes it.
* `takesUp_build`: every slot is taken up that no later slot has the name of.
* `slots_takenUp_iff`: all slots are taken up exactly if no two slots of one name differ.
-/

namespace OrbitFit

open OrbitFit.Action

variable {α : Type}

/-! ## Slots -/

section Definitions

/-- The slots of a point behind the initial state, each with the name that it is for. -/
def NdArray.slots (point : NdArray α) (names : List String) : List (String × α) := names.zip (point.data.drop 6)

/-- Both the builder and the propagator that it made have the value of the slot for the parameter. -/
def Builder.TakesUp (b : Builder α) (p : AnalyticPropagator α) (slot : String × α) : Prop :=
  b.value slot.1 = .ok slot.2 ∧ p.parameter? slot.1 = some slot.2

/-- The initial state of the propagator is the head of the point. -/
structure AnalyticPropagator.StartsAt (p : AnalyticPropagator α) (epoch : α) (frame : Frame) (point : NdArray α) :
    Prop where
  epoch : p.initial.epoch = epoch
  frame : p.initial.frame = frame
  position : p.initial.position.toList = point.data.take 3
  velocity : p.initial.velocity.toList = (point.data.drop 3).take 3

/-- No two slots of one name differ. -/
def Agreeing (slots : List (String × α)) : Prop := ∀ s ∈ slots, ∀ t ∈ slots, s.1 = t.1 → s.2 = t.2

end Definitions

section Slots

variable {slots : List (String × α)}

/-- A slot that no later slot has the name of is the last of its name. -/
theorem lastValue?_append_cons {before after : List (String × α)} {slot : String × α}
    (h : slot.1 ∉ after.map Prod.fst) : lastValue? (before ++ slot :: after) slot.1 = some slot.2 := by
  induction after using List.reverseRecOn with
  | nil => rw [lastValue?_concat, if_pos rfl]
  | append_singleton after entry ih =>
    rw [List.map_append, List.mem_append, not_or] at h
    have hne : slot.1 ≠ entry.1 := by simpa using h.2
    rw [← List.cons_append, ← List.append_assoc, lastValue?_concat, if_neg hne]
    exact ih h.1

theorem lastValue?_of_agreeing (h : Agreeing slots) {slot : String × α} (hs : slot ∈ slots) :
    lastValue? slots slot.1 = some slot.2 := by
  obtain ⟨x, hx⟩ := Option.isSome_iff_exists.mp (lastValue?_isSome.mpr (List.mem_map_of_mem hs))
  exact hx.trans (congrArg some (h _ (mem_of_lastValue? hx) slot hs rfl))

/-- Slots of different names have nothing to agree on. -/
theorem agreeing_of_nodup (h : (slots.map Prod.fst).Nodup) : Agreeing slots := fun _ hs _ ht heq =>
  congrArg Prod.snd (List.inj_on_of_nodup_map h hs ht heq)

/-- In a point of the right length there is a slot for each name. -/
theorem NdArray.map_fst_slots {point : NdArray α} {names : List String} (hs : point.shape = [6 + names.length]) :
    (point.slots names).map Prod.fst = names := by
  have hl : point.data.length = 6 + names.length := NdArray.length_data_of_row hs
  exact List.map_fst_zip (by rw [List.length_drop, hl]; omega)

end Slots

/-! ## From the slots to the propagator -/

section Building

namespace Builder

variable {b : Builder α} {p : AnalyticPropagator α}

/-- **A propagator has the values of the builder** that makes it, for every parameter of the builder. -/
theorem parameter?_create (h : b.Sound) {epoch : α} {r v : Vec3 α} (hp : b.create epoch r v = .ok p) {name : String}
    (hn : name ∈ b.available) {x : α} (hx : b.value name = .ok x) : p.parameter? name = some x := by
  obtain ⟨mu, hmu, hp⟩ := bind_eq_ok_iff.mp hp
  obtain ⟨m, hm, hp⟩ := bind_eq_ok_iff.mp hp
  obtain rfl := Except.ok.inj hp
  have of_mu (hname : name = muName) : mu = x := by
    rw [hname, hmu] at hx
    exact Except.ok.inj hx
  rw [h.available] at hn
  cases hk : b.kind with
  | kepler =>
    rw [hk] at hn
    have hname : name = muName := by simpa [ModelKind.names] using hn
    rw [AnalyticPropagator.parameter?, if_pos hname, of_mu hname]
  | j2 =>
    rw [model, hk] at hm
    obtain ⟨coefficient, hc, hm⟩ := bind_eq_ok_iff.mp hm
    obtain rfl := Except.ok.inj hm
    rw [hk] at hn
    obtain hname | hname : name = muName ∨ name = j2Name := by simpa [ModelKind.names] using hn
    · rw [AnalyticPropagator.parameter?, if_pos hname, of_mu hname]
    · have hcx : coefficient = x := by
        rw [hname, hc] at hx
        exact Except.ok.inj hx
      subst hname
      rw [AnalyticPropagator.parameter?, if_neg j2Name_ne_muName, hcx]
      rfl

/-- **What building does with a point of the right length**: the initial state is the head of the point, and every
free parameter has the value of the last slot of its name. -/
theorem Sound.exists_build (h : b.Sound) (epoch : α) {point : NdArray α} (hs : point.shape = [b.pointSize]) :
    ∃ p b', (build epoch point).exec b = (.ok p, b') ∧ p.StartsAt epoch b.frame point ∧
      ∀ name x, lastValue? (point.slots b.free) name = some x → b'.TakesUp p (name, x) := by
  obtain ⟨r, v, values, hd, hl⟩ := exists_of_shape hs
  have hslots : point.slots b.free = b.free.zip values := by rw [NdArray.slots, hd]; rfl
  have hplaced := h.place (b.free.zip values)
  obtain ⟨p, hp⟩ := hplaced.exists_create epoch r v
  obtain ⟨mu, hinitial, -⟩ := create_eq_ok hp
  have hstarts : p.StartsAt epoch b.frame point := by
    rw [place_eq] at hinitial
    exact ⟨by rw [hinitial], by rw [hinitial], by rw [hinitial, hd]; rfl, by rw [hinitial, hd]; rfl⟩
  refine ⟨p, b.place (b.free.zip values), by rw [exec_build_of_data hs hd, hp], hstarts, fun name x hx => ?_⟩
  rw [hslots] at hx
  have hfree : name ∈ b.free := by
    rw [← map_fst_zip_free hl, ← lastValue?_isSome, hx]
    rfl
  have hn : name ∈ b.available := h.offered name hfree
  have hvalue : (b.place (b.free.zip values)).value name = .ok x := by rw [value_place hn, hx]
  exact ⟨hvalue, parameter?_create hplaced hp (place_available b _ ▸ hn) hvalue⟩

/-- All slots are taken up as soon as the last ones of each name are, and the others agree with them. -/
theorem takesUp_iff_agreeing {b' : Builder α} {slots : List (String × α)}
    (h : ∀ name x, lastValue? slots name = some x → b'.TakesUp p (name, x)) :
    (∀ slot ∈ slots, b'.TakesUp p slot) ↔ Agreeing slots := by
  constructor
  · intro hall s hs t ht heq
    have hst : some s.2 = some t.2 := by rw [← (hall s hs).2, ← (hall t ht).2, heq]
    exact Option.some.inj hst
  · exact fun hagree slot hs => h slot.1 slot.2 (lastValue?_of_agreeing hagree hs)

/-- **Where the slots go.**  For every free list that a builder of a model accepts, in whatever state it is, a point
of the right length builds a propagator that starts at the head of the point.  Every slot that no later slot has the
name of is taken up; all of them are exactly if no two slots of one name differ, so always if no name stands twice
on the list. -/
theorem slots_takenUp_iff {kind : ModelKind} {mu coefficient : α} {frame : Frame} {eop : Option (OrientationHistory α)}
    {operations : List (Operation α)} {names : List String}
    (hb : ((new kind mu coefficient frame eop).afterOperations operations).withFree names = .ok b) (epoch : α)
    {point : NdArray α} (hs : point.shape = [6 + names.length]) :
    ∃ p b', (build epoch point).exec b = (.ok p, b') ∧ p.StartsAt epoch b.frame point ∧
      (∀ before slot after, point.slots names = before ++ slot :: after → slot.1 ∉ after.map Prod.fst →
        b'.TakesUp p slot) ∧
      ((∀ slot ∈ point.slots names, b'.TakesUp p slot) ↔ Agreeing (point.slots names)) ∧
      (names.Nodup → ∀ slot ∈ point.slots names, b'.TakesUp p slot) := by
  have hsound : b.Sound := (sound_afterOperations (sound_new kind mu coefficient frame eop) operations).1.withFree hb
  have hfree : b.free = names := free_withFree hb
  have hsize : point.shape = [b.pointSize] := by rw [hs, pointSize, hfree]
  obtain ⟨p, b', he, hstarts, hlast⟩ := hsound.exists_build epoch hsize
  rw [hfree] at hlast
  have hiff := takesUp_iff_agreeing hlast
  refine ⟨p, b', he, hstarts, fun before slot after hslots hafter => ?_, hiff, fun hn => ?_⟩
  · exact hlast slot.1 slot.2 (hslots ▸ lastValue?_append_cons hafter)
  · refine hiff.mpr (agreeing_of_nodup ?_)
    rwa [NdArray.map_fst_slots hs]

/-- Both parameters free, in the order opposite to their declaration, on a builder with a value assigned. -/
theorem slots_takenUp_iff_reversed : ∃ b p b',
    ((new .j2 (1 : ℝ) 2 .ecr none).afterOperations [.assign muName (.flat [3])]).withFree [j2Name, muName] = .ok b ∧
    (build 5 (NdArray.ofList [1, 2, 3, 4, 5, 6, 7, 8])).exec b = (.ok p, b') ∧
    b'.TakesUp p (j2Name, 7) ∧ b'.TakesUp p (muName, 8) := by
  obtain ⟨b, hb⟩ : ∃ b, ((new .j2 (1 : ℝ) 2 .ecr none).afterOperations
      [.assign muName (.flat [3])]).withFree [j2Name, muName] = .ok b :=
    ⟨_, withFree_eq_ok_iff.mpr ⟨by decide, rfl⟩⟩
  have hs : (NdArray.ofList [(1 : ℝ), 2, 3, 4, 5, 6, 7, 8]).shape = [6 + [j2Name, muName].length] := rfl
  obtain ⟨p, b', he, -, -, -, hall⟩ := slots_takenUp_iff hb 5 hs
  have hall := hall (by decide)
  exact ⟨b, p, b', hb, he, hall _ (by simp [NdArray.slots, NdArray.ofList]),
    hall _ (by simp [NdArray.slots, NdArray.ofList])⟩

/-- The same parameter free twice: the first of its two values gets nowhere. -/
theorem not_takesUp_twice : ∃ point b p b', point.shape = [6 + [muName, muName].length] ∧
    (new .kepler (398600441800000 : ℝ) 0 .eci none).withFree [muName, muName] = .ok b ∧
    (build 2461095 point).exec b = (.ok p, b') ∧
    point.slots [muName, muName] = [(muName, 390000000000000), (muName, 400000000000000)] ∧
    b'.value muName = .ok 400000000000000 ∧ p.initial.mu = 400000000000000 ∧
    ¬ ∀ slot ∈ point.slots [muName, muName], b'.TakesUp p slot := by
  refine ⟨.ofList [7000000, 0, 0, 0, 7500, 0, 390000000000000, 400000000000000], _, _, _, rfl,
    withFree_eq_ok_iff.mpr ⟨by decide, rfl⟩, rfl, rfl, rfl, rfl, fun hall => ?_⟩
  have h := (hall (muName, 390000000000000) (List.mem_cons_self ..)).1
  have h : (400000000000000 : ℝ) = 390000000000000 := Except.ok.inj h
  norm_num at h

end Builder

end Building

end OrbitFit
