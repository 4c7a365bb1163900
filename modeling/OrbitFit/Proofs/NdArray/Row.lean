import Mathlib.Data.Nat.Notation
import Mathlib.Tactic.SplitIfs
import OrbitFit.NdArray

/-!
# OrbitFit.Proofs.NdArray.Row — rows of numbers

A flat row of numbers is read as an array with one extent, and nothing else is: parts of a row that are read as one
array have the same shape, and a part with no extent is a number.

* `NdArray.ofNested_flat`: how a flat row is read.
* `NdArray.ofNested_row_iff`: the nested lists that are read as a row.
-/

namespace OrbitFit

variable {α : Type}

namespace Nested

/-- Numbers in a row. -/
def flat (xs : List α) : Nested α := .row (xs.map .leaf)

theorem flattenParts_leaves (xs : List α) : flattenParts (xs.map .leaf) = xs := by
  induction xs with
  | nil => rfl
  | cons x xs ih => rw [List.map_cons, flattenParts, flatten, ih, List.singleton_append]

theorem sharedShape_leaves : ∀ xs : List α, sharedShape (xs.map .leaf) = []
  | [] => rfl
  | [_] => rfl
  | _ :: _ :: _ => rfl

theorem partsAlike_leaves (xs : List α) : partsAlike (xs.map .leaf) = true := by
  induction xs with
  | nil => rfl
  | cons x xs ih =>
    cases xs with
    | nil => rfl
    | cons y xs => simpa [partsAlike, isRectangular, shape] using ih

theorem commonPrefix_self (extents : List ℕ) : commonPrefix extents extents = extents := by
  induction extents with
  | nil => rfl
  | cons n extents ih => rw [commonPrefix, if_pos rfl, ih]

/-- Parts that are alike have the shape that they share. -/
theorem shape_of_alike : ∀ {parts : List (Nested α)}, partsAlike parts = true →
    ∀ part ∈ parts, part.shape = sharedShape parts
  | [], _ => nofun
  | [part], _ => by simp [sharedShape]
  | part :: next :: parts, h => by
    rw [partsAlike, Bool.and_eq_true, Bool.and_eq_true] at h
    obtain ⟨⟨-, hrest⟩, hnext⟩ := h
    have hshape : part.shape = next.shape := by simpa using hnext
    have hshared := shape_of_alike hrest
    have hall : sharedShape (part :: next :: parts) = sharedShape (next :: parts) := by
      rw [sharedShape, hshape, hshared next (by simp), commonPrefix_self]
      nofun
    intro p hp
    rw [hall]
    obtain rfl | hp := List.mem_cons.mp hp
    · rw [hshape, hshared next (by simp)]
    · exact hshared p hp

theorem eq_leaf_of_shape {part : Nested α} (h : part.shape = []) : ∃ x, part = .leaf x := by
  cases part with
  | leaf x => exact ⟨x, rfl⟩
  | row parts => simp [shape] at h

theorem eq_leaves : ∀ {parts : List (Nested α)}, (∀ part ∈ parts, part.shape = []) →
    ∃ xs : List α, parts = xs.map .leaf
  | [], _ => ⟨[], rfl⟩
  | part :: parts, h => by
    obtain ⟨x, rfl⟩ := eq_leaf_of_shape (h part (by simp))
    obtain ⟨xs, rfl⟩ := eq_leaves fun p hp => h p (List.mem_cons_of_mem _ hp)
    exact ⟨x :: xs, rfl⟩

theorem eq_flat_of_shape {nested : Nested α} {n : ℕ} (h : nested.isRectangular = true) (hs : nested.shape = [n]) :
    ∃ xs, nested = flat xs ∧ xs.length = n := by
  cases nested with
  | leaf x => simp [shape] at hs
  | row parts =>
    rw [shape, List.cons.injEq] at hs
    obtain ⟨xs, rfl⟩ := eq_leaves fun part hp => (shape_of_alike h part hp).trans hs.2
    exact ⟨xs, rfl, by simpa using hs.1⟩

end Nested

theorem NdArray.ofNested_flat (xs : List α) : NdArray.ofNested (.flat xs) = .ok (NdArray.ofList xs) := by
  have hshape : (Nested.flat xs).shape = [xs.length] := by
    rw [Nested.flat, Nested.shape, Nested.sharedShape_leaves, List.length_map]
  have hflatten : (Nested.flat xs).flatten = xs := Nested.flattenParts_leaves xs
  have hrect : (Nested.flat xs).isRectangular = true := Nested.partsAlike_leaves xs
  unfold NdArray.ofNested
  simp only [hshape, hflatten, hrect]
  simp [entryCount, extentLimit, NdArray.ofList]

/-- Values that fill the extents are arranged by them. -/
theorem NdArray.shape_arrange {extents : List ℕ} {values : List α} (h : values.length = entryCount extents) :
    (NdArray.arrange extents values).shape = extents := by
  unfold NdArray.arrange
  rw [dif_pos h]

/-- The nested lists that are read as a row of numbers are flat rows. -/
theorem NdArray.ofNested_row_iff {nested : Nested α} {n : ℕ} :
    (∃ a, NdArray.ofNested nested = .ok a ∧ a.shape = [n]) ↔ ∃ xs, nested = .flat xs ∧ xs.length = n := by
  constructor
  · rintro ⟨a, ha, hs⟩
    unfold NdArray.ofNested at ha
    dsimp only at ha
    split_ifs at ha with hdeep hrect
    obtain rfl := Except.ok.inj ha
    exact Nested.eq_flat_of_shape hrect.1 hs
  · rintro ⟨xs, rfl, rfl⟩
    exact ⟨_, NdArray.ofNested_flat xs, rfl⟩

end OrbitFit
