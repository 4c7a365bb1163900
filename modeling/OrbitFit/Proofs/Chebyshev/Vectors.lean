import OrbitFit.Chebyshev
import OrbitFit.Proofs.Action
import OrbitFit.Proofs.ExactScalar
import OrbitFit.Proofs.NdArray.Row

/-!
# OrbitFit.Proofs.Chebyshev.Vectors — segments that answer with vectors

A segment is accepted by the sizes of its three arrays, and evaluated by their shapes.  The two do not say the same: a
number has a size and no extent for the degree, arrays of one size may have different shapes, and behind the degree
there may be further extents.  Nothing here depends on the arithmetic, so it is said of any scalars.

* `ofNested_eq_ok_iff`: the segments that are accepted.
* `positionVelocity_cases`: how an evaluation ends, by the shapes.
* `positionVelocity_vectors_iff`: an accepted segment answers with vectors exactly if its coefficients are flat rows.
-/

namespace OrbitFit

open OrbitFit.NdArray (extentLimit)

namespace ChebyshevSegment

variable {α : Type}

/-! ## Accepted segments -/

section Accepted

variable {start duration : α} {x y z : Nested α} {s : ChebyshevSegment α}

theorem ofArrays_eq_ok_iff {a b c : NdArray α} : ofArrays start duration a b c = .ok s ↔
    a.size = b.size ∧ b.size = c.size ∧ a.size ≠ 0 ∧ s = ⟨start, duration, a, b, c⟩ := by
  unfold ofArrays
  by_cases h : a.size = b.size ∧ b.size = c.size ∧ a.size ≠ 0
  · obtain ⟨hab, hbc, hne⟩ := h
    rw [if_pos (by simp [← hbc, ← hab, hne]), Except.ok.injEq, eq_comm]
    simp [hab, hbc, hbc ▸ hab ▸ hne]
  · rw [if_neg (by simpa [and_assoc] using h)]
    refine iff_of_false nofun ?_
    rintro ⟨hab, hbc, hne, -⟩
    exact h ⟨hab, hbc, hne⟩

variable [Scalar α]

/-- **What is accepted**: a positive duration and three arrays of one size other than zero, of any shapes. -/
theorem ofNested_eq_ok_iff : ofNested start duration x y z = .ok s ↔ 0 < duration ∧
    ∃ a b c, NdArray.ofNested x = .ok a ∧ NdArray.ofNested y = .ok b ∧ NdArray.ofNested z = .ok c ∧
      a.size = b.size ∧ b.size = c.size ∧ a.size ≠ 0 ∧ s = ⟨start, duration, a, b, c⟩ := by
  unfold ofNested
  by_cases hd : 0 < duration
  · rw [if_neg (by simp [hd])]
    constructor
    · intro h
      obtain ⟨a, ha, h⟩ := bind_eq_ok_iff.mp h
      obtain ⟨b, hb, h⟩ := bind_eq_ok_iff.mp h
      obtain ⟨c, hc, h⟩ := bind_eq_ok_iff.mp h
      exact ⟨hd, a, b, c, ha, hb, hc, ofArrays_eq_ok_iff.mp h⟩
    · rintro ⟨-, a, b, c, ha, hb, hc, h⟩
      exact bind_eq_ok_iff.mpr ⟨a, ha, bind_eq_ok_iff.mpr ⟨b, hb, bind_eq_ok_iff.mpr ⟨c, hc, ofArrays_eq_ok_iff.mpr h⟩⟩⟩
  · rw [if_pos (by simp [hd])]
    refine iff_of_false nofun ?_
    rintro ⟨hpos, -⟩
    exact hd hpos

end Accepted

/-! ## Evaluation by the shapes -/

section Shapes

variable {s : ChebyshevSegment α}

theorem length_series (width : ℕ) (a : NdArray α) : (series width a).length = width := by
  simp [series]

theorem allSeries_of_unlike (h : ¬ (s.x.shape = s.y.shape ∧ s.y.shape = s.z.shape)) :
    s.allSeries = .error .segmentShapes := by
  unfold allSeries
  rw [if_neg (by simpa using h)]

section Alike

variable (hxy : s.x.shape = s.y.shape) (hyz : s.y.shape = s.z.shape)
include hxy hyz

theorem allSeries_of_numbers (h : s.x.shape = []) : s.allSeries = .error (.segmentAxis 1) := by
  unfold allSeries
  rw [if_pos (by simp [hxy, hyz])]
  simp only [h]

variable {n : ℕ} {extents : List ℕ} (h : s.x.shape = n :: extents)
include h

theorem allSeries_of_deep (hdeep : extentLimit < extents.length + 2) :
    s.allSeries = .error (.segmentExtents (extents.length + 2) extentLimit) := by
  unfold allSeries
  rw [if_pos (by simp [hxy, hyz])]
  simp only [h, if_pos hdeep]

/-- There is a series for each entry of a row of each axis. -/
theorem exists_allSeries (hfits : extents.length + 2 ≤ extentLimit) :
    ∃ all, s.allSeries = .ok (all, 3 :: extents) ∧ all.length = entryCount (3 :: extents) := by
  unfold allSeries
  rw [if_pos (by simp [hxy, hyz])]
  simp only [h, if_neg (not_lt.mpr hfits)]
  refine ⟨_, rfl, ?_⟩
  rw [List.length_append, List.length_append, length_series, length_series, length_series, entryCount]
  omega

theorem exists_positionVelocity [Scalar α] (hfits : extents.length + 2 ≤ extentLimit) (epoch : α) :
    ∃ position velocity, s.positionVelocity epoch = .ok (position, velocity) ∧ position.shape = 3 :: extents ∧
      velocity.shape = if n = 1 then [3] else 3 :: extents := by
  obtain ⟨all, hall, hlength⟩ := exists_allSeries hxy hyz h hfits
  unfold positionVelocity
  rw [hall]
  refine ⟨_, _, rfl, NdArray.shape_arrange (by rw [List.length_map, hlength]), ?_⟩
  by_cases hn : n = 1
  · rw [if_pos (by simp [h, hn]), if_pos hn]
    rfl
  · rw [if_neg (by simp [h, hn]), if_neg hn]
    exact NdArray.shape_arrange (by rw [List.length_map, hlength])

end Alike

/-- **How an evaluation ends**, by the shapes alone. -/
theorem positionVelocity_cases [Scalar α] (s : ChebyshevSegment α) (epoch : α) :
    (¬ (s.x.shape = s.y.shape ∧ s.y.shape = s.z.shape) ∧ s.positionVelocity epoch = .error .segmentShapes) ∨
    (s.x.shape = [] ∧ s.positionVelocity epoch = .error (.segmentAxis 1)) ∨
    (∃ n extents, s.x.shape = n :: extents ∧ extents ≠ [] ∧
      s.positionVelocity epoch = .error (.segmentExtents (extents.length + 2) extentLimit)) ∨
    ∃ n extents position velocity, s.x.shape = n :: extents ∧ s.y.shape = s.x.shape ∧ s.z.shape = s.x.shape ∧
      s.positionVelocity epoch = .ok (position, velocity) ∧ position.shape = 3 :: extents ∧
      velocity.shape = if n = 1 then [3] else 3 :: extents := by
  have hfault : ∀ fault, s.allSeries = .error fault → s.positionVelocity epoch = .error fault := by
    intro fault hall
    unfold positionVelocity
    rw [hall]
    rfl
  by_cases halike : s.x.shape = s.y.shape ∧ s.y.shape = s.z.shape
  · obtain ⟨hxy, hyz⟩ := halike
    cases hshape : s.x.shape with
    | nil => exact .inr (.inl ⟨rfl, hfault _ (allSeries_of_numbers hxy hyz hshape)⟩)
    | cons n extents =>
      by_cases hdeep : extentLimit < extents.length + 2
      · have hne : extents ≠ [] := by
          rintro rfl
          exact absurd hdeep (by decide)
        exact .inr (.inr (.inl ⟨n, extents, rfl, hne, hfault _ (allSeries_of_deep hxy hyz hshape hdeep)⟩))
      · obtain ⟨position, velocity, hok, hposition, hvelocity⟩ :=
          exists_positionVelocity hxy hyz hshape (not_lt.mp hdeep) epoch
        exact .inr (.inr (.inr ⟨n, extents, position, velocity, rfl, hxy.symm.trans hshape,
          hyz.symm.trans (hxy.symm.trans hshape), hok, hposition, hvelocity⟩))
  · exact .inl ⟨halike, hfault _ (allSeries_of_unlike halike)⟩

/-- A segment answers with vectors exactly if its arrays are rows. -/
theorem vectors_iff_rows [Scalar α] (s : ChebyshevSegment α) (epoch : α) :
    (∃ position velocity, s.positionVelocity epoch = .ok (position, velocity) ∧ position.shape = [3] ∧
      velocity.shape = [3]) ↔ ∃ n, s.x.shape = [n] ∧ s.y.shape = [n] ∧ s.z.shape = [n] := by
  constructor
  · rintro ⟨position, velocity, hok, hposition, -⟩
    rcases positionVelocity_cases s epoch with
      ⟨-, hfault⟩ | ⟨-, hfault⟩ | ⟨n, extents, -, -, hfault⟩ | ⟨n, extents, p, v, hx, hy, hz, hok', hp, -⟩
    · cases hok.symm.trans hfault
    · cases hok.symm.trans hfault
    · cases hok.symm.trans hfault
    · cases hok.symm.trans hok'
      -- the position is a vector only where the rows have single entries
      obtain rfl : extents = [] := by simpa using hp.symm.trans hposition
      exact ⟨n, hx, hy.trans hx, hz.trans hx⟩
  · rintro ⟨n, hx, hy, hz⟩
    obtain ⟨position, velocity, hok, hposition, hvelocity⟩ :=
      exists_positionVelocity (hx.trans hy.symm) (hy.trans hz.symm) hx (by decide) epoch
    refine ⟨position, velocity, hok, hposition, ?_⟩
    rw [hvelocity]
    exact ite_self _

end Shapes

/-! ## Segments that answer with vectors -/

section Vectors

variable [Scalar α] {start duration : α} {x y z : Nested α} {s : ChebyshevSegment α}

/-- **An accepted segment answers with a position and a velocity of three components exactly if its coefficients are
three flat rows.** -/
theorem positionVelocity_vectors_iff (h : ofNested start duration x y z = .ok s) (epoch : α) :
    (∃ position velocity, s.positionVelocity epoch = .ok (position, velocity) ∧ position.shape = [3] ∧
      velocity.shape = [3]) ↔ ∃ xs ys zs, x = .flat xs ∧ y = .flat ys ∧ z = .flat zs := by
  obtain ⟨-, a, b, c, ha, hb, hc, hab, hbc, -, rfl⟩ := ofNested_eq_ok_iff.mp h
  rw [vectors_iff_rows]
  constructor
  · rintro ⟨n, hx, hy, hz⟩
    obtain ⟨xs, hxs, -⟩ := NdArray.ofNested_row_iff.mp ⟨a, ha, hx⟩
    obtain ⟨ys, hys, -⟩ := NdArray.ofNested_row_iff.mp ⟨b, hb, hy⟩
    obtain ⟨zs, hzs, -⟩ := NdArray.ofNested_row_iff.mp ⟨c, hc, hz⟩
    exact ⟨xs, ys, zs, hxs, hys, hzs⟩
  · rintro ⟨xs, ys, zs, rfl, rfl, rfl⟩
    rw [NdArray.ofNested_flat, Except.ok.injEq] at ha hb hc
    subst ha hb hc
    have hy : ys.length = xs.length := hab.symm
    have hz : zs.length = xs.length := hbc.symm.trans hab.symm
    exact ⟨xs.length, rfl, by simp [hy], by simp [hz]⟩

/-- Coefficients in columns are accepted, and answered with columns. -/
theorem positionVelocity_vectors_iff_columns :
    ∃ s, ofNested (2461096 : ℝ) 600 (.row [.flat [1], .flat [4]]) (.row [.flat [2], .flat [0]])
        (.row [.flat [3], .flat [-5]]) = .ok s ∧
      ¬ ∃ position velocity, s.positionVelocity 2461096 = .ok (position, velocity) ∧ position.shape = [3] ∧
        velocity.shape = [3] := by
  have hok : ∃ s, ofNested (2461096 : ℝ) 600 (.row [.flat [1], .flat [4]]) (.row [.flat [2], .flat [0]])
      (.row [.flat [3], .flat [-5]]) = .ok s := by
    exact ⟨_, ofNested_eq_ok_iff.mpr ⟨by norm_num, ⟨[2, 1], [1, 4], rfl⟩, ⟨[2, 1], [2, 0], rfl⟩,
      ⟨[2, 1], [3, -5], rfl⟩, rfl, rfl, rfl, rfl, rfl, by decide, rfl⟩⟩
  obtain ⟨s, hs⟩ := hok
  refine ⟨s, hs, (positionVelocity_vectors_iff hs 2461096).not.mpr ?_⟩
  rintro ⟨xs, -, -, hx, -, -⟩
  cases xs with
  | nil => simp [Nested.flat] at hx
  | cons c cs => simp [Nested.flat] at hx

/-- **Three numbers are accepted and cannot be evaluated.** -/
theorem not_positionVelocity_numbers :
    ∃ s, ofNested (2461096 : ℝ) 600 (.leaf 5) (.leaf 5) (.leaf 5) = .ok s ∧
      s.positionVelocity 2461096 = .error (.segmentAxis 1) := by
  refine ⟨⟨2461096, 600, .ofScalar 5, .ofScalar 5, .ofScalar 5⟩, ?_, ?_⟩
  · exact ofNested_eq_ok_iff.mpr ⟨by norm_num, _, _, _, rfl, rfl, rfl, rfl, rfl, by decide, rfl⟩
  · unfold positionVelocity
    rw [allSeries_of_numbers rfl rfl rfl]
    rfl

end Vectors

end ChebyshevSegment

end OrbitFit
