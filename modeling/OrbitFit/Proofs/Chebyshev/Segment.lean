import OrbitFit.Proofs.Chebyshev.Series
import OrbitFit.Proofs.NdArray.Row

/-!
# OrbitFit.Proofs.Chebyshev.Segment — position and velocity on a segment

The coefficients of a segment are three flat rows of one length.  Each is the series of one axis: its sum at the
normalised time is the coordinate (`track`), and the velocity is the rate of that coordinate in seconds.

* `positionVelocity_rows`: what a segment of three rows answers, by the series of its axes.
* `hasDerivAt_track`: the series of the derivative, scaled to seconds, is the rate of a coordinate.
* `positionVelocity_tracks`: the position lies on the tracks of the three axes, and the velocity is their rate.
-/

open Polynomial.Chebyshev (T)

namespace OrbitFit

open OrbitFit.Chebyshev (evaluate differentiate)

namespace ChebyshevSegment

/-- The coordinate that a series gives `dt` seconds after the start of an interval. -/
noncomputable def track (duration : ℝ) (cs : List ℝ) (dt : ℝ) : ℝ :=
  ∑ k : Fin cs.length, cs.get k * (T ℝ k).eval ((2.0 * dt - duration) / duration)

/-! ## Segments of three rows -/

section Rows

/-- The segment of three rows of coefficients. -/
def ofRows (start duration : ℝ) (xs ys zs : List ℝ) : ChebyshevSegment ℝ :=
  ⟨start, duration, .ofList xs, .ofList ys, .ofList zs⟩

variable {start duration : ℝ} {xs ys zs : List ℝ}

theorem ofNested_flat (hd : 0 < duration) (hy : ys.length = xs.length) (hz : zs.length = xs.length)
    (hne : xs ≠ []) :
    ofNested start duration (.flat xs) (.flat ys) (.flat zs) = .ok (ofRows start duration xs ys zs) := by
  have hlen : xs.length ≠ 0 := by simpa using hne
  unfold ofNested
  rw [NdArray.ofNested_flat, NdArray.ofNested_flat, NdArray.ofNested_flat]
  simp [hd, bind, Except.bind, ofArrays, NdArray.size, hy, hz, hne, ofRows]

/-- A row of numbers is one series. -/
theorem series_ofList (cs : List ℝ) : series 1 (NdArray.ofList cs) = [cs] := by
  have hrow : ∀ k, ((cs.drop (k * 1)).take 1)[0]? = cs[k]? := fun k => by simp
  have hread : ∀ cs : List ℝ, (List.range cs.length).filterMap (fun k => cs[k]?) = cs := by
    intro cs
    induction cs with
    | nil => rfl
    | cons c cs ih =>
      rw [List.length_cons, List.range_succ_eq_map, List.filterMap_cons]
      simpa [List.filterMap_map, Function.comp_def] using ih
  unfold series
  simp only [NdArray.size, NdArray.data_ofList, Nat.div_one, List.filterMap_map, Function.comp_def]
  simp only [List.range_one, List.map_cons, List.map_nil, hrow, hread]

theorem arrange_row (values : List ℝ) : NdArray.arrange [values.length] values = .ofList values := by
  unfold NdArray.arrange
  rw [dif_pos (by simp [entryCount])]
  rfl

theorem allSeries_ofRows (hy : ys.length = xs.length) (hz : zs.length = xs.length) :
    (ofRows start duration xs ys zs).allSeries = .ok ([xs, ys, zs], [3]) := by
  unfold allSeries ofRows
  simp [hy, hz, entryCount, NdArray.extentLimit, series_ofList]

theorem normalised_ofRows (epoch : ℝ) : (ofRows start duration xs ys zs).normalised epoch =
    (2 * ((epoch - start) * 86400) - duration) / duration := by
  unfold normalised secondsBetween daySeconds ofRows
  norm_num

/-- A constant has no rate. -/
theorem evaluate_differentiate_single {cs : List ℝ} (h : cs.length = 1) (t : ℝ) :
    evaluate (differentiate cs) t = 0 := by
  obtain ⟨c, rfl⟩ := List.length_eq_one_iff.mp h
  rfl

/-- **What a segment of three rows answers.** -/
theorem positionVelocity_rows (hy : ys.length = xs.length) (hz : zs.length = xs.length) {epoch t : ℝ}
    (ht : (ofRows start duration xs ys zs).normalised epoch = t) :
    (ofRows start duration xs ys zs).positionVelocity epoch = .ok
      (.ofList ([xs, ys, zs].map fun cs => evaluate cs t),
        .ofList ([xs, ys, zs].map fun cs => evaluate (differentiate cs) t * (2 / duration))) := by
  unfold positionVelocity
  rw [allSeries_ofRows hy hz, ht]
  simp only [bind, Except.bind, pure, Except.pure, Except.ok.injEq, Prod.mk.injEq, Scalar.two_real]
  refine ⟨arrange_row _, ?_⟩
  split_ifs with hone
  · have h1 : xs.length = 1 := by simpa [ofRows] using hone
    simp [evaluate_differentiate_single, h1, hy, hz]
  · exact arrange_row _

end Rows

/-! ## Rates -/

section Rates

variable {start duration : ℝ} {xs ys zs : List ℝ}

theorem track_eq (cs : List ℝ) (dt : ℝ) : track duration cs dt = evaluate cs ((2 * dt - duration) / duration) := by
  rw [Chebyshev.evaluate_eq, ← Scalar.two_real]
  rfl

/-- **The series of the derivative, scaled to seconds**, is the rate of a coordinate. -/
theorem hasDerivAt_track (cs : List ℝ) (dt : ℝ) :
    HasDerivAt (track duration cs)
      (evaluate (differentiate cs) ((2 * dt - duration) / duration) * (2 / duration)) dt := by
  have htime : HasDerivAt (fun dt : ℝ => (2 * dt - duration) / duration) (2 / duration) dt := by
    simpa using (((hasDerivAt_id dt).const_mul 2).sub_const duration).div_const duration
  have htrack : track duration cs = fun dt => evaluate cs ((2 * dt - duration) / duration) := funext (track_eq cs)
  rw [htrack]
  exact (Chebyshev.hasDerivAt_evaluate cs _).comp dt htime

/-- **The position lies on the tracks of the three axes, and the velocity is their rate.** -/
theorem positionVelocity_tracks (hd : 0 < duration) (hy : ys.length = xs.length) (hz : zs.length = xs.length)
    (hne : xs ≠ []) :
    ∃ s, ofNested start duration (.flat xs) (.flat ys) (.flat zs) = .ok s ∧
      ∀ epoch, ∃ vx vy vz, s.positionVelocity epoch = .ok
          (.ofList ([xs, ys, zs].map fun cs => track duration cs ((epoch - start) * 86400)), .ofList [vx, vy, vz]) ∧
        HasDerivAt (track duration xs) vx ((epoch - start) * 86400) ∧
        HasDerivAt (track duration ys) vy ((epoch - start) * 86400) ∧
        HasDerivAt (track duration zs) vz ((epoch - start) * 86400) ∧
        (xs.length = 1 → vx = 0 ∧ vy = 0 ∧ vz = 0) := by
  refine ⟨_, ofNested_flat hd hy hz hne, fun epoch => ⟨_, _, _, ?_, hasDerivAt_track xs _,
    hasDerivAt_track ys _, hasDerivAt_track zs _, fun h1 => ?_⟩⟩
  · simp only [track_eq]
    exact positionVelocity_rows hy hz (normalised_ofRows epoch)
  · rw [evaluate_differentiate_single h1, evaluate_differentiate_single (hy.trans h1),
      evaluate_differentiate_single (hz.trans h1), zero_mul]
    exact ⟨rfl, rfl, rfl⟩

/-- An hour of a segment whose axes have three coefficients each. -/
theorem positionVelocity_tracks_hour : (0 : ℝ) < 3600 ∧
    ∃ s, ofNested 2461095 3600 (.flat [7000000, 250000, -3000]) (.flat [0, 5500000, 0]) (.flat [1, -2, 4]) = .ok s ∧
      ∀ epoch, ∃ vx vy vz, s.positionVelocity epoch = .ok
          (.ofList ([[7000000, 250000, -3000], [0, 5500000, 0], [1, -2, 4]].map fun cs =>
            track 3600 cs ((epoch - 2461095) * 86400)), .ofList [vx, vy, vz]) ∧
        HasDerivAt (track 3600 [7000000, 250000, -3000]) vx ((epoch - 2461095) * 86400) ∧
        HasDerivAt (track 3600 [0, 5500000, 0]) vy ((epoch - 2461095) * 86400) ∧
        HasDerivAt (track 3600 [1, -2, 4]) vz ((epoch - 2461095) * 86400) := by
  have hd : (0 : ℝ) < 3600 := by norm_num
  obtain ⟨s, hs, hpv⟩ := @positionVelocity_tracks 2461095 3600 [7000000, 250000, -3000] [0, 5500000, 0] [1, -2, 4]
    hd rfl rfl (by simp)
  refine ⟨hd, s, hs, fun epoch => ?_⟩
  obtain ⟨vx, vy, vz, hok, hx, hy, hz, -⟩ := hpv epoch
  exact ⟨vx, vy, vz, hok, hx, hy, hz⟩

end Rates

end ChebyshevSegment

end OrbitFit
