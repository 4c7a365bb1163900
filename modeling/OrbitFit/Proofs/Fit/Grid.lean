import OrbitFit.Proofs.Fit.SelfFit

/-!
# OrbitFit.Proofs.Fit.Grid — the grid that a sample lies on

The loop of a sample counts nothing: it adds its step to an offset and compares the offset with the span.  In exact
arithmetic the offset after `k` rounds is `k` steps, so the loop ends where `k` reaches the number of intervals, and
the end of the span is the first offset that is left out.

* `offset_real`: what the loop has added up after `k` rounds.
* `offset_lt_span_iff`: the rounds that the loop makes.
* `collect_grid`, `take_grid`: the loop and the operation, for a machine that answers every request.
* `take_ends`: the loop ends for any machine.
-/

namespace OrbitFit

open Propagator (propagate initialState resetInitialState)

/-! ## Machines that do not fail -/

section Unfailing

variable {π α : Type} [Propagator π α]

/-- The machine answers any requests, one after the other, whatever they make of it. -/
def Unfailing (p : π) : Prop := ∀ epochs : List α, ∃ states p', Answered p epochs states p'

theorem Answered.length_eq {p p' : π} {epochs : List α} {states : List (OrbitState α)}
    (h : Answered p epochs states p') : states.length = epochs.length := by
  induction h with
  | none p => rfl
  | next first rest ih => rw [List.length_cons, List.length_cons, ih]

/-- A closed form that has a state at every epoch does not fail. -/
theorem AnalyticPropagator.unfailing [Scalar α] {p : AnalyticPropagator α}
    (h : ∀ epoch, ∃ s, p.stateAt epoch = .ok s) : Unfailing p := by
  intro epochs
  induction epochs with
  | nil => exact ⟨[], p, .none p⟩
  | cons epoch epochs ih =>
    obtain ⟨s, hs⟩ := h epoch
    obtain ⟨states, p', hanswered⟩ := ih
    exact ⟨s :: states, p', .next (Prod.ext hs rfl) hanswered⟩

end Unfailing

/-! ## The grid -/

namespace Sample

section Grid

/-- The epochs at the starts of equal intervals of a span, from an epoch on. -/
noncomputable def grid (epoch span : ℝ) (intervals : ℕ) : List ℝ :=
  (List.range intervals).map fun k : ℕ => shiftEpoch epoch (k * span / intervals)

variable {epoch span : ℝ} {intervals : ℕ}

/-- After `k` rounds the loop has added up `k` steps. -/
theorem offset_real (step : ℝ) (k : ℕ) : offset step k = k * step := by
  induction k with
  | zero =>
    rw [Nat.cast_zero, zero_mul]
    rfl
  | succ k ih =>
    rw [offset, ih, Nat.cast_succ, add_one_mul]

theorem offset_step (span : ℝ) (intervals k : ℕ) : offset (span / intervals) k = k * span / intervals := by
  rw [offset_real, mul_div_assoc]

/-- **The loop makes one round for each interval.** -/
theorem offset_lt_span_iff (hspan : 0 < span) (hn : 0 < intervals) (k : ℕ) :
    offset (span / intervals) k < span ↔ k < intervals := by
  have hpos : (0 : ℝ) < intervals := Nat.cast_pos.mpr hn
  rw [offset_step, div_lt_iff₀ hpos, mul_comm span, mul_lt_mul_iff_of_pos_right hspan, Nat.cast_lt]

theorem epochs_eq_grid (epoch span : ℝ) (intervals : ℕ) :
    epochs epoch (span / intervals) 0 intervals = grid epoch span intervals := by
  unfold epochs grid
  rw [List.range_eq_range']
  exact List.map_congr_left fun k _ => by rw [← shiftEpoch_offset, offset_step]

/-- One point more than there are intervals. -/
theorem ratioChecked_intervals (n : ℕ) :
    ratioChecked (n + 1 - 1 : ℤ) 1 = (.ok (n : ℝ) : Except (Fault ℝ) ℝ) := by
  rw [ratioChecked_real]
  simp

@[simp] theorem length_grid (epoch span : ℝ) (intervals : ℕ) : (grid epoch span intervals).length = intervals := by
  rw [grid, List.length_map, List.length_range]

theorem head?_grid (epoch span : ℝ) (hn : 0 < intervals) : (grid epoch span intervals).head? = some epoch := by
  obtain ⟨n, rfl⟩ : ∃ n, intervals = n + 1 := ⟨intervals - 1, by omega⟩
  rw [grid, List.range_succ_eq_map, List.map_cons, List.head?_cons, Nat.cast_zero, zero_mul, zero_div, shiftEpoch_zero]

theorem shiftEpoch_lt_shiftEpoch_iff {a b : ℝ} : shiftEpoch epoch a < shiftEpoch epoch b ↔ a < b := by
  have hday : (0 : ℝ) < daySeconds := by norm_num [daySeconds]
  unfold shiftEpoch
  rw [add_lt_add_iff_left, div_lt_div_iff_of_pos_right hday]

/-- The grid lies in the span, the start of the span included and its end not. -/
theorem mem_grid (hspan : 0 < span) {t : ℝ} (ht : t ∈ grid epoch span intervals) :
    epoch ≤ t ∧ t < shiftEpoch epoch span := by
  obtain ⟨k, hk, rfl⟩ := List.mem_map.mp ht
  have hk : k < intervals := List.mem_range.mp hk
  have hn : 0 < intervals := by omega
  constructor
  · have hday : (0 : ℝ) < daySeconds := by norm_num [daySeconds]
    unfold shiftEpoch
    rw [le_add_iff_nonneg_right]
    positivity
  · rw [shiftEpoch_lt_shiftEpoch_iff, ← offset_step, offset_lt_span_iff hspan hn]
    exact hk

end Grid

/-! ## Sampling on the grid -/

section Taking

variable {π : Type} [Propagator π ℝ] {p p' : π} {span : ℝ} {states : List (OrbitState ℝ)}

/-- **The loop goes through the grid and ends.** -/
theorem collect_grid {epoch : ℝ} {intervals : ℕ} (hspan : 0 < span) (hn : 0 < intervals)
    (h : Answered p (grid epoch span intervals) states p') :
    collect epoch span (span / intervals) 0 [] p = some (.ok states, p') := by
  have hlength : states.length = intervals := h.length_eq.trans (length_grid epoch span intervals)
  subst hlength
  rw [← epochs_eq_grid] at h
  have hbelow : ∀ j < states.length, offset (span / states.length) (0 + j) < span := fun j hj => by
    rw [Nat.zero_add]
    exact (offset_lt_span_iff hspan hn j).mpr hj
  have hend : ¬ offset (span / states.length) (0 + states.length) < span := by
    rw [Nat.zero_add, offset_lt_span_iff hspan hn]
    exact lt_irrefl _
  rw [show (0 : ℝ) = offset (span / states.length) 0 from rfl, collect_of_answered h hbelow, collect_of_not_lt hend,
    List.append_nil, List.reverse_reverse]

/-- **A sample lies on the grid of its span**: if the machine answers every request, sampling a positive span with
`n + 1 ≥ 2` nominal points asks it for the states at the starts of the `n` intervals, in this order, and has the `n`
answers for its states.  The first epoch is the initial one, all of them lie in the span, and its end is not among
them.  It is the span that ends the loop. -/
theorem take_grid (h : Unfailing p) (hspan : 0 < span) {points : ℤ} (hpoints : 2 ≤ points) :
    ∃ (intervals : ℕ) (states : List (OrbitState ℝ)) (p' : π),
      (intervals : ℤ) = points - 1 ∧ states.length = intervals ∧
      Answered p (grid (initialState p).epoch span intervals) states p' ∧
      take span points p = (.ok ⟨states, span, span / intervals⟩, resetInitialState (initialState p) p') ∧
      (∀ k : ℕ, k < intervals → 0 ≤ k * span / intervals ∧ k * span / intervals < span) ∧
      (grid (initialState p).epoch span intervals).head? = some (initialState p).epoch ∧
      shiftEpoch (initialState p).epoch span ∉ grid (initialState p).epoch span intervals ∧
      collect (initialState p).epoch span (span / intervals) 0 [] p = some (.ok states, p') := by
  obtain ⟨n, rfl⟩ : ∃ n : ℕ, points = n + 1 := ⟨(points - 1).toNat, by omega⟩
  have hn : 0 < n := by omega
  obtain ⟨states, p', hanswered⟩ := h (grid (initialState p).epoch span n)
  refine ⟨n, states, p', by omega, hanswered.length_eq.trans (length_grid _ _ _), hanswered, ?_, fun k hk => ⟨?_, ?_⟩,
    head?_grid _ _ hn, fun hmem => ?_, collect_grid hspan hn hanswered⟩
  · exact take_eq (by omega) hspan (ratioChecked_intervals n) (collect_grid hspan hn hanswered)
  · positivity
  · rw [← offset_step, offset_lt_span_iff hspan hn]
    exact hk
  · exact lt_irrefl _ (mem_grid hspan hmem).2

/-- In exact arithmetic sampling ends: as many steps as there are intervals make up the span, whatever the machine
answers. -/
theorem take_ends (span : ℝ) (points : ℤ) (p : π) : (take span points p).1 ≠ .error .samplingEndless := by
  by_cases hpoints : points < 2
  · simp [take, hpoints]
  by_cases hspan : 0 < span
  · obtain ⟨n, rfl⟩ : ∃ n : ℕ, points = n + 1 := ⟨(points - 1).toNat, by omega⟩
    cases hcollect : collect (initialState p).epoch span (span / n) 0 [] p with
    | none =>
      have hbelow := (collect_eq_none (k := 0) hcollect n).1
      rw [Nat.zero_add, offset_lt_span_iff hspan (by omega)] at hbelow
      exact absurd hbelow (lt_irrefl n)
    | some r =>
      obtain ⟨states, p', hended⟩ := collect_eq_some (k := 0) hcollect
      obtain ⟨-, rfl⟩ | ⟨-, fault, p'', -, rfl⟩ := hended.last
      · rw [take_eq hpoints hspan (ratioChecked_intervals n) hcollect]
        exact nofun
      · rw [take_eq hpoints hspan (ratioChecked_intervals n) hcollect]
        simp [Except.map]
  · simp [take, hpoints, hspan]

theorem unfailing_polar : Unfailing polar := AnalyticPropagator.unfailing exists_stateAt_polar

/-- Four nominal points over one second are three states, a third of a second apart. -/
theorem take_grid_polar : Unfailing polar ∧ ∃ states, (take 1 4 polar).1 = .ok ⟨states, 1, 1 / 3⟩ ∧
    states.map OrbitState.epoch = [2400000.5, 2400000.5 + 1 / 259200, 2400000.5 + 2 / 259200] := by
  obtain ⟨n, states, p', hn, -, hanswered, htake, -⟩ :=
    take_grid unfailing_polar (zero_lt_one : (0 : ℝ) < 1) (by norm_num : (2 : ℤ) ≤ 4)
  obtain rfl : n = 3 := by omega
  refine ⟨unfailing_polar, states, by rw [htake, Nat.cast_ofNat], ?_⟩
  rw [hanswered.reached.1]
  norm_num [grid, List.range_succ, shiftEpoch, daySeconds, polar, initialState]

end Taking

end Sample

end OrbitFit
