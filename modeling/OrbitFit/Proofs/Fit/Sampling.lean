import OrbitFit.Proofs.Orbit.Motion
import OrbitFit.Sampling

/-!
# OrbitFit.Proofs.Fit.Sampling — all of a trajectory or nothing of it

Sampling asks an arbitrary machine for states, one request after the other, and stops at the first that fails.  What
was asked is said by the machine itself: it is left as the requests left it, whatever it hides, and then gets its
initial state back.

The loop ends where its offset is not below the span any more.  It need not come there: a machine that answers
everything and a step that is lost in rounding keep it going, and this is an outcome of its own.

* `Answered`: requests that were answered, one after the other.
* `collect_eq_some`, `collect_eq_none`: how the loop ends where it does, and what it has done where it does not.
* `take_cases`: how the whole operation ends.
* `sampling_all_or_nothing`: a sample has the answers to all of its requests, or there is none.
-/

namespace OrbitFit

open Propagator (propagate initialState resetInitialState)

variable {π α : Type} [Scalar α] [Propagator π α]

/-! ## Requests -/

section Requests

/-- From `p`, requests for some epochs are answered by some states, one after the other, and leave `p'`. -/
inductive Answered : π → List α → List (OrbitState α) → π → Prop
  | none (p : π) : Answered p [] [] p
  | next {p p₁ p₂ : π} {epoch : α} {s : OrbitState α} {epochs : List α} {states : List (OrbitState α)}
      (first : propagate epoch p = (.ok s, p₁)) (rest : Answered p₁ epochs states p₂) :
      Answered p (epoch :: epochs) (s :: states) p₂

namespace Sample

/-- The offset of a request: the steps before it, added up one after the other. -/
def offset (step : α) : ℕ → α
  | 0 => 0
  | k + 1 => offset step k + step

/-- The epoch of a request: its offset, in days of 86400 seconds, after the initial epoch. -/
def epochAt (epoch step : α) (k : ℕ) : α := epoch + offset step k / 86400.0

/-- The epochs of `n` requests from the `k`-th on. -/
def epochs (epoch step : α) (k n : ℕ) : List α := (List.range' k n).map (epochAt epoch step)

theorem shiftEpoch_offset (epoch step : α) (k : ℕ) : shiftEpoch epoch (offset step k) = epochAt epoch step k := rfl

theorem epochs_succ (epoch step : α) (k n : ℕ) :
    epochs epoch step k (n + 1) = epochAt epoch step k :: epochs epoch step (k + 1) n := by
  rw [epochs, List.range'_succ]
  rfl

end Sample

end Requests

/-! ## The loop -/

section Loop

namespace Sample

variable {epoch span step off : α} {found states : List (OrbitState α)} {s : OrbitState α} {p p₁ p' : π}

theorem collect_of_not_lt (ho : ¬ off < span) : collect epoch span step off found p = some (.ok found.reverse, p) := by
  rw [collect, if_neg ho]

theorem collect_of_answer (ho : off < span) (hs : propagate (shiftEpoch epoch off) p = (.ok s, p₁)) :
    collect epoch span step off found p = collect epoch span step (off + step) (s :: found) p₁ := by
  rw [collect, if_pos ho, hs]

theorem collect_of_failure {fault : Fault α} (ho : off < span)
    (hs : propagate (shiftEpoch epoch off) p = (.error fault, p₁)) :
    collect epoch span step off found p = some (.error (.samplingFailed off fault), p₁) := by
  rw [collect, if_pos ho, hs]

/-- The loop goes on behind requests that are answered. -/
theorem collect_of_answered : ∀ {states found : List (OrbitState α)} {k : ℕ} {p : π},
    Answered p (epochs epoch step k states.length) states p' → (∀ j < states.length, offset step (k + j) < span) →
    collect epoch span step (offset step k) found p =
      collect epoch span step (offset step (k + states.length)) (states.reverse ++ found) p'
  | [], found, k, p, h, _ => by
    cases h
    rfl
  | s :: states, found, k, p, h, hbelow => by
    rw [List.length_cons, epochs_succ] at h
    cases h with
    | next first rest =>
      have hk : k + (states.length + 1) = k + 1 + states.length := by omega
      have hfirst : offset step k < span := hbelow 0 (Nat.succ_pos _)
      rw [List.length_cons, collect_of_answer hfirst first, hk, List.reverse_cons, List.append_assoc]
      refine collect_of_answered rest fun j hj => ?_
      rw [show k + 1 + j = k + (j + 1) by omega]
      exact hbelow (j + 1) (Nat.succ_lt_succ hj)

/-- A loop that ends has answers to its requests up to one offset: there the span is used up, or the request fails. -/
structure Ended (epoch span step : α) (k : ℕ) (found : List (OrbitState α)) (p : π) (states : List (OrbitState α))
    (p' : π) (r : Except (Fault α) (List (OrbitState α)) × π) : Prop where
  answered : Answered p (epochs epoch step k states.length) states p'
  below : ∀ j < states.length, offset step (k + j) < span
  last : ¬ offset step (k + states.length) < span ∧ r = (.ok (found.reverse ++ states), p') ∨
    offset step (k + states.length) < span ∧ ∃ fault p'',
      propagate (epochAt epoch step (k + states.length)) p' = (.error fault, p'') ∧
        r = (.error (.samplingFailed (offset step (k + states.length)) fault), p'')

/-- One more answer before a loop that ends. -/
theorem Ended.cons {k : ℕ} {r : Except (Fault α) (List (OrbitState α)) × π} (ho : offset step k < span)
    (hs : propagate (epochAt epoch step k) p = (.ok s, p₁))
    (h : Ended epoch span step (k + 1) (s :: found) p₁ states p' r) :
    Ended epoch span step k found p (s :: states) p' r := by
  have hk : k + (s :: states).length = k + 1 + states.length := by
    rw [List.length_cons]
    omega
  refine ⟨?_, ?_, ?_⟩
  · rw [List.length_cons, epochs_succ]
    exact .next hs h.answered
  · rintro (_ | j) hj
    · exact ho
    · rw [show k + (j + 1) = k + 1 + j by omega]
      exact h.below j (Nat.lt_of_succ_lt_succ hj)
  · rw [hk, List.append_cons, ← List.reverse_cons]
    exact h.last

/-- **How the loop ends** from its `k`-th offset on, if it ends. -/
theorem collect_eq_some {r : Except (Fault α) (List (OrbitState α)) × π} {k : ℕ}
    (h : collect epoch span step (offset step k) found p = some r) :
    ∃ states p', Ended epoch span step k found p states p' r := by
  -- the offset is a variable for the principle of the loop, and goes up a step with `k`
  suffices hall : ∀ off found p r, collect epoch span step off found p = some r →
      ∀ k, off = offset step k → ∃ states p', Ended epoch span step k found p states p' r from hall _ _ _ _ h k rfl
  -- a run that ends is finite, so what one round hands on to the rest holds of the whole
  refine collect.partial_correctness epoch span step _ fun rest ih off found p r hrun k hk => ?_
  subst hk
  split at hrun
  case isFalse ho =>
    obtain rfl := Option.some.inj hrun
    exact ⟨[], p, .none p, nofun, .inl ⟨ho, by rw [List.append_nil]⟩⟩
  case isTrue ho =>
    split at hrun
    case h_1 fault p₁ hs =>
      obtain rfl := Option.some.inj hrun
      exact ⟨[], p, .none p, nofun, .inr ⟨ho, fault, p₁, hs, rfl⟩⟩
    case h_2 s p₁ hs =>
      obtain ⟨states, p', hended⟩ := ih _ _ _ _ hrun (k + 1) rfl
      exact ⟨s :: states, p', hended.cons ho hs⟩

/-- A round of a loop that does not end is answered, and the loop behind it does not end either. -/
theorem collect_eq_none_step (h : collect epoch span step off found p = none) :
    off < span ∧ ∃ s p₁, propagate (shiftEpoch epoch off) p = (.ok s, p₁) ∧
      collect epoch span step (off + step) (s :: found) p₁ = none := by
  by_cases ho : off < span
  · rcases hs : propagate (shiftEpoch epoch off) p with ⟨fault | s, p₁⟩
    · rw [collect_of_failure ho hs] at h
      cases h
    · rw [collect_of_answer ho hs] at h
      exact ⟨ho, s, p₁, rfl, h⟩
  · rw [collect_of_not_lt ho] at h
    cases h

/-- **A loop that does not end** has any number of its requests answered, all of them below the span. -/
theorem collect_eq_none {k : ℕ} (h : collect epoch span step (offset step k) found p = none) (n : ℕ) :
    offset step (k + n) < span ∧ ∃ states p', Answered p (epochs epoch step k n) states p' := by
  induction n generalizing k found p with
  | zero => exact ⟨(collect_eq_none_step h).1, [], p, .none p⟩
  | succ n ih =>
    obtain ⟨-, s, p₁, hs, hrest⟩ := collect_eq_none_step h
    obtain ⟨hbelow, states, p', hanswered⟩ := ih (k := k + 1) hrest
    refine ⟨?_, s :: states, p', ?_⟩
    · rw [show k + (n + 1) = k + 1 + n by omega]
      exact hbelow
    · rw [epochs_succ]
      exact .next hs hanswered

end Sample

end Loop

/-! ## The operation -/

section Operation

namespace Sample

/-- Past the checks of its arguments, sampling is the loop from the initial epoch on, which is undone at the end. -/
theorem take_eq {span : α} {points : ℤ} {intervals : α} (hpoints : ¬ points < 2) (hspan : 0 < span)
    (hn : ratioChecked (points - 1) 1 = .ok intervals) {p p' : π} {found : Except (Fault α) (List (OrbitState α))}
    (hcollect : collect (initialState p).epoch span (span / intervals) 0 [] p = some (found, p')) :
    take span points p =
      (found.map fun states => ⟨states, span, span / intervals⟩, resetInitialState (initialState p) p') := by
  unfold take
  rw [if_neg hpoints, if_neg (by simpa using hspan), hn]
  dsimp only
  rw [hcollect]

/-- Sampling a machine has answers to its first requests and makes the next one. -/
structure Due (span : α) (points : ℤ) (p : π) (step : α) (states : List (OrbitState α)) (p' : π) : Prop where
  two_le : 2 ≤ points
  pos : 0 < span
  spacing : ∃ intervals, ratioChecked (points - 1) 1 = .ok intervals ∧ step = span / intervals
  answered : Answered p (epochs (initialState p).epoch step 0 states.length) states p'
  below : ∀ j ≤ states.length, offset step j < span

/-- A request that fails is the last, and the initial state is given back. -/
theorem take_of_due {span step : α} {points : ℤ} {p p' p'' : π} {states : List (OrbitState α)} {fault : Fault α}
    (h : Due span points p step states p')
    (hf : propagate (epochAt (initialState p).epoch step states.length) p' = (.error fault, p'')) :
    take span points p =
      (.error (.samplingFailed (offset step states.length) fault), resetInitialState (initialState p) p'') := by
  obtain ⟨intervals, hn, rfl⟩ := h.spacing
  have hbelow : ∀ j < states.length, offset (span / intervals) (0 + j) < span := fun j hj => by
    rw [Nat.zero_add]
    exact h.below j hj.le
  have hrun : collect (initialState p).epoch span (span / intervals) 0 [] p =
      some (.error (.samplingFailed (offset (span / intervals) states.length) fault), p'') := by
    rw [show (0 : α) = offset (span / intervals) 0 from rfl, collect_of_answered h.answered hbelow, Nat.zero_add]
    exact collect_of_failure (h.below states.length le_rfl) hf
  exact take_eq (not_lt.mpr h.two_le) h.pos hn hrun

/-- **How sampling ends**: it is turned away and asks for nothing, or it asks for states from the initial epoch on,
until the span is used up or a request fails, and then gives the initial state back; or it asks for ever. -/
theorem take_cases (span : α) (points : ℤ) (p : π) :
    ((points < 2 ∨ ¬ 0 < span ∨ ∀ n : α, ratioChecked (points - 1) 1 ≠ .ok n) ∧
        ∃ fault, take span points p = (.error fault, p)) ∨
      2 ≤ points ∧ 0 < span ∧ ∃ intervals step,
        ratioChecked (points - 1) 1 = .ok intervals ∧ step = span / intervals ∧
        ((∃ states p', Answered p (epochs (initialState p).epoch step 0 states.length) states p' ∧
            (∀ j < states.length, offset step j < span) ∧
            (¬ offset step states.length < span ∧
                take span points p = (.ok ⟨states, span, step⟩, resetInitialState (initialState p) p') ∨
              offset step states.length < span ∧ ∃ fault p'',
                propagate (epochAt (initialState p).epoch step states.length) p' = (.error fault, p'') ∧
                take span points p = (.error (.samplingFailed (offset step states.length) fault),
                  resetInitialState (initialState p) p''))) ∨
          (∀ n, offset step n < span ∧ ∃ states p', Answered p (epochs (initialState p).epoch step 0 n) states p') ∧
            take span points p = (.error .samplingEndless, p)) := by
  -- the three arguments are looked at in this order, and each alone turns the request away
  by_cases hpoints : points < 2
  · exact .inl ⟨.inl hpoints, .samplePoints points, if_pos hpoints⟩
  by_cases hspan : 0 < span
  · cases hn : (ratioChecked (points - 1) 1 : Except (Fault α) α) with
    | error fault =>
      refine .inl ⟨.inr (.inr nofun), fault, ?_⟩
      unfold take
      rw [if_neg hpoints, if_neg (by simpa using hspan), hn]
    | ok intervals =>
      refine .inr ⟨not_lt.mp hpoints, hspan, intervals, _, rfl, rfl, ?_⟩
      cases hcollect : collect (initialState p).epoch span (span / intervals) 0 [] p with
      | none =>
        refine .inr ⟨fun n => ?_, ?_⟩
        · have hn := collect_eq_none (k := 0) hcollect n
          rwa [Nat.zero_add] at hn
        · unfold take
          rw [if_neg hpoints, if_neg (by simpa using hspan), hn]
          dsimp only
          rw [hcollect]
      | some r =>
        obtain ⟨states, p', hended⟩ := collect_eq_some (k := 0) hcollect
        obtain ⟨hanswered, hbelow, hlast⟩ := hended
        simp only [Nat.zero_add] at hbelow hlast
        refine .inl ⟨states, p', hanswered, hbelow, ?_⟩
        obtain ⟨hend, rfl⟩ | ⟨hend, fault, p'', hfault, rfl⟩ := hlast
        · exact .inl ⟨hend, take_eq hpoints hspan hn hcollect⟩
        · exact .inr ⟨hend, fault, p'', hfault, take_eq hpoints hspan hn hcollect⟩
  · refine .inl ⟨.inr (.inl hspan), .sampleSpan span, ?_⟩
    unfold take
    rw [if_neg hpoints, if_pos (by simpa using hspan)]

end Sample

end Operation

/-! ## All or nothing -/

section AllOrNothing

open Sample

/-- **Sampling is all or nothing**, and leaves the initial state alone.  An argument that is turned away asks the
machine for nothing.  Otherwise the machine is asked for states at the offsets from the initial epoch, one after the
other, and is left as these requests leave it.  If all are answered until the span is used up, the sample has the
answers in their order; if one fails it is the last, there is no sample, and the fault that says so has the one of the
machine as its cause.  The third way is a machine that answers everything while no offset reaches the span. -/
theorem sampling_all_or_nothing [LawfulPropagator π] (span : α) (points : ℤ) (p : π) :
    initialState (take span points p).2 = initialState p ∧
      (((points < 2 ∨ ¬ 0 < span ∨ ∀ n : α, ratioChecked (points - 1) 1 ≠ .ok n) ∧
          ∃ fault, take span points p = (.error fault, p)) ∨
        2 ≤ points ∧ 0 < span ∧ ∃ intervals step,
          ratioChecked (points - 1) 1 = .ok intervals ∧ step = span / intervals ∧
          ((∃ states p', Answered p (epochs (initialState p).epoch step 0 states.length) states p' ∧
              (∀ j < states.length, offset step j < span) ∧
              (¬ offset step states.length < span ∧
                  take span points p = (.ok ⟨states, span, step⟩, resetInitialState (initialState p) p') ∨
                offset step states.length < span ∧ ∃ fault p'' failure,
                  propagate (epochAt (initialState p).epoch step states.length) p' = (.error fault, p'') ∧
                  take span points p = (.error failure, resetInitialState (initialState p) p'') ∧
                  failure.kind = .sampling ∧ failure.cause? = some fault)) ∨
            (∀ n, offset step n < span ∧ ∃ states p', Answered p (epochs (initialState p).epoch step 0 n) states p') ∧
              take span points p = (.error .samplingEndless, p))) := by
  have hreset (q : π) : initialState (resetInitialState (initialState p) q) = initialState p :=
    LawfulPropagator.initialState_reset _ _
  obtain ⟨hargument, fault, htake⟩ | ⟨hpoints, hspan, intervals, step, hn, hstep,
    ⟨states, p', hanswered, hbelow, ⟨hend, htake⟩ | ⟨hend, fault, p'', hfault, htake⟩⟩ | ⟨hendless, htake⟩⟩ :=
    take_cases span points p
  · exact ⟨by rw [htake], .inl ⟨hargument, fault, htake⟩⟩
  · exact ⟨by rw [htake, hreset], .inr ⟨hpoints, hspan, intervals, step, hn, hstep,
      .inl ⟨states, p', hanswered, hbelow, .inl ⟨hend, htake⟩⟩⟩⟩
  · exact ⟨by rw [htake, hreset], .inr ⟨hpoints, hspan, intervals, step, hn, hstep,
      .inl ⟨states, p', hanswered, hbelow, .inr ⟨hend, fault, p'', _, hfault, htake, rfl, rfl⟩⟩⟩⟩
  · exact ⟨by rw [htake], .inr ⟨hpoints, hspan, intervals, step, hn, hstep, .inr ⟨hendless, htake⟩⟩⟩

/-- A machine that moves along with its answers, writes down the epochs that it is asked for, and has a number of
answers left. -/
structure Diary where
  initial : OrbitState ℝ
  asked : List ℝ
  left : ℕ

namespace Diary

/-- The answer stays where the machine is; only the epoch is the one asked for. -/
noncomputable def answer (epoch : ℝ) (d : Diary) : Except (Fault ℝ) (OrbitState ℝ) × Diary :=
  match d.left with
  | 0 => (.error (.reported .propagation "no answers left"), { d with asked := d.asked ++ [epoch] })
  | left + 1 =>
    (.ok { d.initial with epoch := epoch }, ⟨{ d.initial with epoch := epoch }, d.asked ++ [epoch], left⟩)

noncomputable instance : Propagator Diary ℝ where
  initialState d := d.initial
  resetInitialState s d := { d with initial := s }
  propagate := answer

instance : LawfulPropagator Diary := ⟨fun _ _ => rfl⟩

/-- An empty diary of a machine that starts at the epoch 100. -/
noncomputable def fresh (left : ℕ) : Diary := ⟨⟨100, ⟨1, 0, 0⟩, ⟨0, 0, 1⟩, 1, .eci⟩, [], left⟩

end Diary

/-- Three seconds with four points ask for states at 0, 1 and 2 seconds after the epoch 100, although the machine moves
along.  With three answers the sample has them; with two there is none, and what failed is the third request.  The
machine is at the epoch 100 again. -/
theorem sampling_all_or_nothing_diary :
    (∃ states, (take 3 4 (Diary.fresh 3)).1 = .ok ⟨states, 3, 1⟩ ∧
        states.map OrbitState.epoch = [100, 100 + 1 / 86400, 100 + 2 / 86400] ∧
        (take 3 4 (Diary.fresh 3)).2.asked = [100, 100 + 1 / 86400, 100 + 2 / 86400]) ∧
      initialState (take 3 4 (Diary.fresh 3)).2 = initialState (Diary.fresh 3) ∧
    (∃ failure, (take 3 4 (Diary.fresh 2)).1 = .error failure ∧ failure.kind = .sampling ∧
        failure.cause? = some (.reported .propagation "no answers left") ∧
        (take 3 4 (Diary.fresh 2)).2.asked = [100, 100 + 1 / 86400, 100 + 2 / 86400]) ∧
      initialState (take 3 4 (Diary.fresh 2)).2 = initialState (Diary.fresh 2) := by
  have hstep : (3 : ℝ) / (((4 - 1 : ℤ) : ℝ) / ((1 : ℤ) : ℝ)) = 1 := by norm_num
  have htake (left : ℕ) {found : Except (Fault ℝ) (List (OrbitState ℝ))} {p' : Diary}
      (hrun : collect 100 3 1 0 [] (Diary.fresh left) = some (found, p')) :
      take 3 4 (Diary.fresh left) =
        (found.map fun states => ⟨states, 3, 1⟩, resetInitialState (initialState (Diary.fresh left)) p') := by
    rw [take_eq (by norm_num) (by norm_num) (ratioChecked_real _ _) (by rw [hstep]; exact hrun), hstep]
  refine ⟨?_, (sampling_all_or_nothing 3 4 (Diary.fresh 3)).1, ?_, (sampling_all_or_nothing 3 4 (Diary.fresh 2)).1⟩
  · rw [htake 3 (by rw [collect_of_answer (by norm_num) rfl, collect_of_answer (by norm_num) rfl,
      collect_of_answer (by norm_num) rfl, collect_of_not_lt (by norm_num)])]
    refine ⟨_, rfl, ?_, ?_⟩ <;> norm_num [Diary.fresh, resetInitialState, shiftEpoch, daySeconds]
  · rw [htake 2 (by rw [collect_of_answer (by norm_num) rfl, collect_of_answer (by norm_num) rfl,
      collect_of_failure (by norm_num) rfl])]
    refine ⟨_, rfl, rfl, rfl, ?_⟩
    norm_num [Diary.fresh, resetInitialState, shiftEpoch, daySeconds]

end AllOrNothing

end OrbitFit
