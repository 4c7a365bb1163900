import OrbitFit.EarthOrientation
import OrbitFit.Proofs.ExactScalar

/-!
# OrbitFit.Proofs.EarthOrientation.Construction — a history made of entries in any order

A history is made by sorting the entries by date and looking for two neighbours of one date.  Every place that is
searched for is where a test turns: the entries in front pass it and the others fail.

* `turningPlace_append`: halving finds the place where a test turns.
* `perm_sortEntries`, `byDate_sortEntries`: entries sorted are the entries, in ascending order of date.
* `ofEntries_eq_ok_iff`: the history of some entries holds them in strictly ascending order.
* `ofEntries_orders`: which lists of entries have a history, what it holds, and that their order does not matter.
-/

namespace OrbitFit

/-! ## The place where a test turns -/

section Search

variable {β : Type} {test : β → Bool}

theorem turningPlace_eq {xs : List β} {n : ℕ} (h : ∀ i, xs[i]?.any test = true ↔ i < n) {low high : ℕ}
    (hlow : low ≤ n) (hhigh : n ≤ high) : turningPlace test xs low high = n := by
  fun_induction turningPlace test xs low high with
  | case1 low high hlt middle hpass ih =>
    exact ih ((h middle).mp hpass) hhigh
  | case2 low high hlt middle hfail ih =>
    exact ih hlow (not_lt.mp fun hn => hfail ((h middle).mpr hn))
  | case3 low high hge => omega

theorem any_append_iff {front back : List β} (hfront : ∀ x ∈ front, test x = true)
    (hback : ∀ x ∈ back, test x = false) (i : ℕ) :
    (front ++ back)[i]?.any test = true ↔ i < front.length := by
  by_cases hi : i < front.length
  · simp [List.getElem?_append_left hi, hi, hfront _ (List.getElem_mem hi)]
  · rw [List.getElem?_append_right (not_lt.mp hi)]
    refine iff_of_false (fun hany => ?_) hi
    obtain ⟨x, hx, hpass⟩ := (Option.any_eq_true _ _).mp hany
    rw [hback x (List.mem_of_getElem? hx)] at hpass
    exact Bool.noConfusion hpass

/-- **Halving finds the place where a test turns.** -/
theorem turningPlace_append {front back : List β} (hfront : ∀ x ∈ front, test x = true)
    (hback : ∀ x ∈ back, test x = false) {low high : ℕ} (hlow : low ≤ front.length)
    (hhigh : front.length ≤ high) : turningPlace test (front ++ back) low high = front.length :=
  turningPlace_eq (any_append_iff hfront hback) hlow hhigh

/-- A list that no entry passes behind one that fails falls into those that pass and those that fail. -/
theorem exists_front_back {xs : List β} (h : xs.Pairwise fun a b => test b = true → test a = true) :
    ∃ front back, xs = front ++ back ∧ (∀ x ∈ front, test x = true) ∧ ∀ x ∈ back, test x = false := by
  induction xs with
  | nil => exact ⟨[], [], rfl, by simp, by simp⟩
  | cons x xs ih =>
    obtain ⟨hx, hxs⟩ := List.pairwise_cons.mp h
    by_cases hpass : test x = true
    · obtain ⟨front, back, rfl, hfront, hback⟩ := ih hxs
      exact ⟨x :: front, back, rfl, by simpa [hpass] using hfront, hback⟩
    · have hfail : ∀ y ∈ xs, test y = false := fun y hy => by
        simpa using fun hy' => hpass (hx y hy hy')
      exact ⟨[], x :: xs, rfl, by simp, by simpa [hpass] using hfail⟩

theorem insertIdx_length_append (front back : List β) (x : β) :
    (front ++ back).insertIdx front.length x = front ++ x :: back := by
  induction front with
  | nil => rfl
  | cons y front ih => rw [List.cons_append, List.length_cons, List.insertIdx_succ_cons, ih, List.cons_append]

end Search

namespace OrientationHistory

open OrientationEntry (mjd)

variable {entries entries' : List (OrientationEntry ℝ)} {h : OrientationHistory ℝ}

/-! ## Entries in order -/

section Sorting

/-- No entry is before the one ahead of it. -/
def ByDate (entries : List (OrientationEntry ℝ)) : Prop := entries.Pairwise fun e f => e.mjd ≤ f.mjd

/-- Every entry is after the one ahead of it. -/
def Ascending (entries : List (OrientationEntry ℝ)) : Prop := entries.Pairwise fun e f => e.mjd < f.mjd

theorem Ascending.byDate (ha : Ascending entries) : ByDate entries := List.Pairwise.imp le_of_lt ha

theorem ascendingFront_append (entries : List (OrientationEntry ℝ)) :
    (ascendingFront entries).1 ++ (ascendingFront entries).2 = entries := by
  fun_induction ascendingFront entries with
  | case1 e f rest hlt => rfl
  | case2 e f rest hge front others hsplit ih =>
    rw [hsplit] at ih
    exact congrArg (e :: ·) ih
  | case3 few => exact List.append_nil few

theorem head_ascendingFront (e : OrientationEntry ℝ) (rest : List (OrientationEntry ℝ)) :
    ∃ front, (ascendingFront (e :: rest)).1 = e :: front := by
  cases rest with
  | nil => exact ⟨[], rfl⟩
  | cons f rest =>
    unfold ascendingFront
    split
    · exact ⟨[], rfl⟩
    · exact ⟨_, rfl⟩

theorem byDate_ascendingFront (entries : List (OrientationEntry ℝ)) : ByDate (ascendingFront entries).1 := by
  -- the front is cut where a date falls behind the one before it, so only neighbours have been compared
  have hchain : (ascendingFront entries).1.IsChain fun e f => e.mjd ≤ f.mjd := by
    fun_induction ascendingFront entries with
    | case1 e f rest hlt => exact List.isChain_singleton e
    | case2 e f rest hge front others hsplit ih =>
      obtain ⟨tail, htail⟩ := head_ascendingFront f rest
      rw [hsplit] at ih htail
      dsimp only at ih htail ⊢
      rw [htail] at ih ⊢
      exact List.isChain_cons_cons.mpr ⟨not_lt.mp hge, ih⟩
    | case3 few hfew =>
      match few with
      | [] => exact List.IsChain.nil
      | [e] => exact List.isChain_singleton e
      | e :: f :: rest => exact (hfew e f rest rfl).elim
  exact List.isChain_iff_pairwise.mp hchain

/-- **An entry is inserted** behind those that are not after it. -/
theorem insertEntry_eq {sorted : List (OrientationEntry ℝ)} (hs : ByDate sorted) (e : OrientationEntry ℝ) :
    ∃ front back, sorted = front ++ back ∧ insertEntry sorted e = front ++ e :: back ∧
      (∀ f ∈ front, f.mjd ≤ e.mjd) ∧ ∀ f ∈ back, e.mjd < f.mjd := by
  -- in a list by date, the test for being after an entry fails first and then holds
  have hturn : sorted.Pairwise fun f g =>
      (!decide (e.mjd < g.mjd)) = true → (!decide (e.mjd < f.mjd)) = true := by
    refine List.Pairwise.imp (fun {f g} hfg hg => ?_) hs
    simp only [Bool.not_eq_true', decide_eq_false_iff_not, not_lt] at hg ⊢
    exact hfg.trans hg
  obtain ⟨front, back, rfl, hfront, hback⟩ := exists_front_back hturn
  refine ⟨front, back, rfl, ?_, fun f hf => by simpa using hfront f hf, fun f hf => by simpa using hback f hf⟩
  unfold insertEntry
  rw [turningPlace_append hfront hback (Nat.zero_le _) (by simp), insertIdx_length_append]

theorem perm_insertEntry {sorted : List (OrientationEntry ℝ)} (hs : ByDate sorted) (e : OrientationEntry ℝ) :
    (insertEntry sorted e).Perm (e :: sorted) := by
  obtain ⟨front, back, rfl, hins, -⟩ := insertEntry_eq hs e
  rw [hins]
  exact List.perm_middle

theorem byDate_insertEntry {sorted : List (OrientationEntry ℝ)} (hs : ByDate sorted) (e : OrientationEntry ℝ) :
    ByDate (insertEntry sorted e) := by
  obtain ⟨front, back, rfl, hins, hfront, hback⟩ := insertEntry_eq hs e
  obtain ⟨hf, hb, hfb⟩ := List.pairwise_append.mp hs
  rw [hins]
  refine List.pairwise_append.mpr ⟨hf, List.pairwise_cons.mpr ⟨fun g hg => (hback g hg).le, hb⟩, ?_⟩
  intro f hmem g hg
  rcases List.mem_cons.mp hg with rfl | hg
  · exact hfront f hmem
  · exact hfb f hmem g hg

theorem insertAll (others : List (OrientationEntry ℝ)) : ∀ {sorted : List (OrientationEntry ℝ)}, ByDate sorted →
    ByDate (others.foldl insertEntry sorted) ∧ (others.foldl insertEntry sorted).Perm (sorted ++ others) := by
  induction others with
  | nil =>
    intro sorted hs
    exact ⟨hs, by simp⟩
  | cons e others ih =>
    intro sorted hs
    obtain ⟨hby, hperm⟩ := ih (byDate_insertEntry hs e)
    refine ⟨hby, hperm.trans (((perm_insertEntry hs e).append_right others).trans ?_)⟩
    exact List.perm_middle.symm

/-- **Entries sorted** are in ascending order of date. -/
theorem byDate_sortEntries (entries : List (OrientationEntry ℝ)) : ByDate (sortEntries entries) :=
  (insertAll _ (byDate_ascendingFront entries)).1

/-- **Entries sorted** are the same entries. -/
theorem perm_sortEntries (entries : List (OrientationEntry ℝ)) : (sortEntries entries).Perm entries := by
  have h := (insertAll (ascendingFront entries).2 (byDate_ascendingFront entries)).2
  rwa [ascendingFront_append] at h

/-- The dates in ascending order do not depend on the order in which the entries are given. -/
theorem dates_sortEntries (hp : entries.Perm entries') :
    (sortEntries entries).map mjd = (sortEntries entries').map mjd := by
  have hsorted : ∀ l : List (OrientationEntry ℝ), ((sortEntries l).map mjd).Pairwise (· ≤ ·) := fun l =>
    List.pairwise_map.mpr (byDate_sortEntries l)
  refine List.Perm.eq_of_pairwise' (hsorted _) (hsorted _) (List.Perm.map _ ?_)
  exact (perm_sortEntries entries).trans (hp.trans (perm_sortEntries entries').symm)

/-- Entries in ascending order are so strictly if and only if no two have one date. -/
theorem ByDate.ascending_iff (hb : ByDate entries) : Ascending entries ↔ (entries.map mjd).Nodup := by
  rw [List.nodup_iff_pairwise_ne, List.pairwise_map]
  constructor
  · exact List.Pairwise.imp ne_of_lt
  · intro hne
    exact (List.Pairwise.and hb hne).imp fun h => lt_of_le_of_ne h.1 h.2

theorem Ascending.eq_of_mjd_eq (ha : Ascending entries) {e f : OrientationEntry ℝ} (he : e ∈ entries)
    (hf : f ∈ entries) (hef : e.mjd = f.mjd) : e = f :=
  List.inj_on_of_nodup_map (ha.byDate.ascending_iff.mp ha) he hf hef

/-- Entries have one strictly ascending order. -/
theorem Ascending.eq_of_perm (ha : Ascending entries) (hb : ByDate entries') (hp : entries.Perm entries') :
    entries = entries' := by
  refine List.Perm.eq_of_pairwise (fun e f he hf hef hfe => ?_) ha.byDate hb hp
  exact ha.eq_of_mjd_eq he (hp.symm.subset hf) (le_antisymm hef hfe)

end Sorting

/-! ## Dates that occur twice -/

section Repetition

theorem repeatedDate?_cons (e f : OrientationEntry ℝ) (rest : List (OrientationEntry ℝ)) :
    repeatedDate? (e :: f :: rest) = if e.mjd = f.mjd then some f.mjd else repeatedDate? (f :: rest) := by
  have hdiff : (f.mjd - e.mjd == 0) = decide (e.mjd = f.mjd) := by
    rw [Scalar.beq_real, decide_eq_decide, sub_eq_zero, eq_comm]
  simp only [repeatedDate?, hdiff, decide_eq_true_eq]

/-- Whether a date is repeated is seen from the dates alone. -/
theorem repeatedDate?_congr : ∀ {entries entries' : List (OrientationEntry ℝ)},
    entries.map mjd = entries'.map mjd → repeatedDate? entries = repeatedDate? entries'
  | [], [], _ => rfl
  | [_], [_], _ => rfl
  | [_], _ :: _ :: _, hd => by simp at hd
  | _ :: _ :: _, [_], hd => by simp at hd
  | e :: f :: rest, e' :: f' :: rest', hd => by
    have htail : (f :: rest).map mjd = (f' :: rest').map mjd := (List.cons_eq_cons.mp hd).2
    have he : e.mjd = e'.mjd := (List.cons_eq_cons.mp hd).1
    have hf : f.mjd = f'.mjd := (List.cons_eq_cons.mp htail).1
    rw [repeatedDate?_cons, repeatedDate?_cons, he, hf, repeatedDate?_congr htail]

theorem repeatedDate?_eq_none_iff : ∀ {entries : List (OrientationEntry ℝ)}, ByDate entries →
    (repeatedDate? entries = none ↔ Ascending entries)
  | [], _ => iff_of_true rfl List.Pairwise.nil
  | [e], _ => iff_of_true rfl (List.pairwise_singleton _ e)
  | e :: f :: rest, hb => by
    obtain ⟨hle, hrest⟩ := List.pairwise_cons.mp hb
    rw [repeatedDate?_cons]
    by_cases hef : e.mjd = f.mjd
    · rw [if_pos hef]
      refine iff_of_false nofun fun ha => ?_
      exact (List.rel_of_pairwise_cons ha (by simp)).ne hef
    · rw [if_neg hef, repeatedDate?_eq_none_iff hrest]
      refine ⟨fun ha => List.pairwise_cons.mpr ⟨fun g hg => ?_, ha⟩, fun ha => (List.pairwise_cons.mp ha).2⟩
      have hlt : e.mjd < f.mjd := lt_of_le_of_ne (hle f (by simp)) hef
      rcases List.mem_cons.mp hg with rfl | hg
      · exact hlt
      · exact hlt.trans (List.rel_of_pairwise_cons ha hg)

/-- The date that is found to be repeated is. -/
theorem duplicate_of_repeatedDate? {d : ℝ} : ∀ {entries : List (OrientationEntry ℝ)},
    repeatedDate? entries = some d → (entries.map mjd).Duplicate d
  | [], h => nomatch h
  | [_], h => nomatch h
  | e :: f :: rest, h => by
    rw [repeatedDate?_cons] at h
    split_ifs at h with hef
    · obtain rfl : f.mjd = d := Option.some.inj h
      rw [List.map_cons, hef]
      exact List.Duplicate.cons_mem (by simp)
    · exact (duplicate_of_repeatedDate? h).duplicate_cons _

end Repetition

/-! ## The history of entries -/

section History

/-- What becomes of some entries: their order is all that counts. -/
theorem ofEntries_cases (entries : List (OrientationEntry ℝ)) :
    (sortEntries entries = [] ∧ ofEntries entries = .error .emptyHistory) ∨
    (∃ d, repeatedDate? (sortEntries entries) = some d ∧ ofEntries entries = .error (.duplicateDate d)) ∨
    ∃ h : OrientationHistory ℝ, h.entries = sortEntries entries ∧ repeatedDate? (sortEntries entries) = none ∧
      ofEntries entries = .ok h := by
  cases hs : sortEntries entries with
  | nil => exact Or.inl ⟨rfl, by simp only [ofEntries, hs]⟩
  | cons first rest =>
    cases hd : repeatedDate? (first :: rest) with
    | some d => exact Or.inr (Or.inl ⟨d, rfl, by simp only [ofEntries, hs, hd]⟩)
    | none => exact Or.inr (Or.inr ⟨⟨first, rest⟩, rfl, rfl, by simp only [ofEntries, hs, hd]⟩)

theorem ext_entries {h' : OrientationHistory ℝ} (he : h.entries = h'.entries) : h = h' := by
  obtain ⟨first, rest⟩ := h
  obtain ⟨first', rest'⟩ := h'
  obtain ⟨rfl, rfl⟩ := List.cons_eq_cons.mp he
  rfl

/-- **The history of some entries** holds them in strictly ascending order. -/
theorem ofEntries_eq_ok_iff : ofEntries entries = .ok h ↔ h.entries.Perm entries ∧ Ascending h.entries := by
  have hperm := perm_sortEntries entries
  have hby := byDate_sortEntries entries
  -- there is one ascending order of the entries, which sorting finds
  have hsorted : h.entries.Perm entries ∧ Ascending h.entries →
      h.entries = sortEntries entries ∧ repeatedDate? (sortEntries entries) = none := fun hh => by
    have heq := hh.2.eq_of_perm hby (hh.1.trans hperm.symm)
    exact ⟨heq, (repeatedDate?_eq_none_iff hby).mpr (heq ▸ hh.2)⟩
  rcases ofEntries_cases entries with ⟨hnil, hk⟩ | ⟨d, hd, hk⟩ | ⟨h', he, hnone, hk⟩
  · rw [hk]
    exact iff_of_false nofun fun hh => List.cons_ne_nil _ _ ((hsorted hh).1.trans hnil)
  · rw [hk]
    refine iff_of_false nofun fun hh => ?_
    rw [(hsorted hh).2] at hd
    exact nomatch hd
  · rw [hk, Except.ok.injEq]
    constructor
    · rintro rfl
      rw [he]
      exact ⟨hperm, (repeatedDate?_eq_none_iff hby).mp hnone⟩
    · intro hh
      exact ext_entries (he.trans (hsorted hh).1.symm)

/-- Some entries have no history if there are none of them, or if two are of one date. -/
theorem ofEntries_eq_error_iff {fault : Fault ℝ} : ofEntries entries = .error fault ↔
    (entries = [] ∧ fault = .emptyHistory) ∨
      ∃ d, repeatedDate? (sortEntries entries) = some d ∧ fault = .duplicateDate d := by
  have hperm := perm_sortEntries entries
  rcases ofEntries_cases entries with ⟨hnil, hk⟩ | ⟨d, hd, hk⟩ | ⟨h, he, hnone, hk⟩
  · rw [hnil] at hperm
    rw [hk, hnil]
    simp [hperm.symm.eq_nil, repeatedDate?, eq_comm]
  · have hne : entries ≠ [] := by
      rintro rfl
      simp [hperm.eq_nil, repeatedDate?] at hd
    simp [hk, hd, hne, eq_comm]
  · have hne : entries ≠ [] := by
      rintro rfl
      exact List.cons_ne_nil _ _ (he.trans hperm.eq_nil)
    simp [hk, hnone, hne]

/-- **The order in which entries are given does not matter**: they have the same history, or fail alike. -/
theorem ofEntries_perm (hp : entries.Perm entries') : ofEntries entries' = ofEntries entries := by
  cases hk : ofEntries entries with
  | ok h =>
    obtain ⟨hh, ha⟩ := ofEntries_eq_ok_iff.mp hk
    exact ofEntries_eq_ok_iff.mpr ⟨hh.trans hp, ha⟩
  | error fault =>
    rw [ofEntries_eq_error_iff] at hk ⊢
    rw [← repeatedDate?_congr (dates_sortEntries hp)]
    exact hk.imp_left fun hnil => ⟨(hnil.1 ▸ hp).symm.eq_nil, hnil.2⟩

/-- The entry of a date is looked for at the place behind all entries before that date. -/
theorem entryAt_eq (ha : Ascending h.entries) (m : ℝ) : ∃ front back, h.entries = front ++ back ∧
    (∀ e ∈ front, e.mjd < m) ∧ (∀ e ∈ back, m ≤ e.mjd) ∧
    h.entryAt m = match back with
      | [] => .error (.noEntry m)
      | e :: _ => if e.mjd = m then .ok e else .error (.noEntry m) := by
  have hturn : h.entries.Pairwise fun e f => decide (f.mjd < m) = true → decide (e.mjd < m) = true := by
    refine List.Pairwise.imp (fun {e f} hef hf => ?_) ha
    simp only [decide_eq_true_eq] at hf ⊢
    exact hef.trans hf
  obtain ⟨front, back, hs, hfront, hback⟩ := exists_front_back hturn
  refine ⟨front, back, hs, fun e he => by simpa using hfront e he, fun e he => by simpa using hback e he, ?_⟩
  unfold entryAt
  rw [hs, turningPlace_append hfront hback (Nat.zero_le _) (by simp)]
  cases back with
  | nil => simp
  | cons e back => simp

/-- **The entry of a date** is found if there is one. -/
theorem entryAt_eq_ok_iff (ha : Ascending h.entries) {m : ℝ} {e : OrientationEntry ℝ} :
    h.entryAt m = .ok e ↔ e ∈ h.entries ∧ e.mjd = m := by
  obtain ⟨front, back, hs, hfront, hback, heq⟩ := entryAt_eq ha m
  rw [heq]
  constructor
  · intro hok
    cases back with
    | nil => exact nomatch hok
    | cons f back =>
      dsimp only at hok
      split_ifs at hok with hf
      obtain rfl : f = e := Except.ok.inj hok
      exact ⟨by simp [hs], hf⟩
  · rintro ⟨he, rfl⟩
    rw [hs, List.mem_append] at he
    have heback := he.resolve_left fun hf => (hfront e hf).false
    cases back with
    | nil => exact absurd heback List.not_mem_nil
    | cons f back =>
      have hfe : f = e := by
        rcases List.mem_cons.mp heback with rfl | hmem
        · rfl
        · rw [hs] at ha
          have hlt := List.rel_of_pairwise_cons (List.pairwise_append.mp ha).2.1 hmem
          exact absurd (hback f (by simp)) (not_le.mpr hlt)
      simp [hfe]

theorem entryAt_eq_error_iff (ha : Ascending h.entries) {m : ℝ} {fault : Fault ℝ} :
    h.entryAt m = .error fault ↔ (∀ e ∈ h.entries, e.mjd ≠ m) ∧ fault = .noEntry m := by
  have hanswer : (∃ e, h.entryAt m = .ok e) ∨ h.entryAt m = .error (.noEntry m) := by
    obtain ⟨front, back, -, -, -, heq⟩ := entryAt_eq ha m
    rw [heq]
    split
    · exact Or.inr rfl
    · split_ifs
      · exact Or.inl ⟨_, rfl⟩
      · exact Or.inr rfl
  rcases hanswer with ⟨e, hok⟩ | herr
  · have he := (entryAt_eq_ok_iff ha).mp hok
    rw [hok]
    exact iff_of_false nofun fun hnone => hnone.1 e he.1 he.2
  · rw [herr, Except.error.injEq, eq_comm]
    refine (and_iff_right fun e he hm => ?_).symm
    have hok := (entryAt_eq_ok_iff ha).mpr ⟨he, hm⟩
    rw [herr] at hok
    exact nomatch hok

theorem exists_entries_concat (h : OrientationHistory ℝ) : ∃ front, h.entries = front ++ [h.last] := by
  obtain ⟨first, rest⟩ := h
  rcases List.eq_nil_or_concat rest with rfl | ⟨front, e, rfl⟩
  · exact ⟨[], rfl⟩
  · exact ⟨first :: front, by simp [entries, last]⟩

theorem first_mem (h : OrientationHistory ℝ) : h.first ∈ h.entries := List.mem_cons_self

theorem last_mem (h : OrientationHistory ℝ) : h.last ∈ h.entries := by
  obtain ⟨front, hs⟩ := h.exists_entries_concat
  simp [hs]

/-- **The covered span** reaches from the first date to the last. -/
theorem Ascending.mem_span (ha : Ascending h.entries) {e : OrientationEntry ℝ} (he : e ∈ h.entries) :
    h.first.mjd ≤ e.mjd ∧ e.mjd ≤ h.last.mjd := by
  constructor
  · rcases List.mem_cons.mp he with rfl | hrest
    · exact le_rfl
    · exact (List.rel_of_pairwise_cons ha hrest).le
  · obtain ⟨front, hs⟩ := h.exists_entries_concat
    rw [hs] at ha he
    rcases List.mem_append.mp he with hfront | hlast
    · exact ((List.pairwise_append.mp ha).2.2 e hfront _ (by simp)).le
    · rw [List.mem_singleton.mp hlast]

/-- What the history of some entries holds and answers. -/
structure Orders (h : OrientationHistory ℝ) (entries : List (OrientationEntry ℝ)) : Prop where
  perm : h.entries.Perm entries
  ascending : Ascending h.entries
  first_least : IsLeast {m | ∃ e ∈ entries, e.mjd = m} h.first.mjd
  last_greatest : IsGreatest {m | ∃ e ∈ entries, e.mjd = m} h.last.mjd
  entryAt_ok : ∀ m e, h.entryAt m = .ok e ↔ e ∈ entries ∧ e.mjd = m
  entryAt_error : ∀ m fault, h.entryAt m = .error fault ↔ (∀ e ∈ entries, e.mjd ≠ m) ∧ fault = .noEntry m

theorem orders_of_perm (hp : h.entries.Perm entries) (ha : Ascending h.entries) : h.Orders entries where
  perm := hp
  ascending := ha
  first_least := by
    refine ⟨⟨h.first, hp.subset h.first_mem, rfl⟩, ?_⟩
    rintro _ ⟨e, he, rfl⟩
    exact (ha.mem_span (hp.symm.subset he)).1
  last_greatest := by
    refine ⟨⟨h.last, hp.subset h.last_mem, rfl⟩, ?_⟩
    rintro _ ⟨e, he, rfl⟩
    exact (ha.mem_span (hp.symm.subset he)).2
  entryAt_ok m e := by rw [entryAt_eq_ok_iff ha, hp.mem_iff]
  entryAt_error m fault := by
    rw [entryAt_eq_error_iff ha]
    simp only [hp.mem_iff]

/-- **Entries in any order have a history if and only if there are some and no two are of one date.**  It holds them
in ascending order, and another order of the entries gives the same history, or the same fault. -/
theorem ofEntries_orders (entries : List (OrientationEntry ℝ)) :
    ((∃ h, ofEntries entries = .ok h) ↔ entries ≠ [] ∧ (entries.map mjd).Nodup) ∧
    (∀ fault, ofEntries entries = .error fault → fault.kind = .value ∧
      (entries = [] ∧ fault = .emptyHistory ∨ ∃ d, (entries.map mjd).Duplicate d ∧ fault = .duplicateDate d)) ∧
    (∀ h, ofEntries entries = .ok h → h.Orders entries) ∧
    ∀ entries', entries.Perm entries' → ofEntries entries' = ofEntries entries := by
  have hdates := (perm_sortEntries entries).map mjd
  refine ⟨⟨?_, fun ⟨hne, hnodup⟩ => ?_⟩, fun fault hk => ?_, fun h hk => ?_, fun entries' hp => ofEntries_perm hp⟩
  · rintro ⟨h, hk⟩
    obtain ⟨hp, ha⟩ := ofEntries_eq_ok_iff.mp hk
    refine ⟨?_, (hp.map mjd).nodup_iff.mp (ha.byDate.ascending_iff.mp ha)⟩
    rintro rfl
    exact List.cons_ne_nil _ _ hp.eq_nil
  · -- distinct dates are distinct in any order, so neither fault can come up
    have ha := (byDate_sortEntries entries).ascending_iff.mpr (hdates.nodup_iff.mpr hnodup)
    cases hk : ofEntries entries with
    | ok h => exact ⟨h, rfl⟩
    | error fault =>
      rcases ofEntries_eq_error_iff.mp hk with ⟨hnil, -⟩ | ⟨d, hd, -⟩
      · exact absurd hnil hne
      · rw [(repeatedDate?_eq_none_iff (byDate_sortEntries entries)).mpr ha] at hd
        exact nomatch hd
  · rcases ofEntries_eq_error_iff.mp hk with ⟨hnil, rfl⟩ | ⟨d, hd, rfl⟩
    · exact ⟨rfl, Or.inl ⟨hnil, rfl⟩⟩
    · refine ⟨rfl, Or.inr ⟨d, ?_, rfl⟩⟩
      have hdup := duplicate_of_repeatedDate? hd
      rw [List.duplicate_iff_two_le_count] at hdup ⊢
      rwa [← hdates.count_eq]
  · obtain ⟨hp, ha⟩ := ofEntries_eq_ok_iff.mp hk
    exact orders_of_perm hp ha

/-- An entry of a day. -/
noncomputable def midnight (day : ℝ) : OrientationEntry ℝ := ⟨day, day / 10, 0, 0, 0, 0, 0⟩

/-- Three days out of order have a history; with one of them twice they do not. -/
theorem ofEntries_orders_threeDays :
    (∃ h, ofEntries [midnight 2, midnight 0, midnight 1] = .ok h ∧
      h.entries = [midnight 0, midnight 1, midnight 2] ∧ h.entryAt 1 = .ok (midnight 1) ∧
      h.entryAt 3 = .error (.noEntry 3) ∧ ofEntries [midnight 1, midnight 0, midnight 2] = .ok h) ∧
    ofEntries [midnight 2, midnight 0, midnight 2] = .error (.duplicateDate 2) := by
  constructor
  · obtain ⟨hok, -, horders, hperm⟩ := ofEntries_orders [midnight 2, midnight 0, midnight 1]
    obtain ⟨h, hh⟩ := hok.mpr ⟨by simp, by norm_num [midnight]⟩
    have ho := horders h hh
    have hsorted : [midnight 0, midnight 1, midnight 2] = h.entries := by
      refine Ascending.eq_of_perm ?_ ho.ascending.byDate (List.Perm.trans ?_ ho.perm.symm)
      · norm_num [Ascending, midnight]
      · exact (List.Perm.swap _ _ _).symm.trans ((List.Perm.swap _ _ _).cons _) |>.symm
    refine ⟨h, hh, hsorted.symm, (ho.entryAt_ok _ _).mpr ⟨by simp, rfl⟩, (ho.entryAt_error _ _).mpr ⟨?_, rfl⟩, ?_⟩
    · norm_num [midnight]
    · exact (hperm _ (List.reverse_perm [midnight 1, midnight 0, midnight 2])).trans hh
  · obtain ⟨hok, hfault, -⟩ := ofEntries_orders [midnight 2, midnight 0, midnight 2]
    cases hk : ofEntries [midnight 2, midnight 0, midnight 2] with
    | ok h =>
      have hnodup := (hok.mp ⟨h, hk⟩).2
      norm_num [midnight] at hnodup
    | error fault =>
      rcases (hfault fault hk).2 with ⟨hnil, -⟩ | ⟨d, hd, rfl⟩
      · exact absurd hnil (by simp)
      · have htwice : 2 = d ∧ (d = 0 ∨ d = 2) ∨ 0 = d ∧ d = 2 := by
          simpa [midnight, List.duplicate_cons_iff] using hd
        rcases htwice with ⟨rfl, -⟩ | ⟨-, rfl⟩ <;> rfl

end History

end OrientationHistory

end OrbitFit
