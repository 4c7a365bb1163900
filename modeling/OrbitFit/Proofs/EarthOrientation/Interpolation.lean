import OrbitFit.Proofs.EarthOrientation.Construction

/-!
# OrbitFit.Proofs.EarthOrientation.Interpolation — quantities between the entries of a history

At a covered date the search finds the last entry not after it, and the one behind that if there is one.  So a field
is that of the entry at the date of an entry, and lies on a straight line between two neighbours.

* `bracket_eq`: the place found, whichever way a history of its length is searched.
* `interpolate_node`, `interpolate_between`: a field at an entry, and between two neighbours.
* `quantities_interpolated`: the four quantities, as functions of the date.
-/

open Set

namespace OrbitFit

namespace OrientationHistory

variable {h : OrientationHistory ℝ} {m : ℝ} {e f : OrientationEntry ℝ}

/-! ## The span -/

section Span

theorem covers_iff (h : OrientationHistory ℝ) (m : ℝ) : h.covers m = true ↔ m ∈ Icc h.first.mjd h.last.mjd := by
  simp only [covers, Bool.and_eq_true, decide_eq_true_eq, mem_Icc]

/-- A covered date has a value of every field. -/
theorem exists_interpolate (hc : h.covers m = true) (field : OrientationEntry ℝ → ℝ) :
    ∃ x, h.interpolate field m = .ok x := by
  unfold interpolate
  rw [if_pos hc]
  split <;> exact ⟨_, rfl⟩

theorem interpolate_outside (hc : h.covers m = false) (field : OrientationEntry ℝ → ℝ) :
    h.interpolate field m = .error (.outsideHistory m h.first.mjd h.last.mjd) := by
  unfold interpolate
  rw [hc]
  rfl

end Span

/-! ## The entries around a date -/

section Bracket

/-- The entries up to the last one not after a date, and those behind it. -/
structure SplitsAt (h : OrientationHistory ℝ) (m : ℝ) (front : List (OrientationEntry ℝ)) (e : OrientationEntry ℝ)
    (back : List (OrientationEntry ℝ)) : Prop where
  entries_eq : h.entries = front ++ e :: back
  reached : ∀ f ∈ front ++ [e], f.mjd ≤ m
  after : ∀ f ∈ back, m < f.mjd

namespace SplitsAt

variable {front back : List (OrientationEntry ℝ)} (hs : h.SplitsAt m front e back)
include hs

theorem reached_iff (i : ℕ) : h.entries[i]?.any (fun f => decide (f.mjd ≤ m)) = true ↔ i < front.length + 1 := by
  have hsplit : h.entries = (front ++ [e]) ++ back := by simp [hs.entries_eq]
  rw [hsplit, any_append_iff (fun f hf => decide_eq_true (hs.reached f hf))
    (fun f hf => decide_eq_false (not_le.mpr (hs.after f hf))), List.length_append, List.length_singleton]

theorem after_iff (i : ℕ) : h.entries[i]?.any (fun f => decide (m < f.mjd)) = true ↔
    front.length + 1 ≤ i ∧ i < h.entries.length := by
  have hreached := hs.reached_iff i
  cases hi : h.entries[i]? with
  | none =>
    have hlen := List.getElem?_eq_none_iff.mp hi
    simp only [Option.any_none, Bool.false_eq_true, false_iff]
    omega
  | some f =>
    have hlen := (List.getElem?_eq_some_iff.mp hi).1
    rw [hi, Option.any_some, decide_eq_true_eq] at hreached
    rw [Option.any_some, decide_eq_true_eq, ← not_le, hreached, not_lt]
    exact (and_iff_left hlen).symm

theorem takeWhile_eq : h.entries.takeWhile (fun f => decide (f.mjd ≤ m)) = front ++ [e] := by
  have hsplit : h.entries = (front ++ [e]) ++ back := by simp [hs.entries_eq]
  have hback : back.takeWhile (fun f => decide (f.mjd ≤ m)) = [] := by
    cases hb : back with
    | nil => rfl
    | cons f rest =>
      have hf := hs.after f (by simp [hb])
      rw [List.takeWhile_cons_of_neg (by simpa using hf)]
  rw [hsplit, List.takeWhile_append_of_pos fun f hf => decide_eq_true (hs.reached f hf), hback, List.append_nil]

/-- The place behind the last entry not after a date, found in any of the ways that serve histories of different
lengths. -/
theorem placeBehind_eq : placeBehind h.entries m = front.length + 1 := by
  have hlen : h.entries.length = front.length + back.length + 1 := by
    rw [hs.entries_eq, List.length_append, List.length_cons]
    omega
  unfold placeBehind
  dsimp only
  -- a short history is gone through from the front
  by_cases hfew : h.entries.length ≤ 4
  · rw [if_pos hfew]
    have htake := congrArg List.length hs.takeWhile_eq
    rw [entries, List.takeWhile_cons] at htake
    rw [entries, List.tail_cons]
    split_ifs at htake with hfirst
    · simp only [List.length_cons, List.length_append, List.length_nil] at htake
      omega
    · simp at htake
  rw [if_neg hfew]
  have hafter : ∀ i, h.entries[i]?.any (fun f => decide (m < f.mjd)) =
      decide (front.length + 1 ≤ i ∧ i < h.entries.length) := fun i => by
    rw [Bool.eq_iff_iff, hs.after_iff, decide_eq_true_eq]
  simp only [hafter]
  -- of a longer one the first places are tried, and the others are halved
  by_cases hnear : front.length < 3
  · have hfind : [1, 2, 3].find? (fun i => decide (front.length + 1 ≤ i ∧ i < h.entries.length)) =
        some (front.length + 1) := by
      interval_cases front.length <;> simp <;> omega
    rw [hfind]
  · have hfind : [1, 2, 3].find? (fun i => decide (front.length + 1 ≤ i ∧ i < h.entries.length)) = none := by
      refine List.find?_eq_none.mpr fun i hi => ?_
      have hi3 : i ≤ 3 := by
        simp only [List.mem_cons, List.not_mem_nil, or_false] at hi
        omega
      simp only [decide_eq_true_eq]
      omega
    rw [hfind]
    refine turningPlace_eq hs.reached_iff (by omega) ?_
    split_ifs with hmany
    · simp only [Bool.and_eq_true, decide_eq_true_eq] at hmany
      omega
    · omega

/-- **The entries that a covered date lies between.** -/
theorem bracket_eq : h.bracket m = (e, back.head?) := by
  unfold bracket
  rw [hs.placeBehind_eq, hs.entries_eq]
  cases back <;> simp

end SplitsAt

theorem exists_splitsAt (ha : Ascending h.entries) (hm : h.first.mjd ≤ m) : ∃ front e back, h.SplitsAt m front e back := by
  have hturn : h.entries.Pairwise fun e f => decide (f.mjd ≤ m) = true → decide (e.mjd ≤ m) = true := by
    refine List.Pairwise.imp (fun {e f} hef hf => ?_) ha
    simp only [decide_eq_true_eq] at hf ⊢
    exact hef.le.trans hf
  obtain ⟨front, back, hs, hfront, hback⟩ := exists_front_back hturn
  rcases List.eq_nil_or_concat front with rfl | ⟨front, e, rfl⟩
  · have hfirst : h.first ∈ back := by
      have hmem := h.first_mem
      rwa [hs] at hmem
    exact absurd hm (of_decide_eq_false (hback h.first hfirst))
  · rw [List.concat_eq_append] at hs hfront
    exact ⟨front, e, back, by rw [hs, List.append_assoc]; rfl, fun f hf => of_decide_eq_true (hfront f hf),
      fun f hf => not_le.mp (of_decide_eq_false (hback f hf))⟩

end Bracket

/-! ## A field at a date -/

section Field

/-- One entry directly behind another. -/
def Neighbours (h : OrientationHistory ℝ) (e f : OrientationEntry ℝ) : Prop := [e, f] <:+: h.entries

/-- The value at a date of the straight line through a field of two entries. -/
noncomputable def lineThrough (field : OrientationEntry ℝ → ℝ) (e f : OrientationEntry ℝ) (m : ℝ) : ℝ :=
  field e + (field f - field e) * (m - e.mjd) / (f.mjd - e.mjd)

theorem onLine_eq (field : OrientationEntry ℝ → ℝ) (e f : OrientationEntry ℝ) (m : ℝ) :
    onLine m e.mjd (field e) f.mjd (field f) = lineThrough field e f m := by
  unfold onLine lineThrough
  simp only [Scalar.beq_real, decide_true, if_true]
  ring

theorem Neighbours.lt (ha : Ascending h.entries) (hn : h.Neighbours e f) : e.mjd < f.mjd := by
  obtain ⟨front, back, hs⟩ := hn
  unfold Ascending at ha
  rw [← hs] at ha
  exact List.rel_of_pairwise_cons (List.pairwise_append.mp (List.pairwise_append.mp ha).1).2.1 (by simp)

theorem Ascending.splitsAt {front back : List (OrientationEntry ℝ)} (ha : Ascending h.entries)
    (hs : h.entries = front ++ e :: back) (he : e.mjd ≤ m) (hafter : ∀ f ∈ back, m < f.mjd) :
    h.SplitsAt m front e back := by
  refine ⟨hs, fun g hg => ?_, hafter⟩
  rw [hs] at ha
  rcases List.mem_append.mp hg with hg | hg
  · exact ((List.pairwise_append.mp ha).2.2 g hg e (by simp)).le.trans he
  · rw [List.mem_singleton.mp hg]
    exact he

theorem Neighbours.splitsAt (ha : Ascending h.entries) (hn : h.Neighbours e f) (he : e.mjd ≤ m) (hf : m < f.mjd) :
    ∃ front back, h.SplitsAt m front e (f :: back) := by
  obtain ⟨front, back, hs⟩ := hn
  have hentries : h.entries = front ++ e :: f :: back := by rw [← hs]; simp
  refine ⟨front, back, ha.splitsAt hentries he fun g hg => ?_⟩
  rcases List.mem_cons.mp hg with rfl | hg
  · exact hf
  · rw [hentries] at ha
    exact hf.trans (List.rel_of_pairwise_cons (List.pairwise_append.mp ha).2.1.of_cons hg)

theorem splitsAt_node (ha : Ascending h.entries) (he : e ∈ h.entries) : ∃ front back, h.SplitsAt e.mjd front e back := by
  obtain ⟨front, back, hs⟩ := List.append_of_mem he
  refine ⟨front, back, ha.splitsAt hs le_rfl fun g hg => ?_⟩
  rw [hs] at ha
  exact List.rel_of_pairwise_cons (List.pairwise_append.mp ha).2.1 hg

theorem covers_of_mem (ha : Ascending h.entries) (he : e ∈ h.entries) : h.covers e.mjd = true :=
  (h.covers_iff _).mpr (ha.mem_span he)

/-- **At the date of an entry** a field is that of the entry. -/
theorem interpolate_node (ha : Ascending h.entries) (he : e ∈ h.entries) (field : OrientationEntry ℝ → ℝ) :
    h.interpolate field e.mjd = .ok (field e) := by
  obtain ⟨front, back, hs⟩ := splitsAt_node ha he
  unfold interpolate
  rw [if_pos (covers_of_mem ha he), hs.bracket_eq]
  cases back with
  | nil => rfl
  | cons f back => simp

/-- **Between two neighbours** a field lies on a straight line. -/
theorem interpolate_between (ha : Ascending h.entries) (hn : h.Neighbours e f) (hm : m ∈ Ioo e.mjd f.mjd)
    (field : OrientationEntry ℝ → ℝ) : h.interpolate field m = .ok (lineThrough field e f m) := by
  obtain ⟨front, back, hs⟩ := hn.splitsAt ha hm.1.le hm.2
  have hc : h.covers m = true := by
    have hfirst := (ha.mem_span (hn.subset (by simp : e ∈ [e, f]))).1
    have hlast := (ha.mem_span (hn.subset (by simp : f ∈ [e, f]))).2
    exact (h.covers_iff m).mpr ⟨hfirst.trans hm.1.le, hm.2.le.trans hlast⟩
  unfold interpolate
  rw [if_pos hc, hs.bracket_eq]
  simp [hm.1.ne, onLine_eq]

/-- A covered date is that of an entry, or lies between two neighbours. -/
theorem node_or_between (ha : Ascending h.entries) (hm : m ∈ Icc h.first.mjd h.last.mjd) :
    (∃ e ∈ h.entries, e.mjd = m) ∨ ∃ e f, h.Neighbours e f ∧ m ∈ Ioo e.mjd f.mjd := by
  obtain ⟨front, e, back, hs⟩ := exists_splitsAt ha hm.1
  rcases (hs.reached e (by simp)).eq_or_lt with he | he
  · exact Or.inl ⟨e, by simp [hs.entries_eq], he⟩
  cases back with
  | nil =>
    obtain ⟨others, hs'⟩ := h.exists_entries_concat
    rw [hs.entries_eq] at hs'
    have hlast : e = h.last := List.singleton_inj.mp (List.append_inj' hs' rfl).2
    exact absurd hm.2 (not_le.mpr (hlast ▸ he))
  | cons f back =>
    exact Or.inr ⟨e, f, ⟨front, back, by rw [hs.entries_eq]; simp⟩, he, hs.after f (by simp)⟩

/-- The neighbours that a date lies between are the only ones. -/
theorem Neighbours.unique {e' f' : OrientationEntry ℝ} (ha : Ascending h.entries) (hn : h.Neighbours e f)
    (hn' : h.Neighbours e' f') (hm : m ∈ Ioo e.mjd f.mjd) (hm' : m ∈ Ioo e'.mjd f'.mjd) : e = e' ∧ f = f' := by
  obtain ⟨front, back, hs⟩ := hn.splitsAt ha hm.1.le hm.2
  obtain ⟨front', back', hs'⟩ := hn'.splitsAt ha hm'.1.le hm'.2
  have hbracket := hs.bracket_eq.symm.trans hs'.bracket_eq
  simpa using hbracket

end Field

/-! ## A field as a function of the date -/

section Quantity

/-- A field as a function of the date, zero where it has no value. -/
noncomputable def quantity (h : OrientationHistory ℝ) (field : OrientationEntry ℝ → ℝ) (m : ℝ) : ℝ :=
  match h.interpolate field m with
  | .ok x => x
  | .error _ => 0

/-- A function goes through the entries of a history, along a straight line between two neighbours. -/
structure Interpolates (h : OrientationHistory ℝ) (field : OrientationEntry ℝ → ℝ) (q : ℝ → ℝ) : Prop where
  node : ∀ e ∈ h.entries, q e.mjd = field e
  between : ∀ e f, h.Neighbours e f → ∀ m ∈ Ioo e.mjd f.mjd, q m = lineThrough field e f m
  bounded : ∀ e f, h.Neighbours e f → ∀ m ∈ Icc e.mjd f.mjd, q m ∈ uIcc (field e) (field f)
  continuous : ∀ e f, h.Neighbours e f → ContinuousOn q (Icc e.mjd f.mjd)
  rising : ∀ e f, h.Neighbours e f → field e ≤ field f → MonotoneOn q (Icc e.mjd f.mjd)
  falling : ∀ e f, h.Neighbours e f → field f ≤ field e → AntitoneOn q (Icc e.mjd f.mjd)

variable {field : OrientationEntry ℝ → ℝ} {x : ℝ}

theorem quantity_of_ok (hx : h.interpolate field m = .ok x) : h.quantity field m = x := by
  unfold quantity
  rw [hx]

theorem interpolate_eq_quantity (hc : h.covers m = true) (field : OrientationEntry ℝ → ℝ) :
    h.interpolate field m = .ok (h.quantity field m) := by
  obtain ⟨x, hx⟩ := exists_interpolate hc field
  rw [quantity_of_ok hx, hx]

theorem lineThrough_left (field : OrientationEntry ℝ → ℝ) (e f : OrientationEntry ℝ) :
    lineThrough field e f e.mjd = field e := by
  simp [lineThrough]

theorem lineThrough_right (hef : e.mjd < f.mjd) (field : OrientationEntry ℝ → ℝ) :
    lineThrough field e f f.mjd = field f := by
  have hgap : f.mjd - e.mjd ≠ 0 := sub_ne_zero.mpr hef.ne'
  rw [lineThrough, mul_div_cancel_right₀ _ hgap, add_sub_cancel]

theorem continuous_lineThrough (field : OrientationEntry ℝ → ℝ) (e f : OrientationEntry ℝ) :
    Continuous (lineThrough field e f) := by
  unfold lineThrough
  fun_prop

theorem monotone_lineThrough (hef : e.mjd < f.mjd) (hfield : field e ≤ field f) :
    Monotone (lineThrough field e f) := by
  intro m n hmn
  have hrise : 0 ≤ field f - field e := sub_nonneg.mpr hfield
  have hgap : 0 ≤ f.mjd - e.mjd := (sub_pos.mpr hef).le
  unfold lineThrough
  gcongr

theorem antitone_lineThrough (hef : e.mjd < f.mjd) (hfield : field f ≤ field e) :
    Antitone (lineThrough field e f) := by
  intro m n hmn
  have hfall : field f - field e ≤ 0 := sub_nonpos.mpr hfield
  -- the share of the gap grows with the date, and the field falls by it
  have hshare : (m - e.mjd) / (f.mjd - e.mjd) ≤ (n - e.mjd) / (f.mjd - e.mjd) := by
    have hgap : 0 ≤ f.mjd - e.mjd := (sub_pos.mpr hef).le
    gcongr
  unfold lineThrough
  rw [mul_div_assoc, mul_div_assoc]
  exact add_le_add_right (mul_le_mul_of_nonpos_left hshare hfall) _

/-- On the interval between two neighbours, ends included, a field is on the line through them. -/
theorem quantity_eqOn (ha : Ascending h.entries) (hn : h.Neighbours e f) (field : OrientationEntry ℝ → ℝ) :
    EqOn (h.quantity field) (lineThrough field e f) (Icc e.mjd f.mjd) := by
  intro m hm
  rcases hm.1.eq_or_lt with rfl | hleft
  · rw [lineThrough_left]
    exact quantity_of_ok (interpolate_node ha (hn.subset (by simp)) field)
  rcases hm.2.eq_or_lt with rfl | hright
  · rw [lineThrough_right (hn.lt ha)]
    exact quantity_of_ok (interpolate_node ha (hn.subset (by simp)) field)
  exact quantity_of_ok (interpolate_between ha hn ⟨hleft, hright⟩ field)

theorem interpolates_quantity (ha : Ascending h.entries) (field : OrientationEntry ℝ → ℝ) :
    h.Interpolates field (h.quantity field) where
  node e he := quantity_of_ok (interpolate_node ha he field)
  between e f hn m hm := quantity_of_ok (interpolate_between ha hn hm field)
  continuous e f hn := (continuous_lineThrough field e f).continuousOn.congr (quantity_eqOn ha hn field)
  rising e f hn hfield := (monotone_lineThrough (hn.lt ha) hfield).monotoneOn _ |>.congr (quantity_eqOn ha hn field).symm
  falling e f hn hfield := (antitone_lineThrough (hn.lt ha) hfield).antitoneOn _ |>.congr (quantity_eqOn ha hn field).symm
  bounded e f hn m hm := by
    have hef := hn.lt ha
    rw [quantity_eqOn ha hn field hm]
    have hleft := lineThrough_left field e f
    have hright := lineThrough_right hef field
    rcases le_total (field e) (field f) with hfield | hfield
    · have hmono := monotone_lineThrough hef hfield
      rw [uIcc_of_le hfield, ← hleft, ← hright]
      exact ⟨hmono hm.1, hmono hm.2⟩
    · have hanti := antitone_lineThrough hef hfield
      rw [uIcc_of_ge hfield, ← hleft, ← hright]
      exact ⟨hanti hm.2, hanti hm.1⟩

end Quantity

/-! ## The four quantities -/

section Main

/-- **The quantities of a history.**  They are refused outside its span and only there, each with the date and the
span.  Within it each is that of its own field: recorded at the date of an entry, and on the line between the two
neighbours that any other date lies between. -/
theorem quantities_interpolated {entries : List (OrientationEntry ℝ)} {h : OrientationHistory ℝ}
    (hk : ofEntries entries = .ok h) :
    (∀ m ∉ Icc h.first.mjd h.last.mjd,
      h.ut1MinusUtc m = .error (.outsideHistory m h.first.mjd h.last.mjd) ∧
      h.excessDay m = .error (.outsideHistory m h.first.mjd h.last.mjd) ∧
      h.pole m = .error (.outsideHistory m h.first.mjd h.last.mjd) ∧
      h.nutation m = .error (.outsideHistory m h.first.mjd h.last.mjd)) ∧
    (∀ m ∈ Icc h.first.mjd h.last.mjd,
      h.ut1MinusUtc m = .ok (h.quantity OrientationEntry.ut1MinusUtc m) ∧
      h.excessDay m = .ok (h.quantity OrientationEntry.excessDay m) ∧
      h.pole m = .ok (h.quantity OrientationEntry.xPole m, h.quantity OrientationEntry.yPole m) ∧
      h.nutation m = .ok (h.quantity OrientationEntry.nutationLongitude m,
        h.quantity OrientationEntry.nutationObliquity m)) ∧
    (∀ m ∈ Icc h.first.mjd h.last.mjd, (¬ ∃ e ∈ h.entries, e.mjd = m) →
      ∃! p : OrientationEntry ℝ × OrientationEntry ℝ, h.Neighbours p.1 p.2 ∧ m ∈ Ioo p.1.mjd p.2.mjd) ∧
    ∀ field, h.Interpolates field (h.quantity field) := by
  have ha : Ascending h.entries := (ofEntries_eq_ok_iff.mp hk).2
  refine ⟨fun m hm => ?outside, fun m hm => ?covered, fun m hm hnode => ?neighbours, interpolates_quantity ha⟩
  case outside =>
    have hc : h.covers m = false := by
      rw [← Bool.not_eq_true, h.covers_iff]
      exact hm
    have hout := interpolate_outside hc
    exact ⟨hout _, hout _, by rw [pole, hout]; rfl, by rw [nutation, hout]; rfl⟩
  case covered =>
    have hok := interpolate_eq_quantity ((h.covers_iff m).mpr hm)
    exact ⟨hok _, hok _, by rw [pole, hok, hok]; rfl, by rw [nutation, hok, hok]; rfl⟩
  case neighbours =>
    obtain ⟨e, f, hn, hbetween⟩ := (node_or_between ha hm).resolve_left hnode
    refine ⟨(e, f), ⟨hn, hbetween⟩, fun p hp => ?_⟩
    obtain ⟨rfl, rfl⟩ := hp.1.unique ha hn hp.2 hbetween
    rfl

/-- Two days, asked at noon of the first and a day after the second, and one day alone. -/
theorem quantities_interpolated_twoDays :
    (∃ h, ofEntries [midnight 1, midnight 0] = .ok h ∧ h.ut1MinusUtc (1 / 2) = .ok (1 / 20) ∧
      h.pole 2 = .error (.outsideHistory 2 0 1)) ∧
    ∃ h, ofEntries [midnight 5] = .ok h ∧ h.ut1MinusUtc 5 = .ok (1 / 2) := by
  constructor
  · have hk : ofEntries [midnight 1, midnight 0] = .ok ⟨midnight 0, [midnight 1]⟩ :=
      ofEntries_eq_ok_iff.mpr ⟨List.Perm.swap _ _ _, by norm_num [Ascending, entries, midnight]⟩
    obtain ⟨houtside, hcovered, -, hinterpolates⟩ := quantities_interpolated hk
    refine ⟨_, hk, ?_, (houtside 2 (by norm_num [last, midnight])).2.2.1⟩
    have hneighbours : Neighbours ⟨midnight 0, [midnight 1]⟩ (midnight 0) (midnight 1) := List.infix_refl _
    rw [(hcovered (1 / 2) (by norm_num [last, midnight])).1,
      (hinterpolates _).between _ _ hneighbours _ (by norm_num [midnight])]
    norm_num [lineThrough, midnight]
  · have hk : ofEntries [midnight 5] = .ok ⟨midnight 5, []⟩ :=
      ofEntries_eq_ok_iff.mpr ⟨List.Perm.refl _, by simp [Ascending, entries]⟩
    obtain ⟨-, hcovered, -, hinterpolates⟩ := quantities_interpolated hk
    refine ⟨_, hk, ?_⟩
    have hnode := (hinterpolates OrientationEntry.ut1MinusUtc).node (midnight 5) List.mem_cons_self
    rw [(hcovered 5 (by simp [last, midnight])).1]
    norm_num [midnight] at hnode ⊢
    exact hnode

end Main

end OrientationHistory

end OrbitFit
