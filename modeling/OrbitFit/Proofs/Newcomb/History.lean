import OrbitFit.Proofs.Newcomb.Operator

/-!
# OrbitFit.Proofs.Newcomb.History — a cache answers as if it were not there

What a cache holds is a function of its two frontiers: the keys on the anti-diagonals up to twice a frontier,
each with the operator of the cache-free recursion (`Coherent`).  A sweep goes through its diagonals in order.
Every source of a key lies on an earlier diagonal of the same sweep, below the frontier it started from, or, for
a reverse sweep, in the direct regime that was extended before (`extend_direct`, `extend_reverse`).  So no
look-up misses, and an entry written a second time is written with the same value.
-/

namespace OrbitFit

open Newcomb (operator exactFactors terms combine_eq source_sum_lt)

namespace NewcombCache

/-! ## Definitions -/

section Defs

/-- A call on a cache, with any indices. -/
inductive Request where
  | polynomials (rho sigma : ℤ)
  | value (rho sigma : ℤ) (n s : ℝ)
  | clear

/-- The cache after a call.  A call that fails leaves it as it was. -/
noncomputable def after (c : NewcombCache ℝ) : Request → NewcombCache ℝ
  | .polynomials rho sigma =>
    match c.get rho sigma with
    | .ok (_, c', _) => c'
    | .error _ => c
  | .value rho sigma n s =>
    match c.value rho sigma n s with
    | .ok (_, c') => c'
    | .error _ => c
  | .clear => empty

/-- The cache after a sequence of calls on a fresh one. -/
noncomputable def afterAll (history : List Request) : NewcombCache ℝ := history.foldl after empty

/-- The keys that are held at a pair of frontiers. -/
def Held (direct reverse : ℕ) (key : ℕ × ℕ) : Prop :=
  key.1 + key.2 ≤ 1 ∨ (key.2 ≤ key.1 ∧ key.1 + key.2 ≤ 2 * direct) ∨
    (key.1 ≤ key.2 ∧ key.1 + key.2 ≤ 2 * reverse)

/-- The side of the diagonal that a sweep works on, the diagonal included. -/
def Regime (reverse : Bool) (key : ℕ × ℕ) : Prop := if reverse then key.1 ≤ key.2 else key.2 ≤ key.1

/-- A table holds the operators at the keys with a property and nothing else. -/
structure Holds (m : Std.HashMap (ℕ × ℕ) (Series ℝ)) (P : ℕ × ℕ → Prop) : Prop where
  entry : ∀ key, P key → m[key]? = some (operator key.1 key.2)
  rest : ∀ key, ¬ P key → m[key]? = none

/-- The cache holds what its frontiers say, and the reverse one is not ahead. -/
structure Coherent (c : NewcombCache ℝ) : Prop where
  holds : Holds c.operators (Held c.direct c.reverse)
  reverse_le : c.reverse ≤ c.direct

end Defs

/-! ## Tables -/

section Tables

theorem Holds.congr {m : Std.HashMap (ℕ × ℕ) (Series ℝ)} {P Q : ℕ × ℕ → Prop} (h : Holds m P)
    (hPQ : ∀ key, P key ↔ Q key) : Holds m Q :=
  ⟨fun key hq => h.entry key ((hPQ key).mpr hq), fun key hq => h.rest key (fun hp => hq ((hPQ key).mp hp))⟩

theorem Holds.lookup {c : NewcombCache ℝ} {P : ℕ × ℕ → Prop} (h : Holds c.operators P) {key : ℕ × ℕ}
    (hk : P key) : c.lookup key = .ok (operator key.1 key.2) := by
  unfold NewcombCache.lookup
  rw [h.entry key hk]

theorem Holds.insert {m : Std.HashMap (ℕ × ℕ) (Series ℝ)} {P : ℕ × ℕ → Prop} (h : Holds m P) (key : ℕ × ℕ) :
    Holds (m.insert key (operator key.1 key.2)) (fun k => P k ∨ k = key) := by
  constructor
  · intro k hk
    rw [Std.HashMap.getElem?_insert]
    by_cases he : key = k
    · subst he
      simp
    · rw [if_neg (by simpa using he)]
      exact h.entry k (hk.resolve_right (Ne.symm he))
  · intro k hk
    rw [not_or] at hk
    rw [Std.HashMap.getElem?_insert, if_neg (by simpa using Ne.symm hk.2)]
    exact h.rest k hk.1

/-- What a fresh cache holds. -/
theorem operators_empty (key : ℕ × ℕ) : (empty : NewcombCache ℝ).operators[key]? =
    if (0, 1) = key then some [⟨[0, -1]⟩, ⟨[-0.5]⟩]
    else if (1, 0) = key then some [⟨[0, 1]⟩, ⟨[-0.5]⟩]
    else if (0, 0) = key then some [⟨[1]⟩] else none := by
  simp only [empty, Newcomb.seeds, Std.HashMap.ofList_eq_insertMany_empty, Std.HashMap.insertMany_cons,
    Std.HashMap.insertMany_nil, Std.HashMap.getElem?_insert, Std.HashMap.getElem?_empty, beq_iff_eq]

theorem coherent_empty : Coherent empty := by
  refine ⟨⟨?_, ?_⟩, le_rfl⟩
  · rintro ⟨rho, sigma⟩ h
    -- only the three seeds have an index sum of one or less
    have h1 : (rho = 0 ∧ sigma = 1) ∨ (rho = 1 ∧ sigma = 0) ∨ (rho = 0 ∧ sigma = 0) := by
      simp only [Held, empty] at h
      omega
    rw [operators_empty]
    rcases h1 with ⟨rfl, rfl⟩ | ⟨rfl, rfl⟩ | ⟨rfl, rfl⟩
    · exact congrArg some Newcomb.operator_zero_one.symm
    · exact congrArg some Newcomb.operator_one_zero.symm
    · exact congrArg some Newcomb.operator_zero_zero.symm
  · rintro ⟨rho, sigma⟩ h
    have h1 : 1 < rho + sigma := by
      simp only [Held, empty] at h
      omega
    rw [operators_empty, if_neg, if_neg, if_neg] <;> simp only [Prod.mk.injEq] <;> omega

end Tables

/-! ## One sweep -/

section Sweeps

/-- Sources of a key in the direct regime lie there as well. -/
theorem source_direct {rho sigma : ℕ} {t : Newcomb.Term ℝ} (h : t ∈ terms (exactFactors rho sigma) rho sigma)
    (hle : sigma ≤ rho) : t.source.2 ≤ t.source.1 := by
  simp only [terms, List.filterMap_cons, List.filterMap_nil] at h
  grind

theorem mem_diagonal {reverse : Bool} {total : ℕ} {key : ℕ × ℕ} :
    key ∈ Sweep.diagonal reverse total ↔ Regime reverse key ∧ key.1 + key.2 = total := by
  obtain ⟨r, s⟩ := key
  simp only [Sweep.diagonal, List.mem_map, List.mem_range, Regime]
  cases reverse with
  | false =>
    simp only [Bool.false_eq_true, if_false, Prod.mk.injEq]
    exact ⟨fun ⟨j, hj, h1, h2⟩ => by omega, fun ⟨h1, h2⟩ => ⟨s, by omega, by omega, rfl⟩⟩
  | true =>
    simp only [if_true, Prod.mk.injEq]
    exact ⟨fun ⟨j, hj, h1, h2⟩ => by omega, fun ⟨h1, h2⟩ => ⟨r, by omega, rfl, by omega⟩⟩

theorem compute_holds {c : NewcombCache ℝ} {P : ℕ × ℕ → Prop} (h : Holds c.operators P) {key : ℕ × ℕ}
    (hkey : 1 ≤ key.1 + key.2) (hsrc : ∀ t ∈ terms (exactFactors key.1 key.2) key.1 key.2, P t.source) :
    ∃ m, c.compute key = .ok { c with operators := m } ∧ Holds m (fun k => P k ∨ k = key) := by
  refine ⟨c.operators.insert key (operator key.1 key.2), ?_, h.insert key⟩
  unfold compute
  rw [combine_eq hkey (fun t ht => h.lookup (hsrc t ht))]
  rfl

/-- Keys whose sources are all there are computed one after the other, in any order. -/
theorem computeAll_holds : ∀ (keys : List (ℕ × ℕ)) {c : NewcombCache ℝ} {P : ℕ × ℕ → Prop},
    Holds c.operators P → (∀ key ∈ keys, 1 ≤ key.1 + key.2 ∧
      ∀ t ∈ terms (exactFactors key.1 key.2) key.1 key.2, P t.source) →
    ∃ m, keys.foldlM compute c = .ok { c with operators := m } ∧ Holds m (fun k => P k ∨ k ∈ keys)
  | [], c, P, h, _ => ⟨c.operators, rfl, h.congr (fun k => by simp)⟩
  | key :: keys, c, P, h, hk => by
    obtain ⟨hkey, hsrc⟩ := hk key (by simp)
    -- a key that was computed only adds to what is held, so the sources of the others stay there
    obtain ⟨m, hm, hhm⟩ := compute_holds h hkey hsrc
    obtain ⟨m', hm', hhm'⟩ := computeAll_holds keys (c := { c with operators := m }) hhm
      (fun k hkk => ⟨(hk k (by simp [hkk])).1, fun t ht => Or.inl ((hk k (by simp [hkk])).2 t ht)⟩)
    refine ⟨m', ?_, hhm'.congr (fun k => by simp [or_assoc])⟩
    rw [List.foldlM_cons, hm]
    exact hm'

/-- A run of diagonals, each built from keys held before and from diagonals of the run below it. -/
theorem diagonals_hold (reverse : Bool) (first : ℕ) {c : NewcombCache ℝ} {P : ℕ × ℕ → Prop}
    (h : Holds c.operators P) (h1 : 1 ≤ first) : ∀ (count : ℕ),
    (∀ key, Regime reverse key → key.1 + key.2 < first + count →
      ∀ t ∈ terms (exactFactors key.1 key.2) key.1 key.2,
        P t.source ∨ (Regime reverse t.source ∧ first ≤ t.source.1 + t.source.2)) →
    ∃ m, ((List.range' first count).flatMap (Sweep.diagonal reverse)).foldlM compute c =
        .ok { c with operators := m } ∧
      Holds m (fun k => P k ∨ (Regime reverse k ∧ first ≤ k.1 + k.2 ∧ k.1 + k.2 < first + count))
  | 0, _ => ⟨c.operators, rfl, h.congr (fun k => by grind)⟩
  | count + 1, hsrc => by
    obtain ⟨m, hm, hhm⟩ := diagonals_hold reverse first h h1 count (fun key hr hlt => hsrc key hr (by omega))
    obtain ⟨m', hm', hhm'⟩ := computeAll_holds (Sweep.diagonal reverse (first + count))
      (c := { c with operators := m }) hhm (fun key hkey => by
        obtain ⟨hreg, hsum⟩ := mem_diagonal.mp hkey
        refine ⟨by omega, fun t ht => (hsrc key hreg (by omega) t ht).imp_right ?_⟩
        -- a source on the side of the sweep is on a diagonal below, which is part of the run already
        have hlt := source_sum_lt ht
        exact fun ⟨hr, hf⟩ => ⟨hr, hf, by omega⟩)
    refine ⟨m', ?_, hhm'.congr (fun k => ?_)⟩
    · rw [List.range'_concat, List.flatMap_append, List.foldlM_append, hm]
      simp only [Nat.one_mul, List.flatMap_cons, List.flatMap_nil, List.append_nil]
      exact hm'
    · rw [mem_diagonal]
      grind

/-- **A sweep** that finds the sources of its keys adds the keys between its frontier and its order. -/
theorem extend_holds {c : NewcombCache ℝ} {P : ℕ × ℕ → Prop} (h : Holds c.operators P) {s : Sweep}
    (hlt : s.frontier < s.order)
    (hsrc : ∀ key, Regime s.reverse key → key.1 + key.2 ≤ 2 * s.order →
      ∀ t ∈ terms (exactFactors key.1 key.2) key.1 key.2,
        P t.source ∨ (Regime s.reverse t.source ∧ 2 * s.frontier < t.source.1 + t.source.2)) :
    ∃ m, c.extend s = .ok ⟨m, max c.direct s.order, if s.reverse then s.order else c.reverse⟩ ∧
      Holds m (fun k => P k ∨ (Regime s.reverse k ∧ 2 * s.frontier < k.1 + k.2 ∧ k.1 + k.2 ≤ 2 * s.order)) := by
  obtain ⟨m, hm, hhm⟩ := diagonals_hold s.reverse (2 * s.frontier + 1) h (by omega)
    (2 * s.order + 1 - (2 * s.frontier + 1)) (fun key hr hk => hsrc key hr (by omega))
  refine ⟨m, ?_, hhm.congr (fun k => by grind)⟩
  unfold extend Sweep.keys
  simp only [min_eq_left hlt.le, hm]
  rfl

theorem extend_direct {c : NewcombCache ℝ} (h : Coherent c) (order : ℕ) (ho : c.direct < order) :
    ∃ c', c.extend ⟨false, c.direct, order⟩ = .ok c' ∧ Coherent c' ∧ c'.direct = order ∧
      c'.reverse = c.reverse := by
  have hle := h.reverse_le
  obtain ⟨m, hm, hhm⟩ := extend_holds h.holds (s := ⟨false, c.direct, order⟩) ho (by
    intro key hreg hsum t ht
    have h1 := source_direct ht hreg
    -- a source is either below the old frontier, where it is held, or on a diagonal of this sweep
    by_cases hlow : t.source.1 + t.source.2 ≤ 2 * c.direct
    · exact Or.inl (Or.inr (Or.inl ⟨h1, hlow⟩))
    · exact Or.inr ⟨h1, not_le.mp hlow⟩)
  rw [max_eq_right ho.le] at hm
  refine ⟨_, hm, ⟨hhm.congr (fun k => ?_), hle.trans ho.le⟩, rfl, rfl⟩
  simp only [Held, Regime, Bool.false_eq_true, if_false]
  omega

/-- A reverse sweep reads the direct regime too, which has to be there up to the same order. -/
theorem extend_reverse {c : NewcombCache ℝ} (h : Coherent c) (order : ℕ) (ho : c.reverse < order)
    (hd : order ≤ c.direct) :
    ∃ c', c.extend ⟨true, c.reverse, order⟩ = .ok c' ∧ Coherent c' ∧ c'.direct = c.direct ∧
      c'.reverse = order := by
  obtain ⟨m, hm, hhm⟩ := extend_holds h.holds (s := ⟨true, c.reverse, order⟩) ho (by
    intro key hreg hsum t ht
    have h1 := source_sum_lt ht
    simp only [Held, Regime, if_true] at hsum ⊢
    omega)
  rw [max_eq_left hd] at hm
  refine ⟨_, hm, ⟨hhm.congr (fun k => ?_), hd⟩, rfl, rfl⟩
  simp only [Held, Regime, if_true]
  omega

end Sweeps

/-! ## Requests -/

section Requests

/-- A request for natural indices extends the cache until it covers them. -/
theorem ensure_covers {c : NewcombCache ℝ} (h : Coherent c) (rho sigma : ℕ) :
    ∃ c' sweeps, c.ensure rho sigma = .ok (c', sweeps) ∧ Coherent c' ∧
      c'.direct = max c.direct (max rho sigma) ∧
      c'.reverse = if rho < sigma then max c.reverse sigma else c.reverse := by
  have hle := h.reverse_le
  show ∃ c' sweeps, (do
    let sweeps := c.sweepsFor rho sigma
    return (← sweeps.foldlM extend c, sweeps)) = Except.ok (c', sweeps) ∧ _
  unfold sweepsFor
  by_cases hlt : rho < sigma
  · -- beyond the diagonal: nothing to do, one reverse sweep, or a direct sweep before it
    by_cases hr : sigma ≤ c.reverse
    · simp only [if_pos hlt, if_pos hr]
      refine ⟨c, [], rfl, h, ?_, ?_⟩ <;> omega
    by_cases hd : sigma ≤ c.direct
    · simp only [if_pos hlt, if_neg hr, if_pos hd]
      obtain ⟨c', hc', hco, h1, h2⟩ := extend_reverse h sigma (by omega) hd
      refine ⟨c', [⟨true, c.reverse, sigma⟩], ?_, hco, ?_, ?_⟩
      · simp [hc', bind, Except.bind, pure, Except.pure]
      · omega
      · omega
    · simp only [if_pos hlt, if_neg hr, if_neg hd]
      obtain ⟨c1, hc1, hco1, h1, h2⟩ := extend_direct h sigma (by omega)
      obtain ⟨c2, hc2, hco2, h3, h4⟩ := extend_reverse hco1 sigma (by omega) (by omega)
      refine ⟨c2, [⟨false, c.direct, sigma⟩, ⟨true, c.reverse, sigma⟩], ?_, hco2, ?_, ?_⟩
      · rw [h2] at hc2
        simp [hc1, hc2, bind, Except.bind, pure, Except.pure]
      · omega
      · omega
  · -- up to the diagonal: nothing to do, or one direct sweep
    by_cases hd : rho ≤ c.direct
    · simp only [if_neg hlt, if_pos hd]
      refine ⟨c, [], rfl, h, ?_, rfl⟩
      omega
    · simp only [if_neg hlt, if_neg hd]
      obtain ⟨c', hc', hco, h1, h2⟩ := extend_direct h rho (by omega)
      refine ⟨c', [⟨false, c.direct, rho⟩], ?_, hco, ?_, h2⟩
      · simp [hc', bind, Except.bind, pure, Except.pure]
      · omega

/-- A request for natural indices is answered by the operator, and moves the frontiers as far as it has to. -/
theorem get_covers {c : NewcombCache ℝ} (h : Coherent c) (rho sigma : ℕ) :
    ∃ c' sweeps, c.get rho sigma = .ok (operator rho sigma, c', sweeps) ∧ Coherent c' ∧
      c'.direct = max c.direct (max rho sigma) ∧
      c'.reverse = if rho < sigma then max c.reverse sigma else c.reverse := by
  obtain ⟨c', sweeps, hc', hco, h1, h2⟩ := ensure_covers h rho sigma
  refine ⟨c', sweeps, ?_, hco, h1, h2⟩
  have hheld : Held c'.direct c'.reverse (rho, sigma) := by
    unfold Held
    dsimp only
    split_ifs at h2 <;> omega
  have hl := hco.holds.lookup hheld
  unfold NewcombCache.get
  rw [hc']
  simp only [bind, Except.bind, Int.toNat_natCast, hl]
  rfl

theorem get_eq {c : NewcombCache ℝ} (h : Coherent c) (rho sigma : ℕ) :
    ∃ c' sweeps, c.get rho sigma = .ok (operator rho sigma, c', sweeps) ∧ Coherent c' := by
  obtain ⟨c', sweeps, hc', hco, -⟩ := get_covers h rho sigma
  exact ⟨c', sweeps, hc', hco⟩

theorem value_eq {c : NewcombCache ℝ} (h : Coherent c) (rho sigma : ℕ) (n s : ℝ) :
    ∃ c', c.value rho sigma n s = .ok ((operator rho sigma).evaluate n s, c') ∧ Coherent c' := by
  obtain ⟨c', sweeps, hc', hco⟩ := get_eq h rho sigma
  refine ⟨c', ?_, hco⟩
  unfold NewcombCache.value
  rw [hc']
  rfl

/-- A negative index is refused before anything is computed. -/
theorem ensure_negative (c : NewcombCache ℝ) {rho sigma : ℤ} (h : rho < 0 ∨ sigma < 0) :
    c.ensure rho sigma = .error (.operatorIndex rho sigma) := by
  cases rho with
  | negSucc a => rfl
  | ofNat a =>
    cases sigma with
    | negSucc b => rfl
    | ofNat b =>
      simp only [Int.ofNat_eq_natCast] at h
      omega

theorem get_negative (c : NewcombCache ℝ) {rho sigma : ℤ} (h : rho < 0 ∨ sigma < 0) :
    c.get rho sigma = .error (.operatorIndex rho sigma) := by
  unfold NewcombCache.get
  rw [ensure_negative c h]
  rfl

theorem value_negative (c : NewcombCache ℝ) {rho sigma : ℤ} (h : rho < 0 ∨ sigma < 0) (n s : ℝ) :
    c.value rho sigma n s = .error (.operatorIndex rho sigma) := by
  unfold NewcombCache.value
  rw [get_negative c h]
  rfl

/-- **Every call keeps the cache coherent.** -/
theorem coherent_after {c : NewcombCache ℝ} (h : Coherent c) (request : Request) :
    Coherent (c.after request) := by
  cases request with
  | clear => exact coherent_empty
  | polynomials rho sigma =>
    by_cases hneg : rho < 0 ∨ sigma < 0
    · simpa only [after, get_negative c hneg] using h
    · obtain ⟨a, rfl⟩ := Int.eq_ofNat_of_zero_le (by omega : 0 ≤ rho)
      obtain ⟨b, rfl⟩ := Int.eq_ofNat_of_zero_le (by omega : 0 ≤ sigma)
      obtain ⟨c', sweeps, hc', hco⟩ := get_eq h a b
      simpa only [after, hc'] using hco
  | value rho sigma n s =>
    by_cases hneg : rho < 0 ∨ sigma < 0
    · simpa only [after, value_negative c hneg] using h
    · obtain ⟨a, rfl⟩ := Int.eq_ofNat_of_zero_le (by omega : 0 ≤ rho)
      obtain ⟨b, rfl⟩ := Int.eq_ofNat_of_zero_le (by omega : 0 ≤ sigma)
      obtain ⟨c', hc', hco⟩ := value_eq h a b n s
      simpa only [after, hc'] using hco

theorem coherent_afterAll (history : List Request) : Coherent (afterAll history) := by
  induction history using List.reverseRecOn with
  | nil => exact coherent_empty
  | append_singleton history request ih =>
    unfold afterAll at ih ⊢
    rw [List.foldl_append]
    exact coherent_after ih request

/-- **The answer does not depend on the history.**  After any calls a request for natural indices succeeds with
the operator of the cache-free recursion, as polynomials and as a value. -/
theorem get_afterAll (history : List Request) (rho sigma : ℕ) :
    (∃ c sweeps, (afterAll history).get rho sigma = .ok (operator rho sigma, c, sweeps)) ∧
      ∀ n s : ℝ, ∃ c, (afterAll history).value rho sigma n s = .ok ((operator rho sigma).evaluate n s, c) := by
  have h := coherent_afterAll history
  constructor
  · obtain ⟨c, sweeps, hc, -⟩ := get_eq h rho sigma
    exact ⟨c, sweeps, hc⟩
  · intro n s
    obtain ⟨c, hc, -⟩ := value_eq h rho sigma n s
    exact ⟨c, hc⟩

end Requests

end NewcombCache

end OrbitFit
