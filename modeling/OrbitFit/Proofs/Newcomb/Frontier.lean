import Mathlib.Order.Bounds.Basic
import OrbitFit.Proofs.Newcomb.History

/-!
# OrbitFit.Proofs.Newcomb.Frontier — what a cache has computed is what it was asked for

A request moves each frontier to the greater of what it was and what the request needs, and leaves it alone where it
is covered already (`after_natural`, `after_covered`).  So the frontiers are maxima over the requests since the cache
was last cleared, in whatever order these came (`demanded_afterAll`), and as the frontiers say which operators are
held and a held operator is the one of the cache-free recursion, the whole cache is a function of the requests
(`state_afterAll`).
-/

namespace OrbitFit

open Newcomb (operator)

namespace NewcombCache

/-! ## Definitions -/

section Defs

/-- The indices that a call asks for; a call that clears the cache asks for none. -/
def Request.key? : Request → Option (ℤ × ℤ)
  | polynomials rho sigma => some (rho, sigma)
  | value rho sigma _ _ => some (rho, sigma)
  | clear => none

/-- The indices asked for since the cache was made, or cleared last. -/
def asked (history : List Request) : List (ℤ × ℤ) :=
  history.foldl (fun keys request =>
    match request.key? with
    | some key => keys ++ [key]
    | none => []) []

/-- The second indices of requests beyond the diagonal. -/
def reverseOrders (keys : List (ℤ × ℤ)) : Set ℕ :=
  {sigma | ∃ rho : ℤ, 0 ≤ rho ∧ rho < sigma ∧ (rho, (sigma : ℤ)) ∈ keys}

/-- The first indices of requests up to the diagonal. -/
def directOrders (keys : List (ℤ × ℤ)) : Set ℕ :=
  {rho | ∃ sigma : ℤ, 0 ≤ sigma ∧ sigma ≤ rho ∧ ((rho : ℤ), sigma) ∈ keys}

/-- The frontiers are the greatest orders that were asked for; the direct one is not behind the reverse one. -/
structure Demanded (c : NewcombCache ℝ) (keys : List (ℤ × ℤ)) : Prop where
  reverse : IsGreatest (insert 0 (reverseOrders keys)) c.reverse
  direct : IsGreatest (insert 0 (insert c.reverse (directOrders keys))) c.direct

/-- The frontier on the side of a pair of indices is not behind it. -/
def Covers (c : NewcombCache ℝ) (key : ℤ × ℤ) : Prop :=
  if key.1 < key.2 then key.2 ≤ c.reverse else key.1 ≤ c.direct

end Defs

/-! ## One request -/

section Requests

variable {c : NewcombCache ℝ} {request : Request} {key : ℤ × ℤ}

/-- A value is read off the polynomials. -/
theorem after_eq_polynomials (h : request.key? = some key) : c.after request = c.after (.polynomials key.1 key.2) := by
  cases request with
  | clear => cases h
  | polynomials rho sigma =>
    obtain rfl := Option.some.inj h
    rfl
  | value rho sigma n s =>
    obtain rfl := Option.some.inj h
    simp only [after, NewcombCache.value]
    rcases c.get rho sigma with fault | ⟨y, c', sweeps⟩
    · rfl
    · rfl

theorem after_negative (hr : request.key? = some key) (h : key.1 < 0 ∨ key.2 < 0) : c.after request = c := by
  rw [after_eq_polynomials hr]
  simp only [after, get_negative c h]

/-- **A request moves the frontiers** as far as its indices call for. -/
theorem after_natural (h : Coherent c) {rho sigma : ℕ} (hr : request.key? = some ((rho : ℤ), (sigma : ℤ))) :
    (c.after request).direct = max c.direct (max rho sigma) ∧
      (c.after request).reverse = if rho < sigma then max c.reverse sigma else c.reverse := by
  obtain ⟨c', sweeps, hget, -, hd, hrev⟩ := get_covers h rho sigma
  rw [after_eq_polynomials hr]
  simp only [after, hget]
  exact ⟨hd, hrev⟩

/-- A request that is covered computes nothing. -/
theorem get_covered (h : Coherent c) {rho sigma : ℕ} (hc : c.Covers (rho, sigma)) :
    c.get rho sigma = .ok (operator rho sigma, c, []) := by
  obtain ⟨hsweeps, hheld⟩ : c.sweepsFor rho sigma = [] ∧ Held c.direct c.reverse (rho, sigma) := by
    simp only [Covers, Nat.cast_lt, Nat.cast_le] at hc
    simp only [sweepsFor, Held]
    by_cases hlt : rho < sigma
    · rw [if_pos hlt] at hc ⊢
      exact ⟨if_pos hc, by omega⟩
    · rw [if_neg hlt] at hc ⊢
      exact ⟨if_pos hc, by omega⟩
  have hensure : c.ensure rho sigma = .ok (c, []) := by
    show (do
      let sweeps := c.sweepsFor rho sigma
      return (← sweeps.foldlM extend c, sweeps)) = Except.ok (c, [])
    rw [hsweeps]
    rfl
  unfold NewcombCache.get
  rw [hensure]
  simp only [bind, Except.bind, Int.toNat_natCast, h.holds.lookup hheld]
  rfl

theorem after_covered (h : Coherent c) (hr : request.key? = some key) (hn : 0 ≤ key.1 ∧ 0 ≤ key.2)
    (hc : c.Covers key) : c.after request = c := by
  obtain ⟨rho, sigma⟩ := key
  obtain ⟨a, rfl⟩ := Int.eq_ofNat_of_zero_le hn.1
  obtain ⟨b, rfl⟩ := Int.eq_ofNat_of_zero_le hn.2
  rw [after_eq_polynomials hr]
  simp only [after, get_covered h hc]

end Requests

/-! ## Any requests -/

section Histories

theorem afterAll_concat (history : List Request) (request : Request) :
    afterAll (history ++ [request]) = (afterAll history).after request := by
  unfold afterAll
  rw [List.foldl_append]
  rfl

theorem asked_concat_some {history : List Request} {request : Request} {key : ℤ × ℤ} (h : request.key? = some key) :
    asked (history ++ [request]) = asked history ++ [key] := by
  unfold asked
  rw [List.foldl_append]
  simp only [List.foldl_cons, List.foldl_nil, h]

theorem asked_concat_clear (history : List Request) : asked (history ++ [.clear]) = [] := by
  unfold asked
  rw [List.foldl_append]
  rfl

variable {keys : List (ℤ × ℤ)} {c c' : NewcombCache ℝ}

theorem isGreatest_insert_zero {S : Set ℕ} {n : ℕ} :
    IsGreatest (insert 0 S) n ↔ (n = 0 ∨ n ∈ S) ∧ ∀ m ∈ S, m ≤ n := by
  simp [IsGreatest, upperBounds]

theorem mem_reverseOrders_concat {rho sigma : ℤ} {n : ℕ} : n ∈ reverseOrders (keys ++ [(rho, sigma)]) ↔
    n ∈ reverseOrders keys ∨ (0 ≤ rho ∧ rho < sigma ∧ (n : ℤ) = sigma) := by
  simp only [reverseOrders, Set.mem_ofPred_eq, List.mem_append, List.mem_singleton, Prod.mk.injEq]
  constructor
  · rintro ⟨r, h0, hlt, hmem | ⟨rfl, rfl⟩⟩
    · exact .inl ⟨r, h0, hlt, hmem⟩
    · exact .inr ⟨h0, hlt, rfl⟩
  · rintro (⟨r, h0, hlt, hmem⟩ | ⟨h0, hlt, rfl⟩)
    · exact ⟨r, h0, hlt, .inl hmem⟩
    · exact ⟨rho, h0, hlt, .inr ⟨rfl, rfl⟩⟩

theorem mem_directOrders_concat {rho sigma : ℤ} {n : ℕ} : n ∈ directOrders (keys ++ [(rho, sigma)]) ↔
    n ∈ directOrders keys ∨ (0 ≤ sigma ∧ sigma ≤ rho ∧ (n : ℤ) = rho) := by
  simp only [directOrders, Set.mem_ofPred_eq, List.mem_append, List.mem_singleton, Prod.mk.injEq]
  constructor
  · rintro ⟨s, h0, hle, hmem | ⟨rfl, rfl⟩⟩
    · exact .inl ⟨s, h0, hle, hmem⟩
    · exact .inr ⟨h0, hle, rfl⟩
  · rintro (⟨s, h0, hle, hmem⟩ | ⟨h0, hle, rfl⟩)
    · exact ⟨s, h0, hle, .inl hmem⟩
    · exact ⟨sigma, h0, hle, .inr ⟨rfl, rfl⟩⟩

/-- A request that is refused asks for no order. -/
theorem Demanded.refused {key : ℤ × ℤ} (h : Demanded c keys) (hn : key.1 < 0 ∨ key.2 < 0) :
    Demanded c (keys ++ [key]) := by
  obtain ⟨rho, sigma⟩ := key
  have hr : reverseOrders (keys ++ [(rho, sigma)]) = reverseOrders keys := by
    ext n
    rw [mem_reverseOrders_concat]
    exact or_iff_left (by rintro ⟨h0, hlt, hs⟩; dsimp only at hn; omega)
  have hd : directOrders (keys ++ [(rho, sigma)]) = directOrders keys := by
    ext n
    rw [mem_directOrders_concat]
    exact or_iff_left (by rintro ⟨h0, hle, hs⟩; dsimp only at hn; omega)
  exact ⟨by rw [hr]; exact h.reverse, by rw [hd]; exact h.direct⟩

/-- A request for natural indices is one more order of its side. -/
theorem Demanded.natural {rho sigma : ℕ} (h : Demanded c keys) (hd : c'.direct = max c.direct (max rho sigma))
    (hr : c'.reverse = if rho < sigma then max c.reverse sigma else c.reverse) :
    Demanded c' (keys ++ [((rho : ℤ), (sigma : ℤ))]) := by
  obtain ⟨hrev, hrevle⟩ := isGreatest_insert_zero.mp h.reverse
  obtain ⟨hdir, hdirle⟩ := isGreatest_insert_zero.mp h.direct
  have hle : c.reverse ≤ c.direct := hdirle _ (Set.mem_insert _ _)
  have hordersle : ∀ n ∈ directOrders keys, n ≤ c.direct := fun n hn => hdirle n (Set.mem_insert_of_mem _ hn)
  rw [Set.mem_insert_iff] at hdir
  refine ⟨isGreatest_insert_zero.mpr ⟨?_, fun n hn => ?_⟩, isGreatest_insert_zero.mpr ⟨?_, fun n hn => ?_⟩⟩
  · rw [mem_reverseOrders_concat, hr]
    split_ifs with hlt
    · -- a request beyond the diagonal counts only if it is beyond the frontier as well
      rcases le_total sigma c.reverse with hs | hs
      · rw [max_eq_left hs]
        exact hrev.imp_right .inl
      · rw [max_eq_right hs]
        exact .inr (.inr ⟨by omega, by omega, rfl⟩)
    · exact hrev.imp_right .inl
  · rw [mem_reverseOrders_concat] at hn
    rw [hr]
    rcases hn with hn | ⟨h0, hlt, hs⟩
    · have := hrevle n hn
      split_ifs <;> omega
    · rw [if_pos (by omega)]
      omega
  · rw [Set.mem_insert_iff, mem_directOrders_concat, hd]
    by_cases hlt : rho < sigma
    · rw [if_pos hlt] at hr
      -- a reverse request behind the direct frontier leaves it, and any other takes both frontiers to its order
      rcases le_total sigma c.direct with hs | hs
      · rw [show max c.direct (max rho sigma) = c.direct by omega]
        rcases hdir with h0 | heq | hmem
        · exact .inl h0
        · exact .inr (.inl (by omega))
        · exact .inr (.inr (.inl hmem))
      · exact .inr (.inl (by omega))
    · rw [if_neg hlt] at hr
      rcases le_total rho c.direct with hs | hs
      · rw [show max c.direct (max rho sigma) = c.direct by omega, hr]
        exact hdir.imp_right fun hmem => hmem.imp_right .inl
      · exact .inr (.inr (.inr ⟨by omega, by omega, by omega⟩))
  · rw [Set.mem_insert_iff, mem_directOrders_concat] at hn
    rw [hd]
    -- the direct frontier is not behind the reverse one, even where that is the one that moves
    rcases hn with rfl | hn | ⟨h0, hge, hs⟩
    · rw [hr]
      split_ifs <;> omega
    · have := hordersle n hn
      omega
    · omega

theorem demanded_empty : Demanded empty [] :=
  ⟨isGreatest_insert_zero.mpr ⟨.inl rfl, by simp [reverseOrders]⟩,
    isGreatest_insert_zero.mpr ⟨.inl rfl, by simp [directOrders, empty]⟩⟩

/-- **The frontiers are what was asked for** since the cache was last cleared. -/
theorem demanded_afterAll (history : List Request) : Demanded (afterAll history) (asked history) := by
  induction history using List.reverseRecOn with
  | nil => exact demanded_empty
  | append_singleton history request ih =>
    rw [afterAll_concat]
    cases hkey : request.key? with
    | none =>
      obtain rfl : request = .clear := by
        cases request with
        | clear => rfl
        | polynomials rho sigma => cases hkey
        | value rho sigma n s => cases hkey
      rw [asked_concat_clear]
      exact demanded_empty
    | some key =>
      rw [asked_concat_some hkey]
      by_cases hn : key.1 < 0 ∨ key.2 < 0
      · rw [after_negative hkey hn]
        exact ih.refused hn
      · obtain ⟨rho, sigma⟩ := key
        obtain ⟨a, rfl⟩ := Int.eq_ofNat_of_zero_le (by dsimp only at hn; omega : 0 ≤ rho)
        obtain ⟨b, rfl⟩ := Int.eq_ofNat_of_zero_le (by dsimp only at hn; omega : 0 ≤ sigma)
        obtain ⟨hd, hr⟩ := after_natural (coherent_afterAll history) hkey
        exact ih.natural hd hr

end Histories

/-! ## The whole cache -/

section Caches

/-- The operators that are held are the seeds and those on the anti-diagonals up to twice a frontier. -/
theorem mem_operators_iff {c : NewcombCache ℝ} (h : Coherent c) (rho sigma : ℕ) : (rho, sigma) ∈ c.operators ↔
    (rho, sigma) ∈ [(0, 0), (1, 0), (0, 1)] ∨ (sigma ≤ rho ∧ rho + sigma ≤ 2 * c.direct) ∨
      (rho ≤ sigma ∧ rho + sigma ≤ 2 * c.reverse) := by
  have hseeds : rho + sigma ≤ 1 ↔ (rho, sigma) ∈ [(0, 0), (1, 0), (0, 1)] := by
    simp only [List.mem_cons, Prod.mk.injEq, List.not_mem_nil, or_false]
    omega
  rw [← hseeds, ← Std.HashMap.isSome_getElem?_iff_mem]
  by_cases hheld : Held c.direct c.reverse (rho, sigma)
  · rw [h.holds.entry _ hheld]
    exact iff_of_true rfl hheld
  · rw [h.holds.rest _ hheld]
    exact iff_of_false Bool.false_ne_true hheld

/-- Caches of the same frontiers hold the same operators. -/
theorem Coherent.operators_eq {c c' : NewcombCache ℝ} (h : Coherent c) (h' : Coherent c')
    (hd : c'.direct = c.direct) (hr : c'.reverse = c.reverse) (key : ℕ × ℕ) :
    c'.operators[key]? = c.operators[key]? := by
  by_cases hheld : Held c.direct c.reverse key
  · rw [h.holds.entry key hheld, h'.holds.entry key (by rwa [hd, hr])]
  · rw [h.holds.rest key hheld, h'.holds.rest key (by rwa [hd, hr])]

variable {c c' : NewcombCache ℝ} {keys keys' : List (ℤ × ℤ)}

theorem Demanded.reverse_le (h : Demanded c keys) (h' : Demanded c' keys') (hk : keys ⊆ keys') :
    c.reverse ≤ c'.reverse := by
  obtain ⟨h0 | ⟨rho, hnonneg, hlt, hmem⟩, -⟩ := isGreatest_insert_zero.mp h.reverse
  · omega
  · exact h'.reverse.2 (Set.mem_insert_of_mem _ ⟨rho, hnonneg, hlt, hk hmem⟩)

/-- More requests never take a frontier back. -/
theorem Demanded.direct_le (h : Demanded c keys) (h' : Demanded c' keys') (hk : keys ⊆ keys') :
    c.direct ≤ c'.direct := by
  have hrev := h.reverse_le h' hk
  have hle : c'.reverse ≤ c'.direct := h'.direct.2 (Set.mem_insert_of_mem _ (Set.mem_insert _ _))
  obtain ⟨h0 | heq | ⟨sigma, hnonneg, hge, hmem⟩, -⟩ := isGreatest_insert_zero.mp h.direct
  · omega
  · omega
  · exact h'.direct.2 (Set.mem_insert_of_mem _ (Set.mem_insert_of_mem _ ⟨sigma, hnonneg, hge, hk hmem⟩))

theorem asked_append {later : List Request} (h : ∀ request ∈ later, request.key? ≠ none) (history : List Request) :
    asked history ⊆ asked (history ++ later) := by
  induction later using List.reverseRecOn with
  | nil => rw [List.append_nil]; exact List.Subset.refl _
  | append_singleton later request ih =>
    obtain ⟨key, hkey⟩ := Option.ne_none_iff_exists'.mp (h request (by simp))
    rw [← List.append_assoc, asked_concat_some hkey]
    exact List.subset_append_of_subset_left _ (ih fun r hr => h r (by simp [hr]))

/-- **A cache is a function of what it was asked** since it was made, or cleared last.  The reverse frontier is the
greatest second index of a request beyond the diagonal, the direct one the greatest first index of a request up to
it, or the reverse one; and the operators held are the seeds and those up to twice the frontiers.  So calls that do
not clear the cache never take a frontier back, one that is refused or covered changes nothing, and the same requests
in another order leave the same frontiers, keys and operators. -/
theorem state_afterAll (history : List Request) :
    IsGreatest (insert 0 (reverseOrders (asked history))) (afterAll history).reverse ∧
    IsGreatest (insert 0 (insert (afterAll history).reverse (directOrders (asked history))))
      (afterAll history).direct ∧
    (∀ rho sigma : ℕ, (rho, sigma) ∈ (afterAll history).operators ↔
      (rho, sigma) ∈ [(0, 0), (1, 0), (0, 1)] ∨ (sigma ≤ rho ∧ rho + sigma ≤ 2 * (afterAll history).direct) ∨
        (rho ≤ sigma ∧ rho + sigma ≤ 2 * (afterAll history).reverse)) ∧
    (∀ later : List Request, (∀ request ∈ later, request.key? ≠ none) →
      (afterAll history).direct ≤ (afterAll (history ++ later)).direct ∧
        (afterAll history).reverse ≤ (afterAll (history ++ later)).reverse) ∧
    (∀ request key, request.key? = some key → (key.1 < 0 ∨ key.2 < 0 ∨ (afterAll history).Covers key) →
      afterAll (history ++ [request]) = afterAll history) ∧
    ∀ other : List Request, (asked other).Perm (asked history) →
      (afterAll other).direct = (afterAll history).direct ∧ (afterAll other).reverse = (afterAll history).reverse ∧
        ∀ key : ℕ × ℕ, (afterAll other).operators[key]? = (afterAll history).operators[key]? := by
  have h := coherent_afterAll history
  have hd := demanded_afterAll history
  refine ⟨hd.reverse, hd.direct, mem_operators_iff h, fun later hlater => ?_, fun request key hkey hc => ?_,
    fun other hperm => ?_⟩
  · have hk := asked_append hlater history
    have hd' := demanded_afterAll (history ++ later)
    exact ⟨hd.direct_le hd' hk, hd.reverse_le hd' hk⟩
  · rw [afterAll_concat]
    by_cases hn : key.1 < 0 ∨ key.2 < 0
    · exact after_negative hkey hn
    · rw [not_or, not_lt, not_lt] at hn
      rw [← or_assoc] at hc
      exact after_covered h hkey hn (hc.resolve_left (by omega))
  · have hd' := demanded_afterAll other
    have hdirect := le_antisymm (hd'.direct_le hd hperm.subset) (hd.direct_le hd' hperm.symm.subset)
    have hreverse := le_antisymm (hd'.reverse_le hd hperm.subset) (hd.reverse_le hd' hperm.symm.subset)
    exact ⟨hdirect, hreverse, h.operators_eq (coherent_afterAll other) hdirect hreverse⟩

/-- Requests before and after the cache is cleared, one of them refused. -/
noncomputable def outOfOrder : List Request :=
  [.polynomials 5 1, .clear, .polynomials 1 3, .polynomials (-1) 7, .value 2 0 1 1]

/-- The requests that count, in another order. -/
noncomputable def inOrder : List Request := [.value 2 0 1 1, .polynomials (-1) 7, .polynomials 1 3]

/-- The request beyond the diagonal takes both frontiers to its order, and the one before it in the other order makes
no difference. -/
theorem state_afterAll_outOfOrder :
    (afterAll outOfOrder).reverse = 3 ∧ (afterAll outOfOrder).direct = 3 ∧
      (3, 3) ∈ (afterAll outOfOrder).operators ∧ (4, 3) ∉ (afterAll outOfOrder).operators ∧
      (afterAll outOfOrder).direct ≤ (afterAll (outOfOrder ++ [.polynomials 4 0])).direct ∧
      afterAll (outOfOrder ++ [.polynomials (-2) 0]) = afterAll outOfOrder ∧
      afterAll (outOfOrder ++ [.polynomials 3 3]) = afterAll outOfOrder ∧
      (afterAll inOrder).direct = (afterAll outOfOrder).direct ∧
      ∀ key : ℕ × ℕ, (afterAll inOrder).operators[key]? = (afterAll outOfOrder).operators[key]? := by
  obtain ⟨hrev, hdir, hkeys, hlater, hsame, horder⟩ := state_afterAll outOfOrder
  have hasked : asked outOfOrder = [(1, 3), (-1, 7), (2, 0)] := rfl
  have hperm : (asked inOrder).Perm (asked outOfOrder) := by decide
  rw [hasked, isGreatest_insert_zero] at hrev hdir
  have hr : (afterAll outOfOrder).reverse = 3 := by
    refine le_antisymm ?_ (hrev.2 3 ⟨1, by simp⟩)
    obtain h0 | ⟨rho, h0, hlt, hmem⟩ := hrev.1
    · omega
    · simp only [List.mem_cons, Prod.mk.injEq, List.not_mem_nil, or_false] at hmem
      omega
  have hd : (afterAll outOfOrder).direct = 3 := by
    refine le_antisymm ?_ (hdir.2 3 (by rw [hr]; exact Set.mem_insert _ _))
    obtain h0 | heq | ⟨sigma, h0, hge, hmem⟩ := hdir.1
    · omega
    · omega
    · simp only [List.mem_cons, Prod.mk.injEq, List.not_mem_nil, or_false] at hmem
      omega
  obtain ⟨hdirect, -, hoperators⟩ := horder inOrder hperm
  refine ⟨hr, hd, (hkeys 3 3).mpr (by simp [hr, hd]), fun h43 => ?_,
    (hlater [.polynomials 4 0] (by simp [Request.key?])).1, hsame _ _ rfl (.inl (by decide)),
    hsame _ _ rfl (.inr (.inr ?_)), hdirect, hoperators⟩
  · have h := (hkeys 4 3).mp h43
    simp [hr, hd] at h
  · simp [Covers, hd]

end Caches

end NewcombCache

end OrbitFit
