import Mathlib.Data.List.Induction
import Mathlib.Data.List.Nodup
import OrbitFit.LogTree

/-!
# OrbitFit.Proofs.LogTree — which handlers a logger has after any history

An application calls `configure` and `reset` and, in between, attaches handlers of its own to the library's
logger or takes them out again.  `Expected` is read off such a history alone: it follows the application's
handlers as if nobody configured anything, and lists what each call made.

* `uninstall_eq`: the loop that takes the installed handlers out, while it changes the list it came from, leaves
  the others in their order and closes each installed one
* `Tracks`: the tree against what is expected, kept by every `Step`
* `handlers_afterAll`: after any history the logger has the application's handlers in their order, with the
  handlers of the last call in one piece; those of all earlier calls are out and were closed once
-/

namespace OrbitFit

/-! ### Handlers of the two owners -/

namespace Handler

/-- A handler that the application made. -/
def theirs (id : Nat) (kind : HandlerKind) : Handler := ⟨id, kind, false⟩

variable {first : Nat} {toFile : Bool} {h : Handler}

theorem kind_batch : (batch first toFile).map kind = .console :: if toFile then [.file] else [] := by
  cases toFile <;> rfl

theorem id_batch : (batch first toFile).map id = List.range' first (batch first toFile).length := by
  cases toFile <;> rfl

theorem installed_of_mem_batch (hh : h ∈ batch first toFile) : h.installed = true := by
  cases toFile <;> simp [batch] at hh
  · rw [hh]
  · rcases hh with rfl | rfl <;> rfl

theorem nodup_batch : (batch first toFile).Nodup :=
  List.Nodup.of_map id (id_batch ▸ List.nodup_range')

end Handler

/-! ### A list with another one inside -/

section Encloses

variable {outer inner l : List Handler} {h : Handler}

/-- `l` is `outer` with `inner` put in as one piece. -/
def Encloses (outer inner l : List Handler) : Prop :=
  ∃ front back, outer = front ++ back ∧ l = front ++ inner ++ back

theorem Encloses.perm (e : Encloses outer inner l) : l.Perm (outer ++ inner) := by
  obtain ⟨front, back, rfl, rfl⟩ := e
  rw [List.append_assoc, List.append_assoc]
  exact List.perm_append_comm.append_left front

theorem Encloses.mem_iff (e : Encloses outer inner l) : h ∈ l ↔ h ∈ outer ∨ h ∈ inner := by
  rw [e.perm.mem_iff, List.mem_append]

theorem Encloses.concat (e : Encloses outer inner l) : Encloses (outer ++ [h]) inner (l ++ [h]) := by
  obtain ⟨front, back, rfl, rfl⟩ := e
  exact ⟨front, back ++ [h], by simp, by simp⟩

theorem Encloses.erase (e : Encloses outer inner l) (hh : h ∉ inner) :
    Encloses (outer.erase h) inner (l.erase h) := by
  obtain ⟨front, back, rfl, rfl⟩ := e
  by_cases hf : h ∈ front
  · exact ⟨front.erase h, back, List.erase_append_left back hf, by
      rw [List.append_assoc, List.erase_append_left _ hf, List.append_assoc]⟩
  · exact ⟨front, back.erase h, List.erase_append_right back hf, by
      rw [List.erase_append_right _ (by simp [hf, hh])]⟩

theorem Encloses.filter_eq_outer (e : Encloses outer inner l) {p : Handler → Bool} (ho : ∀ h ∈ outer, p h)
    (hi : ∀ h ∈ inner, p h = false) : l.filter p = outer := by
  obtain ⟨front, back, rfl, rfl⟩ := e
  have hn : inner.filter p = [] := List.filter_eq_nil_iff.mpr fun h hh => by simp [hi h hh]
  rw [List.filter_append, List.filter_append, hn, List.append_nil, ← List.filter_append]
  exact List.filter_eq_self.mpr ho

theorem Encloses.filter_eq_inner (e : Encloses outer inner l) {p : Handler → Bool}
    (ho : ∀ h ∈ outer, p h = false) (hi : ∀ h ∈ inner, p h) : l.filter p = inner := by
  obtain ⟨front, back, rfl, rfl⟩ := e
  have hf : front.filter p = [] :=
    List.filter_eq_nil_iff.mpr fun h hh => by simp [ho h (List.mem_append_left _ hh)]
  have hb : back.filter p = [] :=
    List.filter_eq_nil_iff.mpr fun h hh => by simp [ho h (List.mem_append_right _ hh)]
  rw [List.filter_append, List.filter_append, hf, hb, List.nil_append, List.append_nil]
  exact List.filter_eq_self.mpr hi

end Encloses

namespace LogTree

variable {t : LogTree} {h : Handler}

/-! ### What the operations do to the tree -/

theorem attach_of_mem (hh : h ∈ t.library.handlers) : t.attach h = t := if_pos hh

theorem attach_of_notMem (hh : h ∉ t.library.handlers) :
    t.attach h = { t with library := { t.library with handlers := t.library.handlers ++ [h] } } := if_neg hh

theorem foldl_attach {hs : List Handler} (hn : hs.Nodup) (hd : ∀ h ∈ hs, h ∉ t.library.handlers) :
    hs.foldl (fun (t : LogTree) h => t.attach h) t =
      { t with library := { t.library with handlers := t.library.handlers ++ hs } } := by
  induction hs generalizing t with
  | nil => simp
  | cons h hs ih =>
    obtain ⟨hh, hn⟩ := List.nodup_cons.mp hn
    have hd' : ∀ k ∈ hs, k ∉ t.library.handlers ++ [h] := by
      intro k hk
      have hne : k ≠ h := by rintro rfl; exact hh hk
      simpa [hne] using hd k (List.mem_cons_of_mem _ hk)
    rw [List.foldl_cons, attach_of_notMem (hd h List.mem_cons_self), ih hn hd']
    simp

/-- The loop over the handlers `ahead`: those it has `passed` were not installed and stay. -/
theorem foldl_uninstall {passed ahead : List Handler} (hp : ∀ h ∈ passed, h.installed = false)
    (ht : t.library.handlers = passed ++ ahead) :
    ahead.foldl (fun t h => if h.installed then (t.detach h).close h else t) t =
      { t with
        library := { t.library with handlers := passed ++ ahead.filter fun h => !h.installed }
        closed := (ahead.filter Handler.installed).reverse ++ t.closed } := by
  induction ahead generalizing t passed with
  | nil => simp [← ht]
  | cons h ahead ih =>
    cases hi : h.installed with
    | false =>
      have hp' : ∀ k ∈ passed ++ [h], k.installed = false := by simpa [or_imp, forall_and, hi] using hp
      simp only [List.foldl_cons, hi, Bool.false_eq_true, if_false]
      rw [ih hp' (by simpa using ht)]
      simp [hi]
    | true =>
      -- the first such handler in the list is the one at hand, as it is not among the passed ones
      have hh : h ∉ passed := fun hh => by simp [hp h hh] at hi
      have he : ((t.detach h).close h).library.handlers = passed ++ ahead := by
        simp [close, detach, ht, List.erase_append_right _ hh]
      simp only [List.foldl_cons, hi, if_true]
      rw [ih hp he]
      simp [close, detach, hi]

theorem uninstall_eq (t : LogTree) :
    t.uninstall =
      { t with
        library := { t.library with handlers := t.library.handlers.filter fun h => !h.installed }
        closed := t.installed.reverse ++ t.closed } := by
  simpa [uninstall, installed] using foldl_uninstall (t := t) (List.forall_mem_nil _) (List.nil_append _).symm

theorem reset_eq (t : LogTree) :
    t.reset =
      { t with
        library := ⟨0, t.library.handlers.filter fun h => !h.installed⟩
        closed := t.installed.reverse ++ t.closed } := by
  rw [reset, uninstall_eq]
  rfl

theorem configure_eq (level : Int) (toFile : Bool) (t : LogTree) :
    t.configure level toFile =
      { t with
        library := ⟨level, (t.library.handlers.filter fun h => !h.installed) ++ Handler.batch t.made toFile⟩
        closed := t.installed.reverse ++ t.closed
        made := t.made + (Handler.batch t.made toFile).length } := by
  have hd : ∀ h ∈ Handler.batch t.made toFile, h ∉ t.library.handlers.filter fun h => !h.installed := by
    intro h hh
    simp [Handler.installed_of_mem_batch hh]
  rw [configure, uninstall_eq]
  simp only
  rw [foldl_attach Handler.nodup_batch hd]
  rfl

/-! ### Histories -/

/-- What an application can do with the library's logger. -/
inductive Step where
  | configure (level : Int) (toFile : Bool)
  | reset
  /-- attach a handler of its own -/
  | attach (id : Nat) (kind : HandlerKind)
  /-- take a handler of its own out -/
  | detach (id : Nat) (kind : HandlerKind)
  deriving Repr, DecidableEq

def perform (t : LogTree) : Step → LogTree
  | .configure level toFile => t.configure level toFile
  | .reset => t.reset
  | .attach id kind => t.attach (.theirs id kind)
  | .detach id kind => t.detach (.theirs id kind)

/-- The tree after a history. -/
def afterAll (t : LogTree) (steps : List Step) : LogTree := steps.foldl perform t

theorem afterAll_concat (t : LogTree) (steps : List Step) (step : Step) :
    t.afterAll (steps ++ [step]) = (t.afterAll steps).perform step := by
  simp [afterAll, List.foldl_append]

theorem root_perform (t : LogTree) (step : Step) : (t.perform step).root = t.root := by
  cases step with
  | configure level toFile => rw [perform, configure_eq]
  | reset => rw [perform, reset_eq]
  | attach id kind =>
    simp only [perform, attach]
    split_ifs <;> rfl
  | detach => rfl

theorem root_afterAll (t : LogTree) (steps : List Step) : (t.afterAll steps).root = t.root := by
  induction steps using List.reverseRecOn with
  | nil => rfl
  | append_singleton steps step ih => rw [afterAll_concat, root_perform, ih]

/-- What a history lets one expect, without a logger at hand. -/
structure Expected where
  /-- the application's handlers that are still there, in the order they were attached -/
  theirs : List Handler
  /-- the handlers that each call of `configure` or `reset` made; `reset` makes none -/
  batches : List (List Handler)
  /-- what handlers the last call asked for -/
  kinds : List HandlerKind
  /-- the level of the last call; zero after `reset` -/
  level : Int
  deriving Repr, DecidableEq

namespace Expected

/-- Neither `configure` nor `reset` has a part in the application's handlers, nor has the application in what
they make, which is numbered through all calls. -/
def next (x : Expected) : Step → Expected
  | .configure level toFile =>
    { x with
      batches := x.batches ++ [Handler.batch x.batches.flatten.length toFile]
      kinds := .console :: if toFile then [.file] else []
      level }
  | .reset => { x with batches := x.batches ++ [[]], kinds := [], level := 0 }
  | .attach id kind =>
    { x with theirs := if .theirs id kind ∈ x.theirs then x.theirs else x.theirs ++ [.theirs id kind] }
  | .detach id kind => { x with theirs := x.theirs.erase (.theirs id kind) }

theorem next_attach_of_mem {x : Expected} {id : Nat} {kind : HandlerKind} (hm : .theirs id kind ∈ x.theirs) :
    x.next (.attach id kind) = x := by
  rw [next, if_pos hm]

theorem next_attach_of_notMem {x : Expected} {id : Nat} {kind : HandlerKind}
    (hm : .theirs id kind ∉ x.theirs) :
    x.next (.attach id kind) = { x with theirs := x.theirs ++ [.theirs id kind] } := by
  rw [next, if_neg hm]

/-- What is expected after a history; the handler that drops every line is there from the beginning. -/
def after (steps : List Step) : Expected := steps.foldl next ⟨[.theirs 0 .null], [], [], 0⟩

theorem after_concat (steps : List Step) (step : Step) : after (steps ++ [step]) = (after steps).next step := by
  simp [after, List.foldl_append]

/-- The handlers of the last call. -/
def current (x : Expected) : List Handler := x.batches.getLast?.getD []

/-- The handlers of all calls before the last one, in the order they were made. -/
def earlier (x : Expected) : List Handler := x.batches.dropLast.flatten

theorem earlier_append_current (x : Expected) : x.earlier ++ x.current = x.batches.flatten := by
  rcases List.eq_nil_or_concat x.batches with hx | ⟨bs, b, hx⟩ <;> simp [earlier, current, hx]

/-- No two handlers of `x` are the same, and each says who made it. -/
structure Sound (x : Expected) : Prop where
  nodup_theirs : x.theirs.Nodup
  installed_theirs : ∀ h ∈ x.theirs, h.installed = false
  id_batches : x.batches.flatten.map Handler.id = List.range x.batches.flatten.length
  installed_batches : ∀ h ∈ x.batches.flatten, h.installed = true
  kind_current : x.current.map Handler.kind = x.kinds

namespace Sound

variable {x : Expected} (hx : x.Sound)
include hx

theorem nodup_earlier_append_current : (x.earlier ++ x.current).Nodup := by
  rw [earlier_append_current]
  exact List.Nodup.of_map Handler.id (hx.id_batches ▸ List.nodup_range)

theorem installed_current : ∀ h ∈ x.current, h.installed = true := fun h hh =>
  hx.installed_batches h (earlier_append_current x ▸ List.mem_append_right _ hh)

theorem installed_earlier : ∀ h ∈ x.earlier, h.installed = true := fun h hh =>
  hx.installed_batches h (earlier_append_current x ▸ List.mem_append_left _ hh)

theorem theirs_notMem_current (id : Nat) (kind : HandlerKind) : Handler.theirs id kind ∉ x.current := by
  intro hh
  simpa [Handler.theirs] using hx.installed_current _ hh

theorem next (step : Step) : (x.next step).Sound := by
  cases step with
  | configure level toFile =>
    refine ⟨hx.nodup_theirs, hx.installed_theirs, ?_, ?_, ?_⟩
    · simp only [Expected.next, List.flatten_append, List.flatten_singleton, List.map_append, List.length_append]
      rw [hx.id_batches, Handler.id_batch, List.range_eq_range', List.range_eq_range', ← List.range'_append_1,
        Nat.zero_add]
    · simp only [Expected.next, List.flatten_append, List.flatten_singleton, List.mem_append]
      rintro h (hh | hh)
      · exact hx.installed_batches h hh
      · exact Handler.installed_of_mem_batch hh
    · simp [Expected.next, current, Handler.kind_batch]
  | reset =>
    exact ⟨hx.nodup_theirs, hx.installed_theirs, by simpa [Expected.next] using hx.id_batches,
      by simpa [Expected.next] using hx.installed_batches, by simp [Expected.next, current]⟩
  | attach id kind =>
    by_cases hm : Handler.theirs id kind ∈ x.theirs
    · rwa [next_attach_of_mem hm]
    · rw [next_attach_of_notMem hm]
      refine ⟨List.nodup_append.mpr ⟨hx.nodup_theirs, List.nodup_singleton _, fun h hh k hk => ?_⟩,
        fun h hh => ?_, hx.id_batches, hx.installed_batches, hx.kind_current⟩
      · rw [List.mem_singleton.mp hk]
        exact ne_of_mem_of_not_mem hh hm
      · rcases List.mem_append.mp hh with hh | hh
        · exact hx.installed_theirs h hh
        · rw [List.mem_singleton.mp hh, Handler.theirs]
  | detach id kind =>
    exact ⟨hx.nodup_theirs.erase _, fun h hh => hx.installed_theirs h (List.mem_of_mem_erase hh), hx.id_batches,
      hx.installed_batches, hx.kind_current⟩

end Sound

theorem sound_after (steps : List Step) : (after steps).Sound := by
  induction steps using List.reverseRecOn with
  | nil => exact ⟨by simp [after], by simp [after, Handler.theirs], rfl, by simp [after], rfl⟩
  | append_singleton steps step ih => exact after_concat steps step ▸ ih.next step

end Expected

/-! ### The tree after a history -/

/-- The tree is as expected. -/
structure Tracks (t : LogTree) (x : Expected) : Prop where
  handlers : Encloses x.theirs x.current t.library.handlers
  closed : t.closed.reverse = x.earlier
  made : t.made = x.batches.flatten.length
  level : t.library.level = x.level

namespace Tracks

variable {x : Expected} (ht : Tracks t x) (hx : x.Sound)
include ht hx

theorem filter_handlers : t.library.handlers.filter (fun h => !h.installed) = x.theirs :=
  ht.handlers.filter_eq_outer (fun h hh => by simp [hx.installed_theirs h hh])
    fun h hh => by simp [hx.installed_current h hh]

theorem installed_eq : t.installed = x.current :=
  ht.handlers.filter_eq_inner hx.installed_theirs hx.installed_current

/-- Whatever was installed last is closed by the next call, behind all that was closed before. -/
theorem reverse_closed_append : (t.installed.reverse ++ t.closed).reverse = x.batches.flatten := by
  rw [List.reverse_append, List.reverse_reverse, ht.closed, ht.installed_eq hx,
    Expected.earlier_append_current]

theorem perform (step : Step) : Tracks (t.perform step) (x.next step) := by
  have hf := ht.filter_handlers hx
  have hc := ht.reverse_closed_append hx
  cases step with
  | configure level toFile =>
    rw [LogTree.perform, configure_eq, hf]
    refine ⟨⟨x.theirs, [], by simp [Expected.next], ?_⟩, ?_, ?_, rfl⟩
    · simp [Expected.next, Expected.current, ht.made]
    · simpa [Expected.next, Expected.earlier] using hc
    · simp [Expected.next, ht.made]
  | reset =>
    rw [LogTree.perform, reset_eq, hf]
    refine ⟨⟨x.theirs, [], by simp [Expected.next], ?_⟩, ?_, ?_, rfl⟩
    · simp [Expected.next, Expected.current]
    · simpa [Expected.next, Expected.earlier] using hc
    · simp [Expected.next, ht.made]
  | attach id kind =>
    -- a handler of the application is none of the last batch, so it is attached exactly if it is expected to be
    have hiff : Handler.theirs id kind ∈ t.library.handlers ↔ Handler.theirs id kind ∈ x.theirs := by
      simp [ht.handlers.mem_iff, hx.theirs_notMem_current]
    by_cases hm : Handler.theirs id kind ∈ x.theirs
    · rwa [LogTree.perform, attach_of_mem (hiff.mpr hm), Expected.next_attach_of_mem hm]
    · rw [LogTree.perform, attach_of_notMem (mt hiff.mp hm), Expected.next_attach_of_notMem hm]
      exact ⟨ht.handlers.concat, ht.closed, ht.made, ht.level⟩
  | detach id kind =>
    exact ⟨ht.handlers.erase (hx.theirs_notMem_current id kind), ht.closed, ht.made, ht.level⟩

end Tracks

theorem tracks_afterAll (name : String) (root : Logger) (steps : List Step) :
    Tracks (afterAll { start name with root } steps) (Expected.after steps) := by
  induction steps using List.reverseRecOn with
  | nil => exact ⟨⟨[.theirs 0 .null], [], rfl, rfl⟩, rfl, rfl, rfl⟩
  | append_singleton steps step ih =>
    rw [afterAll_concat, Expected.after_concat]
    exact ih.perform (Expected.sound_after steps) step

/-- **Handlers after any history.**  The library's logger has the application's handlers that are still there, in
the order they were attached, and the handlers of the last call of `configure` or `reset` as one piece among them,
of the kinds that the call asked for; no handler is there twice.  What was closed is what all earlier calls made, in
that order; each of those handlers is out of the logger and was closed once.  The level is that of the last call,
and the root logger is as it was. -/
theorem handlers_afterAll (name : String) (root : Logger) (steps : List Step) :
    let t := afterAll { start name with root } steps
    let x := Expected.after steps
    Encloses x.theirs x.current t.library.handlers ∧ x.current.map Handler.kind = x.kinds ∧
      t.library.handlers.Nodup ∧ t.closed.reverse = x.earlier ∧
      (∀ h ∈ x.earlier, h ∉ t.library.handlers ∧ t.closed.count h = 1) ∧
      t.library.level = x.level ∧ t.root = root := by
  intro t x
  have ht : Tracks t x := tracks_afterAll name root steps
  have hx : x.Sound := Expected.sound_after steps
  obtain ⟨hearlier, hcurrent, hdisjoint⟩ := List.nodup_append.mp hx.nodup_earlier_append_current
  refine ⟨ht.handlers, hx.kind_current, ?_, ht.closed, fun h hh => ⟨?_, ?_⟩, ht.level,
    root_afterAll _ steps⟩
  · refine ht.handlers.perm.nodup_iff.mpr (List.nodup_append.mpr ⟨hx.nodup_theirs, hcurrent, ?_⟩)
    rintro a ha _ hb rfl
    exact Bool.false_ne_true ((hx.installed_theirs a ha).symm.trans (hx.installed_current a hb))
  · rw [ht.handlers.mem_iff]
    rintro (ho | hc)
    · exact Bool.false_ne_true ((hx.installed_theirs h ho).symm.trans (hx.installed_earlier h hh))
    · exact hdisjoint h hh h hc rfl
  · rw [← List.count_reverse, ht.closed]
    exact List.count_eq_one_of_mem hearlier hh

/-- What the application attaches while a console and a file are written to stays when they are replaced. -/
example :
    let t := afterAll (start "library") [.configure 20 true, .attach 7 .file, .detach 0 .null, .configure 10 false]
    t.library = ⟨10, [.theirs 7 .file, ⟨2, .console, true⟩]⟩ ∧
      t.closed = [⟨1, .file, true⟩, ⟨0, .console, true⟩] := by
  decide

end LogTree

end OrbitFit
