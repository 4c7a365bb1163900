import OrbitFit.Bisection
import OrbitFit.Fault

/-!
# OrbitFit.EarthOrientation — daily Earth orientation and its interpolation

A history holds one entry for each of its dates, in strictly ascending order and never none.  Between two
entries every quantity is interpolated linearly; at an entry it is the recorded one; outside the covered
span there is no value.
-/

namespace OrbitFit

/-- The orientation of the Earth at one date. -/
structure OrientationEntry (α : Type) where
  /-- the Modified Julian Date, in UTC -/
  mjd : α
  /-- UT1 minus UTC in seconds -/
  ut1MinusUtc : α
  /-- the excess length of the day in seconds -/
  excessDay : α
  /-- the position of the pole in radians -/
  xPole : α
  yPole : α
  /-- the corrections of nutation in longitude and in obliquity, in radians -/
  nutationLongitude : α
  nutationObliquity : α
  deriving Repr, Inhabited

namespace OrientationEntry

variable {α : Type}

def toList (e : OrientationEntry α) : List α :=
  [e.mjd, e.ut1MinusUtc, e.excessDay, e.xPole, e.yPole, e.nutationLongitude, e.nutationObliquity]

/-- The entry of a row of five to seven numbers; corrections of nutation left out are zero. -/
def ofRow [Zero α] : List α → Except (Fault α) (OrientationEntry α)
  | [t, u, l, x, y] => .ok ⟨t, u, l, x, y, 0, 0⟩
  | [t, u, l, x, y, p] => .ok ⟨t, u, l, x, y, p, 0⟩
  | [t, u, l, x, y, p, o] => .ok ⟨t, u, l, x, y, p, o⟩
  | row => .error (.rowWidth row.length)

end OrientationEntry

/-- Entries in ascending order of date, the first one apart. -/
structure OrientationHistory (α : Type) where
  first : OrientationEntry α
  rest : List (OrientationEntry α)
  deriving Repr, Inhabited

namespace OrientationHistory

variable {α : Type}

/-- All entries, in ascending order of date. -/
def entries (h : OrientationHistory α) : List (OrientationEntry α) := h.first :: h.rest

def last (h : OrientationHistory α) : OrientationEntry α := h.rest.getLast?.getD h.first

variable [Scalar α]

/-- The date of the later of two neighbours with one date, if there are such. -/
def repeatedDate? : List (OrientationEntry α) → Option α
  | e :: f :: rest => if f.mjd - e.mjd == 0 then some f.mjd else repeatedDate? (f :: rest)
  | _ => none

/-- The entries in front, none of which is before the one ahead of it, and the others. -/
def ascendingFront : List (OrientationEntry α) → List (OrientationEntry α) × List (OrientationEntry α)
  | e :: f :: rest =>
    if f.mjd < e.mjd then ([e], f :: rest)
    else
      let (front, others) := ascendingFront (f :: rest)
      (e :: front, others)
  | few => (few, [])

/-- Entries in ascending order with one more, behind those that are not after it. -/
def insertEntry (sorted : List (OrientationEntry α)) (e : OrientationEntry α) : List (OrientationEntry α) :=
  sorted.insertIdx (turningPlace (fun f => !decide (e.mjd < f.mjd)) sorted 0 sorted.length) e

/-- Entries in ascending order of date: those in front that ascend already, and each of the others inserted. -/
def sortEntries (entries : List (OrientationEntry α)) : List (OrientationEntry α) :=
  let (front, others) := ascendingFront entries
  others.foldl insertEntry front

/-- The history of a list of entries in any order. -/
def ofEntries (entries : List (OrientationEntry α)) : Except (Fault α) (OrientationHistory α) :=
  match sortEntries entries with
  | [] => .error .emptyHistory
  | first :: rest =>
    match repeatedDate? (first :: rest) with
    | some mjd => .error (.duplicateDate mjd)
    | none => .ok ⟨first, rest⟩

def ofRows (rows : List (List α)) : Except (Fault α) (OrientationHistory α) := do
  ofEntries (← rows.mapM OrientationEntry.ofRow)

/-- The date lies in the covered span, ends included. -/
def covers (h : OrientationHistory α) (mjd : α) : Bool := h.first.mjd ≤ mjd && mjd ≤ h.last.mjd

/-- The entry recorded at a date: the first one not before it, if it is of that date. -/
def entryAt (h : OrientationHistory α) (mjd : α) : Except (Fault α) (OrientationEntry α) :=
  let place := turningPlace (fun e : OrientationEntry α => e.mjd < mjd) h.entries 0 h.entries.length
  match h.entries[place]? with
  | some e => if e.mjd == mjd then .ok e else .error (.noEntry mjd)
  | none => .error (.noEntry mjd)

/-- The place behind the last entry not after a covered date.  Few entries are passed one by one; of many,
the three behind the first are looked at before the others are halved. -/
def placeBehind (entries : List (OrientationEntry α)) (mjd : α) : Nat :=
  let reached (e : OrientationEntry α) : Bool := e.mjd ≤ mjd
  let isAfter (i : Nat) : Bool := entries[i]?.any fun e => mjd < e.mjd
  let count := entries.length
  if count ≤ 4 then 1 + (entries.tail.takeWhile reached).length
  else
    match [1, 2, 3].find? isAfter with
    | some i => i
    | none => turningPlace reached entries 3 (if 10 < count && isAfter 9 then 9 else count)

/-- The last entry not after a covered date, and the entry behind it. -/
def bracket (h : OrientationHistory α) (mjd : α) : OrientationEntry α × Option (OrientationEntry α) :=
  let place := placeBehind h.entries mjd
  (h.entries[place - 1]?.getD h.first, h.entries[place]?)

/-- The value at `x` of the line through two points.  Where the line from the left point has no value the
one from the right point is taken. -/
def onLine (x x₀ y₀ x₁ y₁ : α) : α :=
  let slope := (y₁ - y₀) / (x₁ - x₀)
  let fromLeft := slope * (x - x₀) + y₀
  if fromLeft == fromLeft then fromLeft
  else
    let fromRight := slope * (x - x₁) + y₁
    if fromRight == fromRight then fromRight else if y₀ == y₁ then y₀ else fromRight

/-- A field at a covered date. -/
def interpolate (h : OrientationHistory α) (field : OrientationEntry α → α) (mjd : α) :
    Except (Fault α) α :=
  if h.covers mjd then
    match h.bracket mjd with
    | (e, none) => .ok (field e)
    | (e, some f) =>
      .ok (if e.mjd == mjd then field e else onLine mjd e.mjd (field e) f.mjd (field f))
  else .error (.outsideHistory mjd h.first.mjd h.last.mjd)

def ut1MinusUtc (h : OrientationHistory α) (mjd : α) : Except (Fault α) α :=
  h.interpolate OrientationEntry.ut1MinusUtc mjd

/-- The excess length of the day in seconds. -/
def excessDay (h : OrientationHistory α) (mjd : α) : Except (Fault α) α :=
  h.interpolate OrientationEntry.excessDay mjd

/-- The position of the pole in radians. -/
def pole (h : OrientationHistory α) (mjd : α) : Except (Fault α) (α × α) := do
  return (← h.interpolate OrientationEntry.xPole mjd, ← h.interpolate OrientationEntry.yPole mjd)

/-- The corrections of nutation in radians. -/
def nutation (h : OrientationHistory α) (mjd : α) : Except (Fault α) (α × α) := do
  return (← h.interpolate OrientationEntry.nutationLongitude mjd,
    ← h.interpolate OrientationEntry.nutationObliquity mjd)

end OrientationHistory

end OrbitFit
