import OrbitFit.Decimal.Round

/-!
# OrbitFit.Decimal.Group — values rounded at one common place

A table of results is comparable when all its entries are cut at the same decimal place.  The entry of
largest magnitude keeps a set number of significant digits; that fixes the place for all of them.  Each
entry is then the nearest multiple of `10 ^ place`, an exact half going to the even multiple.
-/

namespace OrbitFit.Decimal

/-- The greater of two magnitudes `m * 2 ^ q`. -/
def greater (a b : Nat × Int) : Nat × Int :=
  let low := min a.2 b.2
  if a.1 * powerOfTwo (a.2 - low).toNat < b.1 * powerOfTwo (b.2 - low).toNat then b else a

/-- The largest finite magnitude among the members, `(0, 0)` without one. -/
def largest (xs : List Float) : Nat × Int :=
  xs.foldl (fun best x =>
    match Binary64.read x with
    | .finite _ m q => greater best (m, q)
    | _ => best) (0, 0)

/-- The place at which a group is rounded: the largest member keeps `digits` significant digits. -/
def commonPlace (digits : Nat) (xs : List Float) : Int :=
  match largest xs with
  | (0, _) => 0
  | (m, q) => roundedExponent digits m q - digits + 1

/-- One member at a place: the count of units and the place, `0` alone when it rounds away. -/
def atPlace (place : Int) (x : Float) : String :=
  match Binary64.read x with
  | .nan => "nan"
  | .infinite negative => if negative then "-inf" else "inf"
  | .finite negative m q =>
    match roundAt m q place with
    | 0 => "0"
    | n => (if negative then "-" else "") ++ toString n ++ "e" ++ toString place

/-- All members at their common place. -/
def group (digits : Nat) (xs : List Float) : List String :=
  let place := commonPlace digits xs
  xs.map (atPlace place)

/-- A group of one. -/
def alone (digits : Nat) (x : Float) : String := atPlace (commonPlace digits [x]) x

/-- Seventeen digits of a value on its own identify the double. -/
def exact (x : Float) : String := alone 17 x

/-- Members cut where they would be if `1` were one of them. -/
def groupWithUnit (digits : Nat) (xs : List Float) : List String :=
  xs.map (atPlace (commonPlace digits (1.0 :: xs)))

/-- Each three consecutive members form a group. -/
def triples (digits : Nat) : List Float → List String
  | x :: y :: z :: rest => group digits [x, y, z] ++ triples digits rest
  | rest => group digits rest

end OrbitFit.Decimal
