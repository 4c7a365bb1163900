import OrbitFit.Decimal.Round

/-!
# OrbitFit.Decimal.Shortest — the fewest digits that identify a double

`shortest` selects, among all decimals that round to a given double, one with the fewest digits and, of
those, the nearest; two equally near ones are decided for the even digit.  `render` lays the digits out:
positionally while the leading digit stands at one of the places `10 ^ (-4)` to `10 ^ 15`, otherwise with
a signed exponent of at least two digits.  A whole number keeps its `.0`.
-/

namespace OrbitFit.Decimal

/-- The value `digits * 10 ^ exponent`. -/
structure Scaled where
  digits : Nat
  exponent : Int
  deriving Repr, DecidableEq, Inhabited

/-- Compare `a * 10 ^ i` with `n * 2 ^ j`. -/
def compareScaled (a : Nat) (i : Int) (n : Nat) (j : Int) : Ordering :=
  compare (a * powerOfTen i.toNat * powerOfTwo (-j).toNat) (n * powerOfTwo j.toNat * powerOfTen (-i).toNat)

/-- The decimal lies among the reals that round to `m * 2 ^ q`: the half-way points to the neighbours bound
them, and belong to them when `m` is even.  Below a power of two the lower gap is half as wide. -/
def identifies (m : Nat) (q : Int) (d : Scaled) : Bool :=
  let narrow := m == powerOfTwo 52 && q != -1074
  let low := if narrow then 4 * m - 1 else 4 * m - 2
  let even := m % 2 == 0
  let fromLow := compareScaled d.digits d.exponent low (q - 2)
  let toHigh := compareScaled d.digits d.exponent (4 * m + 2) (q - 2)
  (fromLow == .gt || (even && fromLow == .eq)) && (toHigh == .lt || (even && toHigh == .eq))

/-- The neighbour of `m * 2 ^ q` on the grid `10 ^ place` that identifies it, the nearer one if both do. -/
def onGrid? (m : Nat) (q place : Int) : Option Scaled :=
  let num := Binary64.scaleNumerator m q * powerOfTen (-place).toNat
  let den := Binary64.scaleDenominator q * powerOfTen place.toNat
  let floor : Scaled := ⟨num / den, place⟩
  let ceiling : Scaled := ⟨num / den + 1, place⟩
  match identifies m q floor, identifies m q ceiling with
  | true, true => some ⟨roundDiv num den, place⟩
  | true, false => some floor
  | false, true => some ceiling
  | false, false => none

/-- Trailing zeros of the digits moved into the exponent, at most `fuel` of them. -/
def stripZeros : Nat → Scaled → Scaled
  | 0, d => d
  | fuel + 1, d =>
    if d.digits % 10 == 0 && d.digits != 0 then stripZeros fuel ⟨d.digits / 10, d.exponent + 1⟩ else d

/-- The shortest decimal that identifies `m * 2 ^ q`, for a positive `m`. -/
def shortest (m : Nat) (q : Int) : Scaled :=
  let k := decadeAbove m q
  let found := (List.range 17).findSome? fun (n : Nat) => onGrid? m q (k - ((n : Int) + 1))
  stripZeros 400 (found.getD ⟨roundAt m q (k - 17), k - 17⟩)

/-- `n` as a signed exponent of at least two digits. -/
def exponentText (n : Int) : String :=
  let digits := toString n.natAbs
  (if n < 0 then "e-" else "e+") ++ (if digits.length < 2 then "0" ++ digits else digits)

def zeros (count : Nat) : String := String.ofList (List.replicate count '0')

/-- The digits of a positive decimal laid out: positional near one, scientific elsewhere. -/
def layout (d : Scaled) : String :=
  let digits := toString d.digits
  let lead : Int := d.exponent + digits.length - 1
  if -4 ≤ lead && lead < 16 then
    if 0 ≤ d.exponent then digits ++ zeros d.exponent.toNat ++ ".0"
    else if 0 ≤ lead then
      let whole := (lead + 1).toNat
      (digits.take whole).toString ++ "." ++ (digits.drop whole).toString
    else "0." ++ zeros (-lead - 1).toNat ++ digits
  else
    let fraction := (digits.drop 1).toString
    (digits.take 1).toString ++ (if fraction.isEmpty then "" else "." ++ fraction) ++ exponentText lead

/-- A double in the fewest digits that identify it. -/
def render (x : Float) : String :=
  match Binary64.read x with
  | .nan => "nan"
  | .infinite negative => if negative then "-inf" else "inf"
  | .finite negative m q =>
    (if negative then "-" else "") ++ (if m == 0 then "0.0" else layout (shortest m q))

/-- A list of doubles between brackets. -/
def renderList (xs : List Float) : String := "[" ++ String.intercalate ", " (xs.map render) ++ "]"

end OrbitFit.Decimal
