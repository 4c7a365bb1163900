import OrbitFit.Decimal.Shortest

/-!
# OrbitFit.Decimal.Fixed — a set number of decimal places or digits

The exact binary value is rounded once; an exact half goes to the even neighbour.  `fixed` writes a set
number of places after the point, `scientific` one digit before the point and a set number after it.
-/

namespace OrbitFit.Decimal

/-- `n / 10 ^ places` with exactly that many places. -/
def pointBefore (places n : Nat) : String :=
  let digits := toString n
  let padded := zeros (places + 1 - digits.length) ++ digits
  let whole := padded.length - places
  if places == 0 then padded
  else (padded.take whole).toString ++ "." ++ (padded.drop whole).toString

/-- A double with `places` digits after the point. -/
def fixed (places : Nat) (x : Float) : String :=
  match Binary64.read x with
  | .nan => "nan"
  | .infinite negative => if negative then "-inf" else "inf"
  | .finite negative m q =>
    (if negative then "-" else "") ++ pointBefore places (roundAt m q (-places))

/-- A double in scientific notation with `places` digits after the point. -/
def scientific (places : Nat) (x : Float) : String :=
  match Binary64.read x with
  | .nan => "nan"
  | .infinite negative => if negative then "-inf" else "inf"
  | .finite negative m q =>
    let exponent := if m == 0 then 0 else roundedExponent (places + 1) m q
    (if negative then "-" else "") ++ pointBefore places (roundAt m q (exponent - places)) ++
      exponentText exponent

end OrbitFit.Decimal
