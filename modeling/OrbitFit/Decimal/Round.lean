import OrbitFit.Binary64

/-!
# OrbitFit.Decimal.Round — exact decimal rounding of a double

A finite double is a fraction of two naturals.  Everything that is printed starts from that fraction:
`roundDiv` rounds a quotient to the nearest natural, an exact half going to the even neighbour, and
`decadeAbove` finds the power of ten just above a value.
-/

namespace OrbitFit.Decimal

def powerOfTen (n : Nat) : Nat := Nat.pow 10 n

/-- The natural nearest to `num / den`; an exact half goes to the even neighbour. -/
def roundDiv (num den : Nat) : Nat :=
  let q := num / den
  let r := num % den
  match compare (2 * r) den with
  | .lt => q
  | .gt => q + 1
  | .eq => if q % 2 == 0 then q else q + 1

/-- The least `k` with `m * 2 ^ q < 10 ^ k`, for a positive `m`.  The binary logarithm brackets it
between two guesses. -/
def decadeAbove (m : Nat) (q : Int) : Int :=
  let num := Binary64.scaleNumerator m q
  let den := Binary64.scaleDenominator q
  let guess := ((m.log2 : Int) + q) * 30103 / 100000 - 1
  let below (k : Int) : Bool := num * powerOfTen (-k).toNat < den * powerOfTen k.toNat
  if below guess then guess
  else if below (guess + 1) then guess + 1
  else if below (guess + 2) then guess + 2
  else guess + 3

/-- `m * 2 ^ q / 10 ^ place`, rounded to a natural. -/
def roundAt (m : Nat) (q place : Int) : Nat :=
  roundDiv (Binary64.scaleNumerator m q * powerOfTen (-place).toNat)
    (Binary64.scaleDenominator q * powerOfTen place.toNat)

/-- The decimal exponent that `m * 2 ^ q` has once it is rounded to `digits` significant digits: rounding
can carry into the next decade. -/
def roundedExponent (digits m : Nat) (q : Int) : Int :=
  let k := decadeAbove m q
  if roundAt m q (k - digits) < powerOfTen digits then k - 1 else k

end OrbitFit.Decimal
