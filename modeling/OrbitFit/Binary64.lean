/-!
# OrbitFit.Binary64 — what the bits of a double stand for

A finite double is `± mantissa * 2 ^ exponent`.  `read` takes the bits apart; the operations below it are
the exact ones that a hardware operation does not offer: truncation to an integer, the quotient of two
integers rounded once, and the remainder that takes the sign of the divisor.
-/

namespace OrbitFit

/-- What the bits of a double stand for. -/
inductive Binary64 where
  | nan
  | infinite (negative : Bool)
  /-- The value `± mantissa * 2 ^ exponent`; zero has mantissa `0` and keeps its sign. -/
  | finite (negative : Bool) (mantissa : Nat) (exponent : Int)
  deriving Repr, DecidableEq, Inhabited

def powerOfTwo (n : Nat) : Nat := Nat.pow 2 n

namespace Binary64

/-- The fields of a double: sign, eleven bits of exponent, fifty-two bits of fraction. -/
def read (x : Float) : Binary64 :=
  let bits : Nat := x.toBits.toNat
  let negative := bits / powerOfTwo 63 == 1
  let biased : Nat := bits / powerOfTwo 52 % powerOfTwo 11
  let fraction : Nat := bits % powerOfTwo 52
  if biased == 2047 then
    if fraction == 0 then .infinite negative else .nan
  else if biased == 0 then .finite negative fraction (-1074)
  else .finite negative (powerOfTwo 52 + fraction) ((biased : Int) - 1075)

/-- The numerator of `mantissa * 2 ^ exponent` over `scaleDenominator exponent`. -/
def scaleNumerator (mantissa : Nat) (exponent : Int) : Nat := mantissa * powerOfTwo exponent.toNat

/-- The denominator that goes with `scaleNumerator`. -/
def scaleDenominator (exponent : Int) : Nat := powerOfTwo (-exponent).toNat

/-- The integer part of a finite double, the fraction dropped; `0` for any other. -/
def trunc (x : Float) : Int :=
  match read x with
  | .finite negative m q =>
    let n : Int := scaleNumerator m q / scaleDenominator q
    if negative then -n else n
  | _ => 0

/-- `n / d` rounded once to a double.  The quotient is cut where it has at least 56 bits, or half a step below
the smallest double, and a last bit is set when the cut leaves a remainder. -/
def ratio (n d : Int) : Float :=
  let num := n.natAbs
  let den := d.natAbs
  let places : Int := min 1075 (56 + (den.log2 : Int) - num.log2)
  let scaled := num <<< places.toNat
  let step := den <<< (-places).toNat
  let quotient := scaled / step
  let sticky := if scaled % step == 0 then quotient * 2 else quotient * 2 + 1
  let magnitude := (Float.ofNat sticky).scaleB (-(places + 1))
  if (n < 0) != (d < 0) then -magnitude else magnitude

/-- The sign bit of a double is set. -/
def signBit (x : Float) : Bool := x.toBits.toNat / powerOfTwo 63 == 1

/-- The remainder of the division truncated toward zero, exact: it has the sign of the dividend. -/
def remainder (x y : Float) : Float :=
  match read x, read y with
  | .finite negative m q, .finite _ m' q' =>
    if m' == 0 then 0.0 / 0.0
    else
      let low := min q q'
      let r := (m * powerOfTwo (q - low).toNat) % (m' * powerOfTwo (q' - low).toNat)
      let magnitude := (Float.ofNat r).scaleB low
      if negative then -magnitude else magnitude
  | .finite .., .infinite _ => x
  | _, _ => 0.0 / 0.0

/-- The remainder of the division rounded to the floor: it has the sign of the divisor. -/
def floorMod (x y : Float) : Float :=
  let r := remainder x y
  if r == 0 then
    if signBit y then -0.0 else 0.0
  else if (y < 0) != (r < 0) && !r.isNaN then r + y
  else r

end Binary64

end OrbitFit
