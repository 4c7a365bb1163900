import OrbitFit.Binary64

/-!
# OrbitFit.Scalar — the numbers that orbits are computed with

Every formula of the library is written once, for any `Scalar`: the four operations, order, the elementary
functions, and the passage from and to the integers.  Doubles are the instance that programs run on.  A
field with exact elementary functions is another, and a statement about exact arithmetic is a statement
about the same definitions at that instance.

Comparisons and `==` are those of the instance: on doubles the undefined value is neither below, equal to
nor above anything.
-/

namespace OrbitFit

/-- Numbers with order, elementary functions and a passage from and to the integers. -/
class Scalar (α : Type) extends Add α, Sub α, Mul α, Div α, Neg α, Zero α, One α, OfScientific α,
    LT α, LE α, BEq α where
  decLt : DecidableLT α
  decLe : DecidableLE α
  /-- The number nearest to `n / d`, infinite beyond the range of the type. -/
  ratio (n d : Int) : α
  /-- A finite number with its fraction dropped. -/
  trunc : α → Int
  abs : α → α
  sqrt : α → α
  exp : α → α
  sin : α → α
  cos : α → α
  acos : α → α
  /-- The angle of the point `(x, y)`, called with `y` first. -/
  atan2 (y x : α) : α
  pow : α → Nat → α
  /-- The remainder with the sign of the divisor. -/
  floorMod : α → α → α
  pi : α
  infinity : α
  isFinite : α → Bool

namespace Scalar

-- a type with operations of its own is computed with by those
attribute [instance (low)] toAdd toSub toMul toDiv toNeg toZero toOne toOfScientific toLT toLE toBEq

instance (priority := low) {α : Type} [Scalar α] : DecidableLT α := decLt

instance (priority := low) {α : Type} [Scalar α] : DecidableLE α := decLe

variable {α : Type} [Scalar α]

def ofInt (n : Int) : α := ratio n 1

def ofNat (n : Nat) : α := ratio n 1

/-- `1`, `-1` or `0` with the sign of the number; a number that compares with nothing stays itself. -/
def sign (x : α) : α :=
  if 0 < x then 1 else if x < 0 then -1 else if x == 0 then 0 else x

/-- The number moved into the interval from `low` to `high`. -/
def clamp (low high x : α) : α := if x < low then low else if high < x then high else x

/-- The greater of two numbers; the undefined value gives way to any other. -/
def maximum (x y : α) : α := if x < y then y else if x == x then x else y

/-- The smaller of two numbers; the undefined value gives way to any other. -/
def minimum (x y : α) : α := if y < x then y else if x == x then x else y

/-- The sum from the left. -/
def sum (xs : List α) : α := xs.foldl (· + ·) 0

/-- The sum of products of entries at equal places, from the left. -/
def dot (xs ys : List α) : α := (xs.zip ys).foldl (fun total p => total + p.1 * p.2) 0

end Scalar

instance : Scalar Float where
  zero := 0.0
  one := 1.0
  decLt := Float.decLt
  decLe := Float.decLe
  ratio := Binary64.ratio
  trunc := Binary64.trunc
  abs := Float.abs
  sqrt := Float.sqrt
  exp := Float.exp
  sin := Float.sin
  cos := Float.cos
  acos := Float.acos
  atan2 := Float.atan2
  pow x n := x.pow (Float.ofNat n)
  floorMod := Binary64.floorMod
  pi := 3.141592653589793
  infinity := 1.0 / 0.0
  isFinite := Float.isFinite

end OrbitFit
