import OrbitFit.Text.DecimalDigit

/-!
# OrbitFit.Decimal.Read — numbers read from text

Blanks around the number are ignored, digits of any script count, and one underscore may stand between two
digits.  An integer is an optional sign and digits.  A real is an optional sign before a decimal with an
optional point and exponent, or before one of the words for infinity and for the undefined value in any
letter case.  A real is rounded once to the nearest double.
-/

namespace OrbitFit.Decimal

open Text

/-- Digits of every script as those of the first, other characters unchanged. -/
def plainDigit (c : Char) : Char :=
  match decimalDigit? c with
  | some d => Nat.digitChar d
  | none => c

/-- The underscores between two digits removed; `none` if one stands elsewhere. -/
def withoutUnderscores? : List Char → Option (List Char)
  | [] => some []
  | '_' :: _ => none
  | [c] => some [c]
  | c :: '_' :: d :: rest =>
    if c.isDigit && d.isDigit then (withoutUnderscores? (d :: rest)).map (c :: ·) else none
  | c :: rest => (withoutUnderscores? rest).map (c :: ·)

/-- The characters of a number: blanks around it dropped, digits made plain, underscores removed. -/
def numeral? (text : String) : Option (List Char) :=
  withoutUnderscores? ((trimBlanks text.toList).map plainDigit)

/-- A sign in front, `true` for minus, and the rest. -/
def takeSign : List Char → Bool × List Char
  | '-' :: rest => (true, rest)
  | '+' :: rest => (false, rest)
  | rest => (false, rest)

/-- The natural that plain digits spell. -/
def ofDigits (cs : List Char) : Nat := cs.foldl (fun n c => 10 * n + (c.toNat - 48)) 0

/-- The most digits that an integer may have. -/
def digitLimit : Nat := 4300

inductive IntegerText where
  | value (n : Int)
  | tooLong (digits : Nat)
  | malformed
  deriving Repr, DecidableEq

/-- Read an integer: the longest run of digits and underscores behind the sign.  A run with too many digits is
reported as such whatever follows it. -/
def readInteger (text : String) : IntegerText :=
  let (negative, cs) := takeSign ((trimBlanks text.toList).map plainDigit)
  let inRun (c : Char) : Bool := c.isDigit || c == '_'
  match withoutUnderscores? (cs.takeWhile inRun) with
  | none | some [] => .malformed
  | some digits =>
    if digitLimit < digits.length then .tooLong digits.length
    else if cs.any fun c => !inRun c then .malformed
    else .value (if negative then -(ofDigits digits : Int) else ofDigits digits)

/-- An exponent part: absent, or a letter, an optional sign and digits. -/
def exponent? : List Char → Option Int
  | [] => some 0
  | mark :: rest =>
    let (negative, digits) := takeSign rest
    if (mark == 'e' || mark == 'E') && !digits.isEmpty && digits.all Char.isDigit then
      some (if negative then -(ofDigits digits : Int) else ofDigits digits)
    else none

/-- The double nearest to `digits * 10 ^ exponent`.  Beyond the bounds below it is infinite or zero
whatever the digits are. -/
def nearest (digits : Nat) (exponent : Int) : Float :=
  let length : Int := digits.log2 / 3 + 1
  if digits == 0 || exponent + length < -400 then 0.0
  else if 400 < exponent then 1.0 / 0.0
  else Float.ofScientific digits (exponent < 0) exponent.natAbs

def decimal? (cs : List Char) : Option Float :=
  let whole := cs.takeWhile Char.isDigit
  let afterWhole := cs.dropWhile Char.isDigit
  let (fraction, afterFraction) :=
    match afterWhole with
    | '.' :: rest => (rest.takeWhile Char.isDigit, rest.dropWhile Char.isDigit)
    | rest => ([], rest)
  if whole.isEmpty && fraction.isEmpty then none
  else (exponent? afterFraction).map fun e => nearest (ofDigits (whole ++ fraction)) (e - fraction.length)

/-- An unsigned real: a word or a decimal. -/
def magnitude? (cs : List Char) : Option Float :=
  let word := String.ofList (cs.map Char.toLower)
  if word == "inf" || word == "infinity" then some (1.0 / 0.0)
  else if word == "nan" then some (0.0 / 0.0)
  else decimal? cs

def readReal? (text : String) : Option Float := do
  let cs ← numeral? text
  let (negative, rest) := takeSign cs
  let x ← magnitude? rest
  return if negative then -x else x

end OrbitFit.Decimal
