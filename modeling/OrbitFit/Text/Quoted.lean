import OrbitFit.Text.Printable

/-!
# OrbitFit.Text.Quoted — text between quotes, on one line

Single quotes enclose the text, or double quotes when it holds a single quote and no double quote.  The
enclosing quote and the backslash are escaped by a backslash, tab, newline and carriage return have names,
and every other character that is not printable is written by its code point in two, four or eight
hexadecimal digits.
-/

namespace OrbitFit.Text

/-- The lowest `count` hexadecimal digits of a number. -/
def hexDigits (count n : Nat) : List Char :=
  (List.range count).reverse.map fun place => Nat.digitChar (n / Nat.pow 16 place % 16)

/-- A character inside quotes of the given kind. -/
def escape (quote c : Char) : List Char :=
  if c == quote || c == '\\' then ['\\', c]
  else if c == '\t' then ['\\', 't']
  else if c == '\n' then ['\\', 'n']
  else if c == '\r' then ['\\', 'r']
  else if isPrintable c then [c]
  else if c.toNat < 0x100 then '\\' :: 'x' :: hexDigits 2 c.toNat
  else if c.toNat < 0x10000 then '\\' :: 'u' :: hexDigits 4 c.toNat
  else '\\' :: 'U' :: hexDigits 8 c.toNat

/-- The quote that encloses a text: single, unless only single ones occur in it. -/
def quoteFor (cs : List Char) : Char :=
  if cs.contains '\'' && !cs.contains '"' then '"' else '\''

def quoted (text : String) : String :=
  let cs := text.toList
  let quote := quoteFor cs
  String.ofList (quote :: cs.flatMap (escape quote) ++ [quote])

def quotedList (texts : List String) : String :=
  "[" ++ String.intercalate ", " (texts.map quoted) ++ "]"

/-- Numbers between parentheses; one alone keeps a comma behind it. -/
def tuple : List Nat → String
  | [n] => "(" ++ toString n ++ ",)"
  | ns => "(" ++ String.intercalate ", " (ns.map toString) ++ ")"

/-- Naturals in round brackets without a blank between them. -/
def denseTuple : List Nat → String
  | [n] => tuple [n]
  | ns => "(" ++ String.intercalate "," (ns.map toString) ++ ")"

end OrbitFit.Text
