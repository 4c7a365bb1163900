import OrbitFit.NdArray

/-!
# OrbitFit.Parameter — named values that a fit may adjust

A parameter has a name, a row of numbers and a flag that tells whether a fit may adjust it.  The length of
the row never changes.  Parameters are compared and sorted by their names alone.
-/

namespace OrbitFit

structure Parameter (α : Type) where
  name : String
  value : List α
  estimated : Bool
  deriving Repr, Inhabited

namespace Parameter

variable {α : Type}

/-- A parameter of one number, not adjusted. -/
def ofNumber (name : String) (x : α) : Parameter α := ⟨name, [x], false⟩

/-- A parameter of an array that is a row or a single number. -/
def ofArray (name : String) (value : NdArray α) (estimated : Bool) :
    Except (Fault α) (Parameter α) :=
  if value.atLeastRow.shape.length == 1 then .ok ⟨name, value.data, estimated⟩
  else .error (.parameterRank name)

def dimension (p : Parameter α) : Nat := p.value.length

def first (p : Parameter α) : Except (Fault α) α :=
  match p.value with
  | x :: _ => .ok x
  | [] => .error .indexOutOfRange

/-- The parameter with another row of the same length. -/
def assign (p : Parameter α) (value : NdArray α) : Except (Fault α) (Parameter α) :=
  let row := value.atLeastRow
  if row.shape == [p.dimension] then .ok { p with value := row.data }
  else .error (.parameterShape p.name p.dimension row.shape)

/-- Parameters by name, those of one name in their order. -/
def sortByName (ps : List (Parameter α)) : List (Parameter α) :=
  ps.mergeSort fun p q => !decide (q.name < p.name)

/-- The names that occur, ascending, each once. -/
def distinctNames (ps : List (Parameter α)) : List String :=
  (sortByName ps).foldr (fun p names => if names.head? == some p.name then names else p.name :: names) []

/-- A parameter as one line of text. -/
def describe (p : Parameter Float) : String :=
  "Parameter(" ++ Text.quoted p.name ++ ", " ++ Decimal.renderList p.value ++ ", " ++
    (if p.estimated then "estimated" else "fixed") ++ ")"

end Parameter

end OrbitFit
