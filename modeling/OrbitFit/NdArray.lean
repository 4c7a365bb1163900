import OrbitFit.Fault

/-!
# OrbitFit.NdArray — numbers in a rectangular arrangement

An array has a shape, the list of its extents, and its numbers in row-major order; a single number has the
empty shape.  `ofNested` reads the shape off nested lists and refuses lists that are not rectangular.
-/

namespace OrbitFit

/-- A number, or a list of such arrangements. -/
inductive Nested (α : Type) where
  | leaf (x : α)
  | row (parts : List (Nested α))
  deriving Inhabited

/-- The longest list that both lists start with. -/
def commonPrefix : List Nat → List Nat → List Nat
  | n :: ns, m :: ms => if n = m then n :: commonPrefix ns ms else []
  | _, _ => []

namespace Nested

variable {α : Type}

mutual

/-- The extents that all parts share, outermost first. -/
def shape : Nested α → List Nat
  | .leaf _ => []
  | .row parts => parts.length :: sharedShape parts

/-- The extents shared by the parts of a row. -/
def sharedShape : List (Nested α) → List Nat
  | [] => []
  | [part] => part.shape
  | part :: parts => commonPrefix part.shape (sharedShape parts)

end

mutual

def flatten : Nested α → List α
  | .leaf x => [x]
  | .row parts => flattenParts parts

/-- The numbers of the parts of a row in order. -/
def flattenParts : List (Nested α) → List α
  | [] => []
  | part :: parts => part.flatten ++ flattenParts parts

end

mutual

/-- All parts of every row have the same shape. -/
def isRectangular : Nested α → Bool
  | .leaf _ => true
  | .row parts => partsAlike parts

/-- The parts of a row are rectangular and of one shape. -/
def partsAlike : List (Nested α) → Bool
  | [] => true
  | part :: parts =>
    part.isRectangular && partsAlike parts &&
      (match parts with
       | [] => true
       | next :: _ => part.shape == next.shape)

end

end Nested

/-- The number of entries of an array with the given extents. -/
def entryCount : List Nat → Nat
  | [] => 1
  | n :: ns => n * entryCount ns

structure NdArray (α : Type) where
  shape : List Nat
  data : List α
  length_data : data.length = entryCount shape

namespace NdArray

variable {α β : Type}

instance : Inhabited (NdArray α) := ⟨⟨[0], [], by simp [entryCount]⟩⟩

def ofScalar (x : α) : NdArray α := ⟨[], [x], rfl⟩

def ofList (xs : List α) : NdArray α := ⟨[xs.length], xs, by simp [entryCount]⟩

@[simp] theorem shape_ofList (xs : List α) : (ofList xs).shape = [xs.length] := rfl

@[simp] theorem data_ofList (xs : List α) : (ofList xs).data = xs := rfl

/-- The most extents that an array may have. -/
def extentLimit : Nat := 64

/-- The arrangement of nested lists, if it is rectangular and not nested too deeply. -/
def ofNested (nested : Nested α) : Except (Fault α) (NdArray α) :=
  let shape := nested.shape
  let data := nested.flatten
  if extentLimit < shape.length then .error .tooManyExtents
  else if h : nested.isRectangular = true ∧ data.length = entryCount shape then .ok ⟨shape, data, h.2⟩
  else if shape.length = extentLimit then .error .tooManyExtents
  else .error (.raggedArray shape)

/-- Values arranged by extents; values that do not fill them stay in a row. -/
def arrange (extents : List Nat) (values : List α) : NdArray α :=
  if h : values.length = entryCount extents then ⟨extents, values, h⟩ else ofList values

def size (a : NdArray α) : Nat := a.data.length

/-- A single number as a row of one; any other array is unchanged. -/
def atLeastRow (a : NdArray α) : NdArray α :=
  match h : a.shape with
  | [] => ⟨[1], a.data, by rw [a.length_data, h]; rfl⟩
  | _ => a

/-- The same arrangement with every entry replaced. -/
def map (f : α → β) (a : NdArray α) : NdArray β :=
  ⟨a.shape, a.data.map f, by rw [List.length_map, a.length_data]⟩

@[simp] theorem shape_map (f : α → β) (a : NdArray α) : (a.map f).shape = a.shape := rfl

@[simp] theorem data_map (f : α → β) (a : NdArray α) : (a.map f).data = a.data.map f := rfl

/-- A row holds as many numbers as its only extent says. -/
theorem length_data_of_row {a : NdArray α} {n : Nat} (h : a.shape = [n]) : a.data.length = n := by
  rw [a.length_data, h]; simp [entryCount]

end NdArray

end OrbitFit
