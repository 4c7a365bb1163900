import OrbitFit.NdArray.Broadcast
import OrbitFit.Vec3

/-!
# OrbitFit.NdArray.Product — products of arrays

An array holds the rows along its last extent, and the columns along the extent before it; a row of numbers
is its own only column.  Inner products run over the rows of one array and the columns of another, the
vector product over rows of two or three entries.
-/

namespace OrbitFit

namespace NdArray

variable {α : Type}

/-- Consecutive parts of equal length. -/
def parts {β : Type} (length : Nat) : (count : Nat) → List β → List (List β)
  | 0, _ => []
  | count + 1, entries => entries.take length :: parts length count (entries.drop length)

/-- The shape without its last extent. -/
def batch (a : NdArray α) : List Nat := a.shape.dropLast

def width (a : NdArray α) : Nat := a.shape.getLast?.getD 1

/-- The rows along the last extent. -/
def rows (a : NdArray α) : List (List α) := parts a.width (entryCount a.batch) a.data

/-- The extent along which columns run, by its place. -/
def columnPlace (a : NdArray α) : Nat := a.shape.length - 2

def height (a : NdArray α) : Nat := a.shape.getD a.columnPlace 1

/-- The shape without the extent along which columns run. -/
def columnBatch (a : NdArray α) : List Nat := a.shape.eraseIdx a.columnPlace

/-- The columns of a part with rows of a length. -/
def columnsOfRows (width : Nat) (rows : List (List α)) : List (List α) :=
  (List.range width).map fun j => rows.filterMap fun row => row[j]?

/-- The columns of each of the matrices that an array consists of. -/
def matrices (a : NdArray α) : List (List (List α)) :=
  match a.shape with
  | [] => []
  | [_] => [[a.data]]
  | _ =>
    (parts a.height (entryCount (a.batch.dropLast)) a.rows).map (columnsOfRows a.width)

/-- The entry of an array along its first extent, with the extents left. -/
def entry? (a : NdArray α) (i : Nat) : Option (NdArray α) :=
  match a.shape with
  | n :: extents =>
    let size := entryCount extents
    if i < n then some (arrange extents ((a.data.drop (i * size)).take size)) else none
  | [] => none

variable [Scalar α]

/-- The root of the sum of squares. -/
def magnitude (a : NdArray α) : α := Scalar.sqrt (Scalar.dot a.data a.data)

def isFinite (a : NdArray α) : Bool := a.data.all Scalar.isFinite

/-- The inner products of all rows of one array with all columns of another. -/
def innerProducts (a b : NdArray α) : NdArray α :=
  arrange (a.batch ++ b.columnBatch)
    (a.rows.flatMap fun row => b.matrices.flatten.map fun column => Scalar.dot row column)

/-- The inner products of rows and columns, which have to be of one length. -/
def dot (a b : NdArray α) : Except (Fault α) (NdArray α) :=
  if a.width = b.height then .ok (innerProducts a b)
  else .error (.alignment a.shape b.shape (a.shape.length - 1) b.columnPlace)

/-- The inner products of the rows of an array with one vector. -/
def timesVector (a : NdArray α) (vector : List α) : Except (Fault α) (NdArray α) :=
  if a.shape.isEmpty then .error (.operandRank 0)
  else if a.width = vector.length then .ok (innerProducts a (ofList vector))
  else .error (.operandSize vector.length a.width)

/-- The vector product of rows of two or three entries; a third entry that is left out is zero, and of two
rows without it only the third component is kept. -/
def crossRows : List α → List α → List α
  | [a, b], [d, e] => [a * e - b * d]
  | [a, b], [d, e, f] => [b * f, -(a * f), a * e - b * d]
  | [a, b, c], [d, e] => [-(c * e), c * d, a * e - b * d]
  | [a, b, c], [d, e, f] => [b * f - c * e, c * d - a * f, a * e - b * d]
  | _, _ => []

/-- The vector products of the rows of two arrays. -/
def cross (a b : NdArray α) : Except (Fault α) (NdArray α) :=
  if a.shape.isEmpty || b.shape.isEmpty then .error .crossRank
  else if (a.width == 2 || a.width == 3) && (b.width == 2 || b.width == 3) then
    match commonShape? a.batch b.batch with
    | none => .error (.batchShapes a.batch b.batch)
    | some shape =>
      .ok (arrange (if a.width == 2 && b.width == 2 then shape else shape ++ [3])
        (List.zipWith crossRows (spreadTo a.batch shape a.rows) (spreadTo b.batch shape b.rows)).flatten)
  else .error .crossSize

end NdArray

def Vec3.toArray {α : Type} (a : Vec3 α) : NdArray α := NdArray.ofList a.toList

/-- The vector that an array is, if it is one. -/
def Vec3.ofArray? {α : Type} (a : NdArray α) : Option (Vec3 α) :=
  match a.shape, a.data with
  | [_], [x, y, z] => some ⟨x, y, z⟩
  | _, _ => none

/-- The images of the columns of an array under a linear map of space. -/
def Mat3.applyArray {α : Type} [Scalar α] (m : Mat3 α) (a : NdArray α) : Except (Fault α) (NdArray α) :=
  if a.shape.isEmpty then .error (.operandRank 1)
  else if a.height = 3 then
    let image (columns : List (List α)) : List α :=
      m.rows.flatMap fun row => columns.map fun column => Scalar.dot row.toList column
    .ok (NdArray.arrange a.shape (a.matrices.map image).flatten)
  else .error (.operandSize a.height 3)

end OrbitFit
