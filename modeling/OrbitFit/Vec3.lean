import OrbitFit.NdArray

/-!
# OrbitFit.Vec3 — vectors of space and rotations of it

Sums of three products are taken from the left.
-/

namespace OrbitFit

structure Vec3 (α : Type) where
  x : α
  y : α
  z : α
  deriving Repr, Inhabited

namespace Vec3

variable {α : Type}

def toList (a : Vec3 α) : List α := [a.x, a.y, a.z]

/-- The vector of an array of shape `(3,)`; `label` names it in the fault. -/
def ofArray (label : String) (a : NdArray α) : Except (Fault α) (Vec3 α) :=
  match a.shape, a.data with
  | [_], [x, y, z] => .ok ⟨x, y, z⟩
  | shape, _ => .error (.vectorShape label shape)

variable [Scalar α]

instance : Zero (Vec3 α) := ⟨⟨0, 0, 0⟩⟩

instance : Add (Vec3 α) := ⟨fun a b => ⟨a.x + b.x, a.y + b.y, a.z + b.z⟩⟩

instance : Sub (Vec3 α) := ⟨fun a b => ⟨a.x - b.x, a.y - b.y, a.z - b.z⟩⟩

def scale (k : α) (a : Vec3 α) : Vec3 α := ⟨k * a.x, k * a.y, k * a.z⟩

/-- Every component divided by a number. -/
def divide (a : Vec3 α) (k : α) : Vec3 α := ⟨a.x / k, a.y / k, a.z / k⟩

def dot (a b : Vec3 α) : α := a.x * b.x + a.y * b.y + a.z * b.z

def cross (a b : Vec3 α) : Vec3 α :=
  ⟨a.y * b.z - a.z * b.y, a.z * b.x - a.x * b.z, a.x * b.y - a.y * b.x⟩

def norm (a : Vec3 α) : α := Scalar.sqrt (a.dot a)

def isFinite (a : Vec3 α) : Bool :=
  Scalar.isFinite a.x && Scalar.isFinite a.y && Scalar.isFinite a.z

def agrees (a b : Vec3 α) : Bool := a.x == b.x && a.y == b.y && a.z == b.z

end Vec3

/-- A linear map of space by its rows. -/
structure Mat3 (α : Type) where
  row1 : Vec3 α
  row2 : Vec3 α
  row3 : Vec3 α
  deriving Repr, Inhabited

namespace Mat3

variable {α : Type}

def transpose (m : Mat3 α) : Mat3 α :=
  ⟨⟨m.row1.x, m.row2.x, m.row3.x⟩, ⟨m.row1.y, m.row2.y, m.row3.y⟩, ⟨m.row1.z, m.row2.z, m.row3.z⟩⟩

def rows (m : Mat3 α) : List (Vec3 α) := [m.row1, m.row2, m.row3]

def apply [Scalar α] (m : Mat3 α) (a : Vec3 α) : Vec3 α := ⟨m.row1.dot a, m.row2.dot a, m.row3.dot a⟩

end Mat3

end OrbitFit
