import OrbitFit.NdArray

/-!
# OrbitFit.NdArray.Broadcast — arrays combined entry by entry

Two arrays are matched from their last extents.  Where one has an extent of one, or none any more, its
entries repeat along the extent of the other.
-/

namespace OrbitFit

/-- The extents of two matched arrays, all extents given from the last to the first. -/
def matchedExtents? : List Nat → List Nat → Option (List Nat)
  | n :: ns, m :: ms =>
    if n = m ∨ m = 1 then (matchedExtents? ns ms).map (n :: ·)
    else if n = 1 then (matchedExtents? ns ms).map (m :: ·)
    else none
  | [], ms => some ms
  | ns, [] => some ns

/-- The shape that two arrays have together. -/
def commonShape? (first second : List Nat) : Option (List Nat) :=
  (matchedExtents? first.reverse second.reverse).map List.reverse

/-- The entries of an array repeated to fill other extents of equal number. -/
def spread {β : Type} : List Nat → List Nat → List β → List β
  | n :: ns, m :: ms, entries =>
    if n = m then
      (List.range n).flatMap fun i =>
        spread ns ms ((entries.drop (i * entryCount ns)).take (entryCount ns))
    else (List.replicate m (spread ns ms entries)).flatten
  | _, _, entries => entries

/-- The entries of an array repeated to fill a shape that it has together with another. -/
def spreadTo {β : Type} (shape target : List Nat) (entries : List β) : List β :=
  spread (List.replicate (target.length - shape.length) 1 ++ shape) target entries

namespace NdArray

variable {α : Type}

def zipWith (f : α → α → α) (a b : NdArray α) : Except (Fault α) (NdArray α) :=
  match commonShape? a.shape b.shape with
  | some shape =>
    .ok (arrange shape (List.zipWith f (spreadTo a.shape shape a.data) (spreadTo b.shape shape b.data)))
  | none => .error (.operandShapes a.shape b.shape)

def add [Add α] (a b : NdArray α) : Except (Fault α) (NdArray α) := zipWith (· + ·) a b

def sub [Sub α] (a b : NdArray α) : Except (Fault α) (NdArray α) := zipWith (· - ·) a b

def mul [Mul α] (a b : NdArray α) : Except (Fault α) (NdArray α) := zipWith (· * ·) a b

end NdArray

end OrbitFit
