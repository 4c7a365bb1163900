import OrbitFit.OrbitState

/-!
# OrbitFit.Targets — what a fit has to reproduce

The target of a fit lists the components of a sample's states, state after state: the position, and the
velocity unless only positions are fitted.  Position components weigh one.  The velocity components of a
state weigh `|v| |r|² / mu`, which puts velocity residuals on a footing with position residuals.
-/

namespace OrbitFit

/-- The components that a fit has to reproduce, with their weights. -/
structure Targets (α : Type) where
  target : List α
  weight : List α
  deriving Repr

namespace Targets

variable {α : Type}

def empty : Targets α := ⟨[], []⟩

instance : Inhabited (Targets α) := ⟨empty⟩

variable [Scalar α]

/-- The components of one state behind those of others. -/
def push (t : Targets α) (r v : Vec3 α) (mu : α) (onlyPosition : Bool) : Targets α :=
  if onlyPosition then ⟨t.target ++ r.toList, t.weight ++ [1, 1, 1]⟩
  else
    let w := v.norm * r.dot r / mu
    ⟨t.target ++ (r.toList ++ v.toList), t.weight ++ [1, 1, 1, w, w, w]⟩

/-- The target and the weights of a sample. -/
def ofStates (states : List (OrbitState α)) (frame : FrameRequest) (onlyPosition : Bool)
    (eop : Option (OrientationHistory α)) : Except (Fault α) (Targets α) :=
  if states.isEmpty then .error .emptySample
  else states.foldlM (fun t s => do
    let (r, v) ← s.view frame eop
    return t.push r v s.mu onlyPosition) empty

/-- The root of the mean of squares. -/
def rootMeanSquare (xs : List α) : α :=
  Scalar.sqrt (Scalar.sum (xs.map fun x => Scalar.pow x 2) / Scalar.ofNat xs.length)

end Targets

end OrbitFit
