import OrbitFit.Decimal.Read
import OrbitFit.Fault

/-!
# OrbitFit.Settings — how hard a fit tries

A fit stops by a relative threshold, spends at most a number of model evaluations in each phase, and
approximates derivatives by one of two schemes of finite differences.
-/

namespace OrbitFit

/-- How derivatives are approximated. -/
inductive DifferenceScheme where
  /-- one evaluation ahead of the point -/
  | forward
  /-- one evaluation on either side of the point -/
  | central
  deriving Repr, DecidableEq, Inhabited

namespace DifferenceScheme

def name : DifferenceScheme → String
  | forward => "2-point"
  | central => "3-point"

def parse {α : Type} (text : String) : Except (Fault α) DifferenceScheme :=
  match [forward, central].find? fun scheme => scheme.name == text with
  | some scheme => .ok scheme
  | none => .error (.differenceScheme text)

end DifferenceScheme

/-- The threshold, which has to be positive. -/
def checkThreshold {α : Type} [Scalar α] (threshold : α) : Except (Fault α) α :=
  if 0 < threshold then .ok threshold else .error (.threshold threshold)

/-- The iteration limit, which has to be at least one. -/
def checkIterations {α : Type} (limit : Int) : Except (Fault α) Int :=
  if limit < 1 then .error (.iterationLimit limit) else .ok limit

/-- How hard a fit tries. -/
structure FitSettings (α : Type) where
  threshold : α
  maxIterations : Int
  scheme : DifferenceScheme
  deriving Repr

namespace FitSettings

variable {α : Type} [Scalar α]

/-- The settings used where nothing else is said. -/
def standard : FitSettings α := ⟨1e-10, 1000, .forward⟩

instance : Inhabited (FitSettings α) := ⟨standard⟩

/-- Settings with standard values for those not given. -/
def ofOptions (threshold : Option α) (maxIterations : Option Int) (scheme : Option String) :
    Except (Fault α) (FitSettings α) := do
  let threshold ← checkThreshold (threshold.getD standard.threshold)
  let maxIterations ← checkIterations (maxIterations.getD (standard (α := α)).maxIterations)
  let scheme ← DifferenceScheme.parse (scheme.getD (standard (α := α)).scheme.name)
  return ⟨threshold, maxIterations, scheme⟩

def readThreshold (text : String) : Except (Fault Float) Float :=
  match Decimal.readReal? text with
  | some x => .ok x
  | none => .error (.settingNotReal text)

def readIterations (text : String) : Except (Fault Float) Int :=
  match Decimal.readInteger text with
  | .value n => .ok n
  | .tooLong digits => .error (.settingTooLong digits)
  | .malformed => .error (.settingNotInteger text)

/-- Settings read from texts; both numbers are read before any is checked. -/
def ofTexts (threshold maxIterations scheme : Option String) :
    Except (Fault Float) (FitSettings Float) := do
  let threshold ← threshold.mapM readThreshold
  let maxIterations ← maxIterations.mapM readIterations
  ofOptions threshold maxIterations scheme

end FitSettings

end OrbitFit
