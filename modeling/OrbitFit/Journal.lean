import OrbitFit.Decimal.Fixed
import OrbitFit.LeastSquares.Optimizer
import OrbitFit.Newcomb.Cache

/-!
# OrbitFit.Journal — what the library reports while it works

An `Event` is something worth telling: a trajectory was sampled, operators are being computed, a fit begins,
converges or ends.  Each event has the part of the library it comes from, a severity and a text.
-/

namespace OrbitFit

inductive Severity where
  | debug
  | info
  | warning
  | error
  deriving Repr, DecidableEq, Inhabited

namespace Severity

/-- The rank of a severity; a graver one ranks higher. -/
def rank : Severity → Int
  | debug => 10
  | info => 20
  | warning => 30
  | error => 40

def name : Severity → String
  | debug => "DEBUG"
  | info => "INFO"
  | warning => "WARNING"
  | error => "ERROR"

end Severity

inductive Phase where
  /-- to the first states of the sample -/
  | warmUp
  /-- to the whole sample -/
  | refinement
  deriving Repr, DecidableEq, Inhabited

def Phase.name : Phase → String
  | warmUp => "warm-up"
  | refinement => "refinement"

/-- Something worth telling. -/
inductive Event (α : Type) where
  | sampled (states : Nat) (span step : α)
  | extending (sweep : Sweep)
  | converting (states : Nat) (onlyPosition : Bool) (free : List String)
  | converged (method : Method) (optimum : Optimum α)
  | phaseDone (phase : Phase) (states evaluations : Nat)
  | converted (rms : α) (evaluations : Nat)

namespace Event

variable {α : Type}

/-- What an optimizer tells of its optimum: that it has converged, if it is one that says so. -/
def told (optimum : Optimum α) : List (Event α) :=
  (optimum.method.map fun method => converged method optimum).toList

/-- The part of the library that an event comes from. -/
def source : Event α → String
  | sampled .. => "sampling"
  | extending _ => "newcomb"
  | converged .. => "optimizer"
  | converting .. | phaseDone .. | converted .. => "converter"

def severity : Event α → Severity
  | converting .. | converted .. => .info
  | _ => .debug

open Decimal Text

def message : Event Float → String
  | sampled states span step =>
    "sampled " ++ toString states ++ " states over " ++ fixed 1 span ++ " s (step " ++ fixed 3 step ++ " s)"
  | extending sweep =>
    "extending Newcomb operators " ++ (if sweep.reverse then "reverse" else "direct") ++ " order " ++
      toString sweep.frontier ++ " -> " ++ toString sweep.order
  | converting states onlyPosition free =>
    "converting " ++ toString states ++ " states (" ++
      (if onlyPosition then "positions" else "positions+velocities") ++ ") with free parameters " ++
      (if free.isEmpty then "none" else quotedList free)
  | converged method optimum =>
    method.name ++ " converged after " ++ toString optimum.evaluations ++ " evaluations (status " ++
      toString optimum.status ++ ", cost " ++ scientific 6 optimum.cost ++ ")"
  | phaseDone phase states evaluations =>
    phase.name ++ " phase: " ++ toString states ++ " states, " ++ toString evaluations ++ " evaluations"
  | converted rms evaluations =>
    "conversion done: rms " ++ scientific 6 rms ++ ", " ++ toString evaluations ++ " evaluations"

end Event

end OrbitFit
