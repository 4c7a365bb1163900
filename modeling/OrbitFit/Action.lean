import OrbitFit.Fault

/-!
# OrbitFit.Action — operations that change a state and may fail

An action reads and changes a state, and ends with a result or a fault.  A fault does not undo the changes
made before it.  An action on a part of a state is an action on the whole, which leaves the rest alone.
-/

namespace OrbitFit

/-- An operation on a state of type `σ`; changes made before a fault stay. -/
abbrev Action (α σ β : Type) := ExceptT (Fault α) (StateM σ) β

/-- An operation on a part of a state as an operation on the whole. -/
def zoom {σ τ β : Type} (read : τ → σ) (write : σ → τ → τ) (a : StateM σ β) : StateM τ β := fun s =>
  let (answer, part) := a (read s)
  (answer, write part s)

namespace Action

variable {α σ τ β : Type}

/-- An operation that reads nothing and changes nothing. -/
def ofExcept (x : Except (Fault α) β) : Action α σ β := ExceptT.mk (pure x)

/-- An action on a part of a state as an action on the whole. -/
def onPart (read : τ → σ) (write : σ → τ → τ) (a : Action α σ β) : Action α τ β :=
  ExceptT.mk (zoom read write a.run)

/-- An action on the first of two states. -/
def onFirst (a : Action α σ β) : Action α (σ × τ) β :=
  a.onPart Prod.fst fun first s => (first, s.2)

/-- An action on the second of two states. -/
def onSecond (a : Action α σ β) : Action α (τ × σ) β :=
  a.onPart Prod.snd fun second s => (s.1, second)

/-- An action of a function that yields an answer and the next state. -/
def ofStep (step : σ → Except (Fault α) β × σ) : Action α σ β := ExceptT.mk step

end Action

end OrbitFit
