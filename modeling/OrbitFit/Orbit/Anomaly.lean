import OrbitFit.Scalar

/-!
# OrbitFit.Orbit.Anomaly — the three anomalies of an ellipse

The mean anomaly `M` grows evenly with time, the eccentric anomaly `E` solves Kepler's equation
`E - e * sin E = M`, and the true anomaly is the angle seen from the focus.  `solveKepler` is Newton's
iteration on Kepler's equation; it stops at the first step below a tolerance, or when its steps are used up
with the last iterate.
-/

namespace OrbitFit

variable {α : Type} [Scalar α]

/-- Where the iteration starts: close to the mean anomaly, or at half a turn on long ellipses. -/
def keplerStart (m e : α) : α :=
  if e < 0.8 then m + 0.85 * e * Scalar.sign (Scalar.sin m) else Scalar.pi

/-- The step of Newton's iteration at `x`. -/
def keplerStep (m e x : α) : α := -(x - e * Scalar.sin x - m) / (1.0 - e * Scalar.cos x)

structure KeplerSolution (α : Type) where
  anomaly : α
  /-- the last step was below the tolerance -/
  converged : Bool
  steps : Nat
  deriving Repr

/-- Newton's iteration from `x`, with `steps` steps behind it and at most `fuel` more. -/
def iterateKepler (m e tol : α) (x : α) (steps : Nat) : Nat → KeplerSolution α
  | 0 => ⟨x, false, steps⟩
  | fuel + 1 =>
    let step := keplerStep m e x
    let next := x + step
    if Scalar.abs step < tol then ⟨next, true, steps + 1⟩
    else iterateKepler m e tol next (steps + 1) fuel

/-- Newton's iteration for the eccentric anomaly of a mean anomaly. -/
def solveKepler (m e tol : α) (maxSteps : Nat) : KeplerSolution α :=
  iterateKepler m e tol (keplerStart m e) 0 maxSteps

/-- The iteration with the tolerance and the number of steps used in propagation. -/
def eccentricAnomaly (m e : α) : α := (solveKepler m e 1e-12 50).anomaly

/-- The true anomaly of an eccentric anomaly. -/
def trueOfEccentric (x e : α) : α :=
  2.0 * Scalar.atan2 (Scalar.sqrt (1.0 + e) * Scalar.sin (x / 2.0))
    (Scalar.sqrt (1.0 - e) * Scalar.cos (x / 2.0))

/-- The eccentric anomaly of a true anomaly. -/
def eccentricOfTrue (nu e : α) : α :=
  2.0 * Scalar.atan2 (Scalar.sqrt (1.0 - e) * Scalar.sin (nu / 2.0))
    (Scalar.sqrt (1.0 + e) * Scalar.cos (nu / 2.0))

end OrbitFit
