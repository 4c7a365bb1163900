import OrbitFit.Newcomb.Recurrence
import Std.Data.HashMap

/-!
# OrbitFit.Newcomb.Cache — operators computed once

A cache holds the operators computed so far and two frontiers.  The direct one is the greatest order up to
which every operator with `σ ≤ ρ` is held, the reverse one the same for `ρ < σ`.  A request beyond its
frontier is answered by a sweep, which computes the operators along the anti-diagonals up to twice the
order; a reverse sweep needs a direct one first.  A sweep may compute anew what the cache already holds.
-/

namespace OrbitFit

/-- An extension of a cache. -/
structure Sweep where
  reverse : Bool
  frontier : Nat
  order : Nat
  deriving Repr, DecidableEq

namespace Sweep

/-- The indices on one anti-diagonal, from the axis to the middle. -/
def diagonal (reverse : Bool) (total : Nat) : List (Nat × Nat) :=
  (List.range (total / 2 + 1)).map fun j => if reverse then (j, total - j) else (total - j, j)

/-- The indices that a sweep computes, in order. -/
def keys (s : Sweep) : List (Nat × Nat) :=
  let first := 2 * min s.frontier s.order + 1
  (List.range' first (2 * s.order + 1 - first)).flatMap (diagonal s.reverse)

end Sweep

/-- Operators computed so far, with the frontiers. -/
structure NewcombCache (α : Type) where
  operators : Std.HashMap (Nat × Nat) (Series α)
  direct : Nat
  reverse : Nat

namespace NewcombCache

variable {α : Type} [Scalar α]

/-- The cache that holds the seeds alone. -/
def empty : NewcombCache α := ⟨Std.HashMap.ofList Newcomb.seeds, 0, 0⟩

instance : Inhabited (NewcombCache α) := ⟨empty⟩

def size (c : NewcombCache α) : Nat := c.operators.size

/-- The operator at a pair of natural indices, if it is held. -/
def lookup (c : NewcombCache α) (key : Nat × Nat) : Except (Fault α) (Series α) :=
  match c.operators[key]? with
  | some operator => .ok operator
  | none => .error (.operatorMissing key.1 key.2)

/-- The cache holds an operator for a key, which has to be a pair of natural numbers. -/
def contains (c : NewcombCache α) : List Int → Bool
  | [.ofNat rho, .ofNat sigma] => c.operators.contains (rho, sigma)
  | _ => false

/-- The cache with the operator at a pair of indices computed from those it holds. -/
def compute (c : NewcombCache α) (key : Nat × Nat) : Except (Fault α) (NewcombCache α) := do
  return { c with operators := c.operators.insert key (← Newcomb.combine c.lookup key.1 key.2) }

def extend (c : NewcombCache α) (s : Sweep) : Except (Fault α) (NewcombCache α) := do
  let c ← s.keys.foldlM compute c
  return { c with
    direct := max c.direct s.order
    reverse := if s.reverse then s.order else c.reverse }

/-- The sweeps that a request for natural indices calls for. -/
def sweepsFor (c : NewcombCache α) (rho sigma : Nat) : List Sweep :=
  if rho < sigma then
    if sigma ≤ c.reverse then []
    else
      (if sigma ≤ c.direct then [] else [⟨false, c.direct, sigma⟩]) ++ [⟨true, c.reverse, sigma⟩]
  else if rho ≤ c.direct then [] else [⟨false, c.direct, rho⟩]

/-- The cache extended to cover a pair of indices, and the sweeps it took. -/
def ensure (c : NewcombCache α) : Int → Int → Except (Fault α) (NewcombCache α × List Sweep)
  | .ofNat rho, .ofNat sigma => do
    let sweeps := c.sweepsFor rho sigma
    return (← sweeps.foldlM extend c, sweeps)
  | rho, sigma => .error (.operatorIndex rho sigma)

/-- The operator at a pair of indices, the cache that holds it, and the sweeps it took. -/
def get (c : NewcombCache α) (rho sigma : Int) :
    Except (Fault α) (Series α × NewcombCache α × List Sweep) := do
  let (c, sweeps) ← c.ensure rho sigma
  return (← c.lookup (rho.toNat, sigma.toNat), c, sweeps)

/-- The value of an operator at `n` and `s`, and the cache that holds the operator. -/
def value (c : NewcombCache α) (rho sigma : Int) (n s : α) :
    Except (Fault α) (α × NewcombCache α) := do
  let (operator, c, _) ← c.get rho sigma
  return (operator.evaluate n s, c)

end NewcombCache

end OrbitFit
