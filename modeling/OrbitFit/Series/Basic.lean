import OrbitFit.Series.Poly

/-!
# OrbitFit.Series.Basic — series in `n` with polynomial coefficients in `s`

A series `P₀(s) + P₁(s) n + P₂(s) n² + ...` is the list of its coefficients, which are polynomials in `s`.
Sums pad the shorter list, products are convolutions, and a shift replaces `s` by `s + k` in every
coefficient and leaves the powers of `n` alone.
-/

namespace OrbitFit

/-- A series in `n` with polynomial coefficients in `s`, lowest power of `n` first. -/
abbrev Series (α : Type) := List (Poly α)

namespace Series

variable {α : Type} [Scalar α]

/-- The series with the given lists of coefficients. -/
def ofLists (lists : List (List α)) : Except (Fault α) (Series α) := lists.mapM Poly.ofList

def zeros (length : Nat) : Series α := List.replicate length 0

/-- The sum; the end of the longer series stays as it is. -/
def sum : Series α → Series α → Series α
  | [], b => b
  | a, [] => a
  | p :: a, q :: b => (p + q) :: sum a b

/-- The coefficient of `n ^ k` in a product, by ascending power of the first factor. -/
def productCoeff (a b : Series α) (k : Nat) : Poly α :=
  ((List.range (k + 1)).filterMap fun i =>
    match a[i]?, b[k - i]? with
    | some p, some q => some (p * q)
    | _, _ => none).foldl (· + ·) 0

def multiply (a b : Series α) : Series α :=
  (List.range (a.length + b.length - 1)).map (productCoeff a b)

/-- Every coefficient at `s + k`. -/
def shift (a : Series α) (k : α) : Series α := a.map fun p => p.shift k

/-- The value at `n` and `s`; the power of `n` grows along the sum. -/
def evaluate (a : Series α) (n s : α) : α :=
  (a.foldl (fun (acc : α × α) p => (acc.1 + p.eval s * acc.2, acc.2 * n)) (0, 1)).1

end Series

end OrbitFit
