import OrbitFit.Fault

/-!
# OrbitFit.Series.Poly — polynomials in one variable

A polynomial is the list of its coefficients, lowest power first.  Sums, products and compositions are
trimmed: zeros at the end are removed while more than one coefficient is left, from the operands before the
operation and from the result after it.
-/

namespace OrbitFit

/-- A polynomial by its coefficients, lowest power first. -/
structure Poly (α : Type) where
  coeffs : List α
  deriving Repr, DecidableEq

namespace Poly

variable {α : Type} [Scalar α]

/-- The polynomial of a list of coefficients, which has to hold one at least. -/
def ofList : List α → Except (Fault α) (Poly α)
  | [] => .error .emptyPolynomial
  | cs => .ok ⟨cs⟩

def const (c : α) : Poly α := ⟨[c]⟩

instance : Zero (Poly α) := ⟨const 0⟩

/-- Coefficients without the zeros at the end, one of them kept if there is no other. -/
def trim (cs : List α) : List α :=
  match cs.reverse.dropWhile (· == 0) with
  | [] => cs.take 1
  | kept => kept.reverse

/-- Sums of coefficients of equal powers. -/
def addCoeffs : List α → List α → List α
  | [], ds => ds
  | cs, [] => cs
  | c :: cs, d :: ds => (c + d) :: addCoeffs cs ds

/-- Sums of the products of coefficients whose powers add up, by ascending power of the first factor. -/
def convolve (cs ds : List α) : List α :=
  (List.range (cs.length + ds.length - 1)).map fun k =>
    Scalar.sum ((List.range (k + 1)).filterMap fun i =>
      match cs[i]?, ds[k - i]? with
      | some c, some d => some (c * d)
      | _, _ => none)

def add (p q : Poly α) : Poly α := ⟨trim (addCoeffs (trim p.coeffs) (trim q.coeffs))⟩

/-- The product of two polynomials; the longer factor comes first. -/
def mul (p q : Poly α) : Poly α :=
  let cs := trim p.coeffs
  let ds := trim q.coeffs
  ⟨trim (if cs.length < ds.length then convolve ds cs else convolve cs ds)⟩

instance : Add (Poly α) := ⟨add⟩

instance : Mul (Poly α) := ⟨mul⟩

/-- The value at a point, from the highest power down. -/
def eval (p : Poly α) (x : α) : α :=
  match p.coeffs.reverse with
  | [] => 0
  | last :: lower => lower.foldl (fun value c => c + value * x) (last + x * 0)

/-- The polynomial with another one put in for its variable, from the highest power down. -/
def comp (p q : Poly α) : Poly α :=
  match p.coeffs.reverse with
  | [] => p
  | last :: lower => lower.foldl (fun value c => const c + value * q) (const last + q * const 0)

/-- The polynomial whose value at `x` is that of `p` at `x + k`. -/
def shift (p : Poly α) (k : α) : Poly α := p.comp ⟨[k, 1]⟩

end Poly

end OrbitFit
