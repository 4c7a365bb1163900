import Mathlib
import OrbitFit.Fault

/-!
# OrbitFit.Proofs.ExactScalar — the real numbers as scalars

The formulas of the library at `ℝ` are those of exact arithmetic.  Every number is finite, an angle lies in
`(-π, π]`, and a remainder has the sign of its divisor.  There is no infinite number: its place is taken by
zero, and no result below depends on it.
-/

namespace OrbitFit

noncomputable instance : Scalar ℝ where
  decLt := inferInstance
  decLe := inferInstance
  beq x y := decide (x = y)
  ratio n d := n / d
  trunc x := if 0 ≤ x then ⌊x⌋ else ⌈x⌉
  abs x := |x|
  sqrt := Real.sqrt
  exp := Real.exp
  sin := Real.sin
  cos := Real.cos
  acos := Real.arccos
  atan2 y x := Complex.arg ⟨x, y⟩
  pow x n := x ^ n
  floorMod x y := x - y * ⌊x / y⌋
  pi := Real.pi
  infinity := 0
  isFinite _ := true

namespace Scalar

@[simp] theorem ofScientific_real (m : ℕ) (sign : Bool) (e : ℕ) :
    @OfScientific.ofScientific ℝ Scalar.toOfScientific m sign e = OfScientific.ofScientific m sign e := rfl

@[simp] theorem beq_real (x y : ℝ) : (@BEq.beq ℝ Scalar.toBEq x y) = decide (x = y) := rfl

@[simp] theorem ratio_real (n d : ℤ) : (Scalar.ratio n d : ℝ) = n / d := rfl

@[simp] theorem abs_real (x : ℝ) : Scalar.abs x = |x| := rfl

@[simp] theorem sqrt_real (x : ℝ) : Scalar.sqrt x = √x := rfl

@[simp] theorem sin_real (x : ℝ) : Scalar.sin x = Real.sin x := rfl

@[simp] theorem cos_real (x : ℝ) : Scalar.cos x = Real.cos x := rfl

@[simp] theorem acos_real (x : ℝ) : Scalar.acos x = Real.arccos x := rfl

@[simp] theorem atan2_real (y x : ℝ) : Scalar.atan2 y x = Complex.arg ⟨x, y⟩ := rfl

@[simp] theorem pow_real (x : ℝ) (n : ℕ) : Scalar.pow x n = x ^ n := rfl

@[simp] theorem floorMod_real (x y : ℝ) : Scalar.floorMod x y = x - y * ⌊x / y⌋ := rfl

@[simp] theorem pi_real : (Scalar.pi : ℝ) = Real.pi := rfl

@[simp] theorem isFinite_real (x : ℝ) : Scalar.isFinite x = true := rfl

@[simp] theorem ofInt_real (n : ℤ) : (Scalar.ofInt n : ℝ) = n := by
  simp [Scalar.ofInt]

@[simp] theorem ofNat_real (n : ℕ) : (Scalar.ofNat n : ℝ) = n := by
  simp [Scalar.ofNat]

theorem one_real : (1.0 : ℝ) = 1 := by norm_num

theorem two_real : (2.0 : ℝ) = 2 := by norm_num

theorem four_real : (4.0 : ℝ) = 4 := by norm_num

/-- A number already in the interval is not moved. -/
theorem clamp_eq_self {low high x : ℝ} (h1 : low ≤ x) (h2 : x ≤ high) : Scalar.clamp low high x = x := by
  unfold Scalar.clamp
  rw [if_neg (not_lt.mpr h1), if_neg (not_lt.mpr h2)]

end Scalar

@[simp] theorem ratioChecked_real (n d : ℤ) : (ratioChecked n d : Except (Fault ℝ) ℝ) = .ok (n / d) := by
  simp [ratioChecked]

@[simp] theorem powChecked_real (x : ℝ) (n : ℕ) : (powChecked x n : Except (Fault ℝ) ℝ) = .ok (x ^ n) := by
  simp [powChecked]

theorem divChecked_real {y : ℝ} (x : ℝ) (hy : y ≠ 0) : (divChecked x y : Except (Fault ℝ) ℝ) = .ok (x / y) := by
  simp [divChecked, hy]

end OrbitFit
