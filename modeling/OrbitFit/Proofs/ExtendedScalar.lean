import OrbitFit.Proofs.ExactScalar

/-!
# OrbitFit.Proofs.ExtendedScalar — exact arithmetic with infinities

The real numbers with two infinite ones and the undefined value, computed with as the standard for binary
arithmetic says and without rounding.  There is one zero.  The undefined value compares with nothing, and what
an operation has no value for is undefined.

* `div_finite`, `sqrt_finite`, `acos_finite`: where the operands keep to the domain of an operation, its value is
  that of the real numbers.
* `infinite_mul`, `infinite_div`, `div_infinite`: what becomes of an infinite number.
-/

namespace OrbitFit

/-- A real number, an infinite one, or the undefined value. -/
inductive Extended where
  | finite (x : ℝ)
  | infinite (negative : Bool)
  | undefined

namespace Extended

/-! ## Operations -/

section Operations

noncomputable def neg : Extended → Extended
  | finite x => finite (-x)
  | infinite s => infinite !s
  | undefined => undefined

noncomputable def add : Extended → Extended → Extended
  | finite x, finite y => finite (x + y)
  | finite _, infinite t => infinite t
  | infinite s, finite _ => infinite s
  | infinite s, infinite t => if s = t then infinite s else undefined
  | _, _ => undefined

noncomputable def mul : Extended → Extended → Extended
  | finite x, finite y => finite (x * y)
  | finite x, infinite t => if x = 0 then undefined else infinite (decide (x < 0) ^^ t)
  | infinite s, finite y => if y = 0 then undefined else infinite (s ^^ decide (y < 0))
  | infinite s, infinite t => infinite (s ^^ t)
  | _, _ => undefined

noncomputable def div : Extended → Extended → Extended
  | finite x, finite y =>
    if y ≠ 0 then finite (x / y) else if x = 0 then undefined else infinite (decide (x < 0))
  | finite _, infinite _ => finite 0
  | infinite s, finite y => infinite (s ^^ decide (y < 0))
  | _, _ => undefined

def Less : Extended → Extended → Prop
  | finite x, finite y => x < y
  | finite _, infinite t => t = false
  | infinite s, finite _ => s = true
  | infinite s, infinite t => s = true ∧ t = false
  | _, _ => False

def Same : Extended → Extended → Prop
  | finite x, finite y => x = y
  | infinite s, infinite t => s = t
  | _, _ => False

noncomputable def abs : Extended → Extended
  | finite x => finite |x|
  | infinite _ => infinite false
  | undefined => undefined

noncomputable def sqrt : Extended → Extended
  | finite x => if 0 ≤ x then finite √x else undefined
  | infinite false => infinite false
  | _ => undefined

noncomputable def exp : Extended → Extended
  | finite x => finite (Real.exp x)
  | infinite false => infinite false
  | infinite true => finite 0
  | undefined => undefined

/-- A function of the real numbers that has no limits. -/
noncomputable def onFinite (f : ℝ → ℝ) : Extended → Extended
  | finite x => finite (f x)
  | _ => undefined

noncomputable def acos : Extended → Extended
  | finite x => if |x| ≤ 1 then finite (Real.arccos x) else undefined
  | _ => undefined

/-- The angle of the point `(x, y)`; infinite coordinates are equal to each other in size. -/
noncomputable def atan2 : Extended → Extended → Extended
  | finite y, finite x => finite (Complex.arg ⟨x, y⟩)
  | finite y, infinite s => finite (if s then (if y < 0 then -Real.pi else Real.pi) else 0)
  | infinite t, finite _ => finite (Complex.arg ⟨0, if t then -1 else 1⟩)
  | infinite t, infinite s => finite (Complex.arg ⟨if s then -1 else 1, if t then -1 else 1⟩)
  | _, _ => undefined

noncomputable def pow (x : Extended) (n : ℕ) : Extended :=
  match x with
  | finite x => finite (x ^ n)
  | infinite s => if n = 0 then finite 1 else infinite (s && decide (n % 2 = 1))
  | undefined => if n = 0 then finite 1 else undefined

noncomputable def floorMod : Extended → Extended → Extended
  | finite x, finite y => if y = 0 then undefined else finite (Scalar.floorMod x y)
  | finite x, infinite t => if x ≠ 0 ∧ decide (x < 0) ≠ t then infinite t else finite x
  | _, _ => undefined

def isFinite : Extended → Bool
  | finite _ => true
  | _ => false

end Operations

open Classical in
noncomputable instance : Scalar Extended where
  zero := finite 0
  one := finite 1
  add := add
  sub x y := x.add y.neg
  mul := mul
  div := div
  neg := neg
  ofScientific m sign e := finite (OfScientific.ofScientific m sign e)
  lt := Less
  le x y := x.Less y ∨ x.Same y
  beq x y := decide (x.Same y)
  decLt _ _ := inferInstance
  decLe _ _ := inferInstance
  ratio n d := div (finite n) (finite d)
  trunc
    | finite x => Scalar.trunc x
    | _ => 0
  abs := abs
  sqrt := sqrt
  exp := exp
  sin := onFinite Real.sin
  cos := onFinite Real.cos
  acos := acos
  atan2 := atan2
  pow := pow
  floorMod := floorMod
  pi := finite Real.pi
  infinity := infinite false
  isFinite := isFinite

/-! ## Finite operands -/

section Finite

variable {x y : ℝ}

@[simp] theorem zero_eq : (0 : Extended) = finite 0 := rfl

@[simp] theorem one_eq : (1 : Extended) = finite 1 := rfl

@[simp] theorem ofScientific_eq (m : ℕ) (sign : Bool) (e : ℕ) :
    @OfScientific.ofScientific Extended Scalar.toOfScientific m sign e = finite (OfScientific.ofScientific m sign e) :=
  rfl

@[simp] theorem pi_eq : (Scalar.pi : Extended) = finite Real.pi := rfl

@[simp] theorem infinity_eq : (Scalar.infinity : Extended) = infinite false := rfl

@[simp] theorem neg_finite : -finite x = finite (-x) := rfl

@[simp] theorem add_finite : finite x + finite y = finite (x + y) := rfl

@[simp] theorem sub_finite : finite x - finite y = finite (x - y) := congrArg finite (sub_eq_add_neg x y).symm

@[simp] theorem mul_finite : finite x * finite y = finite (x * y) := rfl

theorem div_finite (hy : y ≠ 0) : finite x / finite y = finite (x / y) := if_pos hy

@[simp] theorem lt_finite : finite x < finite y ↔ x < y := Iff.rfl

@[simp] theorem le_finite : finite x ≤ finite y ↔ x ≤ y := le_iff_lt_or_eq.symm

@[simp] theorem beq_finite : (finite x == finite y) = decide (x = y) := decide_eq_decide.mpr Iff.rfl

@[simp] theorem abs_finite : Scalar.abs (finite x) = finite |x| := rfl

theorem sqrt_finite (hx : 0 ≤ x) : Scalar.sqrt (finite x) = finite √x := if_pos hx

@[simp] theorem sin_finite : Scalar.sin (finite x) = finite (Real.sin x) := rfl

@[simp] theorem cos_finite : Scalar.cos (finite x) = finite (Real.cos x) := rfl

theorem acos_finite (hx : |x| ≤ 1) : Scalar.acos (finite x) = finite (Real.arccos x) := if_pos hx

@[simp] theorem atan2_finite : Scalar.atan2 (finite y) (finite x) = finite (Complex.arg ⟨x, y⟩) := rfl

@[simp] theorem pow_finite (n : ℕ) : Scalar.pow (finite x) n = finite (x ^ n) := rfl

theorem floorMod_finite (hy : y ≠ 0) : Scalar.floorMod (finite x) (finite y) = finite (Scalar.floorMod x y) := if_neg hy

theorem ite_finite (p : Prop) [Decidable p] : (if p then finite x else finite y) = finite (if p then x else y) :=
  (apply_ite finite p x y).symm

theorem sign_finite : Scalar.sign (finite x) = finite (Scalar.sign x) := by
  unfold Scalar.sign
  simp only [zero_eq, one_eq, lt_finite, beq_finite, neg_finite, ite_finite, Scalar.beq_real]

theorem clamp_finite (low high : ℝ) : Scalar.clamp (finite low) (finite high) (finite x) =
    finite (Scalar.clamp low high x) := by
  unfold Scalar.clamp
  simp only [lt_finite, ite_finite]

end Finite

/-! ## Infinite operands -/

section Infinite

variable {x y : ℝ}

theorem infinite_mul (hy : 0 < y) (s : Bool) : infinite s * finite y = infinite s := by
  show (if y = 0 then undefined else infinite (s ^^ decide (y < 0))) = infinite s
  rw [if_neg hy.ne', decide_eq_false hy.le.not_gt, Bool.xor_false]

theorem infinite_mul_zero (s : Bool) : infinite s * finite 0 = undefined := if_pos rfl

theorem infinite_div (hy : 0 < y) (s : Bool) : infinite s / finite y = infinite s := by
  show infinite (s ^^ decide (y < 0)) = infinite s
  rw [decide_eq_false hy.le.not_gt, Bool.xor_false]

theorem div_infinite (s : Bool) : finite x / infinite s = finite 0 := rfl

theorem pow_infinity {n : ℕ} (hn : n ≠ 0) : Scalar.pow (infinite false) n = infinite false := if_neg hn

theorem mul_undefined (a : Extended) : a * undefined = undefined := by
  cases a <;> rfl

theorem add_undefined (a : Extended) : a + undefined = undefined := by
  cases a <;> rfl

end Infinite

end Extended

end OrbitFit
