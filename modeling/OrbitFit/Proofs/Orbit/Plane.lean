import OrbitFit.Proofs.Orbit.Angle

/-!
# OrbitFit.Proofs.Orbit.Plane — right-handed triads and vectors in a plane

A triad is two orthonormal vectors and their product.  Vectors across the third one are pairs of numbers, and
their products and lengths are formulas in these.

* `Triad.eq_inPlane`: a vector across the normal is the combination of its two coordinates.
* `Triad.eq_of_angleOf`: the angle of such a vector, read off a coordinate and the sign of the other.
-/

open Real

namespace OrbitFit

attribute [ext] Vec3

/-! ## Vectors of space -/

namespace Vec3

variable (a b c : Vec3 ℝ) (k : ℝ)

theorem add_def : a + b = ⟨a.x + b.x, a.y + b.y, a.z + b.z⟩ := rfl

theorem sub_def : a - b = ⟨a.x - b.x, a.y - b.y, a.z - b.z⟩ := rfl

theorem scale_def : scale k a = ⟨k * a.x, k * a.y, k * a.z⟩ := rfl

theorem divide_def : divide a k = ⟨a.x / k, a.y / k, a.z / k⟩ := rfl

theorem dot_def : a.dot b = a.x * b.x + a.y * b.y + a.z * b.z := rfl

theorem cross_def :
    a.cross b = ⟨a.y * b.z - a.z * b.y, a.z * b.x - a.x * b.z, a.x * b.y - a.y * b.x⟩ := rfl

theorem zero_def : (0 : Vec3 ℝ) = ⟨0, 0, 0⟩ := rfl

theorem norm_def : a.norm = √(a.dot a) := rfl

theorem dot_comm : a.dot b = b.dot a := by
  simp only [dot_def]
  ring

theorem sub_dot_self : (a - b).dot (a - b) = a.dot a - 2 * b.dot a + b.dot b := by
  simp only [dot_def, sub_def]
  ring

theorem cross_dot_cross : (a.cross b).dot (a.cross b) = a.dot a * b.dot b - a.dot b ^ 2 := by
  simp only [dot_def, cross_def]
  ring

/-- Gram's determinant is the square of the triple product. -/
theorem cross_dot_sq : (a.cross b).dot c ^ 2 =
    a.dot a * b.dot b * c.dot c + 2 * a.dot b * a.dot c * b.dot c
      - a.dot a * b.dot c ^ 2 - b.dot b * a.dot c ^ 2 - c.dot c * a.dot b ^ 2 := by
  simp only [dot_def, cross_def]
  ring

theorem cross_cross : (a.cross b).cross c = scale (a.dot c) b - scale (b.dot c) a := by
  simp only [cross_def, dot_def, scale_def, sub_def, Vec3.mk.injEq]
  refine ⟨?_, ?_, ?_⟩ <;> ring

theorem cross_dot_left : (a.cross b).dot a = 0 := by
  simp only [dot_def, cross_def]
  ring

theorem cross_dot_right : (a.cross b).dot b = 0 := by
  simp only [dot_def, cross_def]
  ring

theorem dot_self_nonneg : 0 ≤ a.dot a := by
  rw [dot_def]
  nlinarith [mul_self_nonneg a.x, mul_self_nonneg a.y, mul_self_nonneg a.z]

theorem norm_nonneg : 0 ≤ a.norm := sqrt_nonneg _

theorem norm_sq : a.norm ^ 2 = a.dot a := sq_sqrt (dot_self_nonneg a)

variable {a b c k}

theorem eq_zero_of_dot_self (h : a.dot a = 0) : a = 0 := by
  rw [dot_def] at h
  have hx : a.x * a.x = 0 := by nlinarith [mul_self_nonneg a.x, mul_self_nonneg a.y, mul_self_nonneg a.z]
  have hy : a.y * a.y = 0 := by nlinarith [mul_self_nonneg a.x, mul_self_nonneg a.y, mul_self_nonneg a.z]
  have hz : a.z * a.z = 0 := by nlinarith [mul_self_nonneg a.x, mul_self_nonneg a.y, mul_self_nonneg a.z]
  ext
  · exact mul_self_eq_zero.mp hx
  · exact mul_self_eq_zero.mp hy
  · exact mul_self_eq_zero.mp hz

theorem norm_eq_zero : a.norm = 0 ↔ a = 0 := by
  constructor
  · intro h
    exact eq_zero_of_dot_self (by rw [← norm_sq, h, zero_pow two_ne_zero])
  · rintro rfl
    simp [norm_def, dot_def, zero_def]

theorem norm_pos_iff : 0 < a.norm ↔ a ≠ 0 :=
  ⟨fun h h0 => h.ne' (norm_eq_zero.mpr h0),
    fun h => lt_of_le_of_ne (norm_nonneg a) fun h0 => h (norm_eq_zero.mp h0.symm)⟩

theorem norm_eq_of_sq (hk : 0 ≤ k) (h : a.dot a = k ^ 2) : a.norm = k := by
  rw [norm_def, h, sqrt_sq hk]

theorem scale_dot : (scale k a).dot b = k * a.dot b := by
  simp only [dot_def, scale_def]
  ring

theorem dot_scale : a.dot (scale k b) = k * a.dot b := by
  rw [dot_comm, scale_dot, dot_comm]

theorem scale_divide (hk : k ≠ 0) : scale k (a.divide k) = a := by
  rw [scale_def, divide_def, mul_div_cancel₀ _ hk, mul_div_cancel₀ _ hk, mul_div_cancel₀ _ hk]

/-- The product of two vectors off one line is less than that of their lengths. -/
theorem dot_lt_of_cross_ne_zero (h : a.cross b ≠ 0) : a.dot b < a.norm * b.norm := by
  have hpos : 0 < (a.cross b).dot (a.cross b) :=
    lt_of_le_of_ne (dot_self_nonneg _) fun h0 => h (eq_zero_of_dot_self h0.symm)
  rw [cross_dot_cross, ← norm_sq, ← norm_sq, ← mul_pow] at hpos
  exact lt_of_pow_lt_pow_left₀ 2 (mul_nonneg (norm_nonneg a) (norm_nonneg b)) (by linarith)

theorem abs_dot_le : |a.dot b| ≤ a.norm * b.norm := by
  have hnonneg := dot_self_nonneg (a.cross b)
  rw [cross_dot_cross, ← norm_sq, ← norm_sq, ← mul_pow] at hnonneg
  exact abs_le_of_sq_le_sq (by linarith) (mul_nonneg (norm_nonneg a) (norm_nonneg b))

theorem divide_one : a.divide 1 = a := by
  simp [divide_def]

/-- The direction of a vector has length one. -/
theorem unit_divide (h : a ≠ 0) : (a.divide a.norm).dot (a.divide a.norm) = 1 := by
  have hpos := norm_pos_iff.mpr h
  have hsq := norm_sq a
  rw [dot_def] at hsq
  rw [dot_def, divide_def]
  field_simp
  linarith

variable (a k) in
theorem norm_scale_abs : (scale k a).norm = |k| * a.norm := by
  apply norm_eq_of_sq (mul_nonneg (abs_nonneg k) (norm_nonneg a))
  rw [scale_dot, dot_scale, mul_pow, norm_sq, sq_abs]
  ring

theorem norm_scale (hk : 0 ≤ k) : (scale k a).norm = k * a.norm := by
  rw [norm_scale_abs, abs_of_nonneg hk]

theorem scale_inj (hk : k ≠ 0) : scale k a = scale k b ↔ a = b := by
  constructor
  · intro h
    rw [scale_def, scale_def, Vec3.mk.injEq] at h
    ext
    · exact mul_left_cancel₀ hk h.1
    · exact mul_left_cancel₀ hk h.2.1
    · exact mul_left_cancel₀ hk h.2.2
  · rintro rfl
    rfl

/-- A direction may be given by a vector of any length. -/
theorem dot_div_of_eq_scale {x : ℝ} (h : a = scale k b) (hk : k ≠ 0) : a.dot c / (k * x) = b.dot c / x := by
  rw [h, scale_dot, mul_div_mul_left _ _ hk]

/-- Two vectors lie across every vector along their product. -/
theorem dot_eq_zero_of_cross (h : a.cross b = scale k c) (hk : k ≠ 0) : c.dot a = 0 ∧ c.dot b = 0 := by
  have h1 := cross_dot_left a b
  have h2 := cross_dot_right a b
  rw [h, scale_dot] at h1 h2
  exact ⟨(mul_eq_zero.mp h1).resolve_left hk, (mul_eq_zero.mp h2).resolve_left hk⟩

end Vec3

/-! ## Triads -/

/-- A combination of two vectors. -/
noncomputable def inPlane (P Q : Vec3 ℝ) (ξ η : ℝ) : Vec3 ℝ := Vec3.scale ξ P + Vec3.scale η Q

/-- Two orthonormal vectors and their product. -/
structure Triad (P Q W : Vec3 ℝ) : Prop where
  unit : P.dot P = 1
  unit' : Q.dot Q = 1
  orthogonal : P.dot Q = 0
  normal : P.cross Q = W

namespace Triad

open Vec3

variable {P Q W u : Vec3 ℝ} (ξ η ξ' η' : ℝ)

theorem inPlane_def : inPlane P Q ξ η = ⟨ξ * P.x + η * Q.x, ξ * P.y + η * Q.y, ξ * P.z + η * Q.z⟩ := rfl

theorem dot_inPlane (T : Triad P Q W) :
    (inPlane P Q ξ η).dot (inPlane P Q ξ' η') = ξ * ξ' + η * η' := by
  have h1 := T.unit
  have h2 := T.unit'
  have h3 := T.orthogonal
  simp only [dot_def] at h1 h2 h3
  simp only [inPlane_def, dot_def]
  linear_combination ξ * ξ' * h1 + η * η' * h2 + (ξ * η' + η * ξ') * h3

theorem inPlane_one_zero : inPlane P Q 1 0 = P := by
  simp [inPlane_def]

theorem inPlane_zero_one : inPlane P Q 0 1 = Q := by
  simp [inPlane_def]

theorem scale_inPlane (k : ℝ) : scale k (inPlane P Q ξ η) = inPlane P Q (k * ξ) (k * η) := by
  simp only [inPlane_def, scale_def, mul_add, mul_assoc]

theorem inPlane_zero : inPlane P Q ξ 0 = scale ξ P := by
  simp [inPlane_def, scale_def]

theorem dot_left (T : Triad P Q W) : P.dot (inPlane P Q ξ η) = ξ := by
  have h := T.dot_inPlane 1 0 ξ η
  rwa [inPlane_one_zero, one_mul, zero_mul, add_zero] at h

theorem dot_right (T : Triad P Q W) : Q.dot (inPlane P Q ξ η) = η := by
  have h := T.dot_inPlane 0 1 ξ η
  rwa [inPlane_zero_one, one_mul, zero_mul, zero_add] at h

theorem cross_inPlane (T : Triad P Q W) :
    (inPlane P Q ξ η).cross (inPlane P Q ξ' η') = scale (ξ * η' - η * ξ') W := by
  rw [← T.normal]
  simp only [inPlane_def, cross_def, scale_def, Vec3.mk.injEq]
  refine ⟨?_, ?_, ?_⟩ <;> ring

theorem inPlane_dot : (inPlane P Q ξ η).dot u = ξ * P.dot u + η * Q.dot u := by
  simp only [inPlane_def, dot_def]
  ring

theorem unit_normal (T : Triad P Q W) : W.dot W = 1 := by
  rw [← T.normal, cross_dot_cross, T.unit, T.unit', T.orthogonal]
  norm_num

theorem norm_left (T : Triad P Q W) : P.norm = 1 :=
  norm_eq_of_sq zero_le_one (by rw [T.unit, one_pow])

theorem norm_normal (T : Triad P Q W) : W.norm = 1 :=
  norm_eq_of_sq zero_le_one (by rw [T.unit_normal, one_pow])

/-- **A vector across the normal** is the combination of its two coordinates. -/
theorem eq_inPlane (T : Triad P Q W) (hu : W.dot u = 0) : u = inPlane P Q (P.dot u) (Q.dot u) := by
  have hgram := cross_dot_sq P Q u
  rw [T.normal, hu, T.unit, T.unit', T.orthogonal] at hgram
  have hd : (u - inPlane P Q (P.dot u) (Q.dot u)).dot (u - inPlane P Q (P.dot u) (Q.dot u)) = 0 := by
    rw [sub_dot_self, inPlane_dot, T.dot_inPlane]
    linarith
  have h0 := eq_zero_of_dot_self hd
  rw [sub_def, zero_def, Vec3.mk.injEq] at h0
  ext
  · linarith [h0.1]
  · linarith [h0.2.1]
  · linarith [h0.2.2]

theorem inPlane_inj {ξ η ξ' η' : ℝ} (T : Triad P Q W) :
    inPlane P Q ξ η = inPlane P Q ξ' η' ↔ ξ = ξ' ∧ η = η' := by
  constructor
  · intro h
    exact ⟨by rw [← T.dot_left ξ η, h, T.dot_left],
      by rw [← T.dot_right ξ η, h, T.dot_right]⟩
  · rintro ⟨rfl, rfl⟩
    rfl

/-- A triad turned about its normal. -/
theorem rotate (T : Triad P Q W) (θ : ℝ) :
    Triad (inPlane P Q (cos θ) (sin θ)) (inPlane P Q (-sin θ) (cos θ)) W := by
  have hθ := cos_sq_add_sin_sq θ
  refine ⟨?_, ?_, ?_, ?_⟩
  · rw [T.dot_inPlane]
    linear_combination hθ
  · rw [T.dot_inPlane]
    linear_combination hθ
  · rw [T.dot_inPlane]
    ring
  · rw [T.cross_inPlane, show cos θ * cos θ - sin θ * -sin θ = 1 by linear_combination hθ]
    simp only [scale_def, one_mul]

/-- **An angle is read off** one coordinate and the sign of the other. -/
theorem eq_of_angleOf (T : Triad P Q W) (hu : W.dot u = 0) (hpos : 0 < u.norm) {reflex : Bool}
    (hr : reflex = true ↔ Q.dot u < 0) :
    u = inPlane P Q (u.norm * cos (Osculating.angleOf (P.dot u / u.norm) reflex))
      (u.norm * sin (Osculating.angleOf (P.dot u / u.norm) reflex)) := by
  have hsq : P.dot u ^ 2 + Q.dot u ^ 2 = u.norm ^ 2 := by
    conv_rhs => rw [norm_sq, T.eq_inPlane hu, T.dot_inPlane]
    ring
  obtain ⟨hc, hs⟩ := cos_sin_angleOf hpos hsq hr
  rw [hc, hs, mul_div_cancel₀ _ hpos.ne', mul_div_cancel₀ _ hpos.ne']
  exact T.eq_inPlane hu

end Triad

end OrbitFit
