import Mathlib
import OrbitFit.OrbitState

/-!
# OrbitFit.Proofs.HashKey — states that are equal and hashed apart

States are compared number by number, and hashed by the bits of their vectors.  Numbers that are equal have the same
bits, the two zeros apart (`toBits_eq_iff`).  So equal states have one key unless a component of a vector is a zero of
either sign in the one and of the other in the other; the sign of a zero epoch does no harm.
-/

namespace OrbitFit

/-! ## Doubles -/

section Doubles

/-- Two zeros with unlike signs: the same number, other bits. -/
def UnlikeZeros (x y : Float) : Prop := x = 0 ∧ y = -0 ∨ x = -0 ∧ y = 0

instance (x y : Float) : Decidable (UnlikeZeros x y) := inferInstanceAs (Decidable (_ ∨ _))

theorem toBits_zero_ne : (0 : Float).toBits ≠ (-0 : Float).toBits := by decide

/-- **Equal numbers have the same bits**, unless they are zeros of unlike sign. -/
theorem toBits_eq_iff {x y : Float} (h : (x == y) = true) : x.toBits = y.toBits ↔ ¬ UnlikeZeros x y := by
  obtain ⟨-, -, rfl | hzero⟩ := Float.beq_iff_ne_nan_and_eq.mp h
  · refine iff_of_true rfl ?_
    rintro (⟨h0, h1⟩ | ⟨h0, h1⟩)
    · exact toBits_zero_ne (congrArg Float.toBits (h0.symm.trans h1))
    · exact toBits_zero_ne (congrArg Float.toBits (h1.symm.trans h0))
  · refine iff_of_false ?_ (not_not.mpr hzero)
    obtain ⟨rfl, rfl⟩ | ⟨rfl, rfl⟩ := hzero
    · exact toBits_zero_ne
    · exact toBits_zero_ne.symm

end Doubles

/-! ## Vectors and states -/

section States

/-- Some component of two vectors is a zero of either sign in the one and of the other in the other. -/
def Vec3.UnlikeZeros (a b : Vec3 Float) : Prop := ∃ p ∈ a.toList.zip b.toList, OrbitFit.UnlikeZeros p.1 p.2

instance (a b : Vec3 Float) : Decidable (a.UnlikeZeros b) :=
  inferInstanceAs (Decidable (∃ p ∈ a.toList.zip b.toList, OrbitFit.UnlikeZeros p.1 p.2))

theorem Vec3.bits_eq_iff {a b : Vec3 Float} (h : a.agrees b = true) :
    a.toList.map Float.toBits = b.toList.map Float.toBits ↔ ¬ a.UnlikeZeros b := by
  simp only [Vec3.agrees, Bool.and_eq_true] at h
  obtain ⟨⟨hx, hy⟩, hz⟩ := h
  simp only [Vec3.toList, List.map_cons, List.map_nil, List.cons.injEq, and_true, Vec3.UnlikeZeros, List.zip_cons_cons,
    List.zip_nil_right, List.mem_cons, List.not_mem_nil, or_false, exists_eq_or_imp, exists_eq_left, not_or,
    toBits_eq_iff hx, toBits_eq_iff hy, toBits_eq_iff hz]

namespace OrbitState

/-- **Equal states have one key**, by which they are one element of a set, if and only if no component of their vectors
is a zero of either sign in the one and of the other in the other. -/
theorem hashKey_agrees_iff {a b : OrbitState Float} (h : a.agrees b = true) :
    a.hashKey.agrees b.hashKey = true ↔
      ¬ a.position.UnlikeZeros b.position ∧ ¬ a.velocity.UnlikeZeros b.velocity := by
  simp only [agrees, Bool.and_eq_true] at h
  obtain ⟨⟨⟨⟨hepoch, hmu⟩, hframe⟩, hposition⟩, hvelocity⟩ := h
  have hepoch' : (a.epoch == b.epoch) = true := hepoch
  have hmu' : (a.mu == b.mu) = true := hmu
  simp only [HashKey.agrees, hashKey, hepoch', hmu', hframe, Bool.true_and, Bool.and_eq_true, beq_iff_eq]
  exact and_congr (Vec3.bits_eq_iff hposition) (Vec3.bits_eq_iff hvelocity)

/-- A body on the first axis, its velocity along the second, and the third component of it given. -/
def crossing (epoch third : Float) : OrbitState Float := ⟨epoch, ⟨7000000, 0, 0⟩, ⟨0, 7500, third⟩, earthMu, .eci⟩

/-- At an epoch of zero the sign of it does no harm. -/
theorem hashKey_agrees_iff_zeroEpoch : (crossing 0 0).agrees (crossing (-0) 0) = true ∧
    (crossing 0 0).hashKey.agrees (crossing (-0) 0).hashKey = true := by
  have h : (crossing 0 0).agrees (crossing (-0) 0) = true := by decide +kernel
  exact ⟨h, (hashKey_agrees_iff h).mpr (by decide +kernel)⟩

/-- The same velocity with a zero of either sign is equal and has two keys. -/
theorem not_hashKey_agrees_signedZero : (crossing 2461095 0).agrees (crossing 2461095 (-0)) = true ∧
    (crossing 2461095 0).hashKey.agrees (crossing 2461095 (-0)).hashKey = false := by
  decide +kernel

end OrbitState

end States

end OrbitFit
