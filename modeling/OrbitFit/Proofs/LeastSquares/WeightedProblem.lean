import OrbitFit.LeastSquares.ClosedForm
import OrbitFit.Proofs.LeastSquares.Budget
import OrbitFit.Proofs.NdArray.Row

/-!
# OrbitFit.Proofs.LeastSquares.WeightedProblem — the problem that a solver is given

A weighted fit gives its solver two functions, one for the residuals and one for their derivatives, and nothing else of
the objective: the fit is the solver at work with these two (`Optimizer.ending_weighted`).  In exact arithmetic they are
the weighted problem.  The sum of the squared residuals is the weighted sum of the squared misfits, the derivatives are
those of the residuals, and so the gradient that a solver makes of both is that of the weighted sum
(`Optimizer.weighted_handsOver`).
-/

namespace OrbitFit

open OrbitFit.Action

/-! ## A solver at work -/

section Play

variable {α σ β : Type}

/-- A strategy at work with two functions, within a budget of residuals.  The number counts the residuals asked for. -/
def Strategy.play (residual : List α → Action α σ (List α)) (jacobian : List α → Action α σ (List (List α)))
    (budget : ℤ) : Strategy α β → ℕ → Action α σ (β × ℕ)
  | done result, count => pure (result, count)
  | stop fault, _ => throw fault
  | .residual point next, count =>
    if budget ≤ (count : ℤ) then throw (.noConvergence count budget)
    else do
      let values ← residual point
      play residual jacobian budget (next values) (count + 1)
  | .jacobian point next, count => do
    let rows ← jacobian point
    play residual jacobian budget (next rows) count

/-- What a run ends with, and the state that it leaves its objective in. -/
def Run.ending (o : Objective α σ) (run : Run α β) (s : σ) : Except (Fault α) β × σ :=
  ((run.against o s).1.1, (run.against o s).2)

variable {o : Objective α σ} {s s' : σ} {point : NdArray α} {next : Except (Fault α) (NdArray α) → Run α β}
  {answer : Except (Fault α) (NdArray α)}

@[simp] theorem Run.ending_done (result : Except (Fault α) β) : (done result).ending o s = (result, s) := rfl

theorem Run.ending_value (h : exec (o.value point) s = (answer, s')) :
    (value point next).ending o s = (next answer).ending o s' := by
  rw [ending, against_value, h]
  rfl

theorem Run.ending_jacobian_some {derivatives : NdArray α → Action α σ (NdArray α)}
    (ho : o.jacobian = some derivatives) (h : exec (derivatives point) s = (answer, s')) :
    (jacobian point next).ending o s = (next answer).ending o s' := by
  rw [ending, against_jacobian_some s point next ho, h]
  rfl

theorem Run.ending_jacobian_none (ho : o.jacobian = none) :
    (jacobian point next).ending o s = (next (.error .indexOutOfRange)).ending o s := by
  rw [ending, against_jacobian_none s point next ho]
  rfl

namespace Optimizer

variable [Scalar α] (p : FitProblem α) (o : Objective α σ)

/-- The residuals that a fit gives its solver. -/
def handedResidual (point : List α) : Action α σ (List α) := do
  let model ← o.value (NdArray.ofList point)
  match modelFault? p.target model with
  | some fault => throw fault
  | none => return weightedResidual p.weight.data model.data p.target.data

/-- The derivatives that a fit gives its solver. -/
def handedJacobian (point : List α) : Action α σ (List (List α)) :=
  match o.jacobian with
  | some derivatives => do
    let model ← derivatives (NdArray.ofList point)
    return weightedJacobian p.weight.data model.rows
  | none => throw .indexOutOfRange

/-- A strategy at work with the two functions of a fit, up to what the fit makes of its outcome. -/
def fitWith (t : Strategy α (SolverOutcome α)) (count : ℕ) : Action α σ (Optimum α) := do
  let (outcome, count) ← t.play (handedResidual p o) (handedJacobian p o) p.maxEvaluations count
  Action.ofExcept (conclude p outcome count)

variable {p o}

/-- **A fit of a row is its solver at work with the two functions**, whatever the solver asks for. -/
theorem ending_follow (hrow : p.target.shape.length = 1) (t : Strategy α (SolverOutcome α)) (count : ℕ) (s : σ) :
    (follow p t count).ending o s = exec (fitWith p o t count) s := by
  -- both ask the objective once for what the solver asks for, so their states stay equal
  induction t generalizing count s with
  | done outcome => rfl
  | stop fault => rfl
  | residual point next ih =>
    rw [follow, fitWith, Strategy.play]
    by_cases hfull : p.maxEvaluations ≤ (count : ℤ)
    · rw [if_pos hfull, if_pos hfull]
      rfl
    · rw [if_neg hfull, if_neg hfull, bind_assoc, exec_bind, handedResidual, exec_bind]
      obtain ⟨answer, s', h⟩ : ∃ answer s', exec (o.value (NdArray.ofList point)) s = (answer, s') := ⟨_, _, rfl⟩
      rw [Run.ending_value h, h]
      cases answer with
      | error fault => rfl
      | ok model =>
        dsimp only
        cases modelFault? p.target model with
        | some fault => rfl
        | none =>
          have hrank : ¬ 1 < p.target.shape.length := by omega
          dsimp only
          rw [if_neg hrank, ih, fitWith]
          rfl
  | jacobian point next ih =>
    have hempty : ¬ p.target.shape.isEmpty = true := by
      intro h
      rw [List.isEmpty_iff.mp h] at hrow
      cases hrow
    rw [follow, if_neg hempty, fitWith, Strategy.play, bind_assoc, exec_bind, handedJacobian]
    cases ho : o.jacobian with
    | none =>
      rw [Run.ending_jacobian_none ho]
      rfl
    | some derivatives =>
      obtain ⟨answer, s', h⟩ : ∃ answer s', exec (derivatives (NdArray.ofList point)) s = (answer, s') := ⟨_, _, rfl⟩
      rw [Run.ending_jacobian_some ho h]
      dsimp only
      rw [exec_bind, h]
      cases answer with
      | error fault => rfl
      | ok model =>
        dsimp only
        rw [ih, fitWith]
        rfl

/-- A fit without a fault in its problem, from its solver on. -/
theorem ending_weighted (hproblem : problemFault? p = none) (hrow : p.target.shape.length = 1) (solver : Solver α)
    (threshold : α) (scheme : DifferenceScheme) (s : σ) :
    (weighted solver threshold scheme p).ending o s =
      if p.maxEvaluations ≤ 0 then (.error .evaluationLimit, s)
      else if 1 < p.guess.shape.length then (.error .guessRank, s)
      else exec (fitWith p o
        (solver ⟨method p, p.guess.data, p.analytic, scheme, threshold, p.maxEvaluations⟩) 0) s := by
  rw [weighted, hproblem]
  dsimp only
  split_ifs with hmax hrank
  · rfl
  · rfl
  · exact ending_follow hrow _ 0 s

end Optimizer

end Play

/-! ## Vectors and matrices as arrays -/

section Arrays

variable {m n : ℕ}

theorem NdArray.parts_flatten {β : Type} {length : ℕ} (rows : List (List β)) (h : ∀ row ∈ rows, row.length = length) :
    parts length rows.length rows.flatten = rows := by
  induction rows with
  | nil => rfl
  | cons row rows ih =>
    have hrow : row.length = length := h row (by simp)
    rw [List.flatten_cons, List.length_cons, parts, ← hrow, List.take_left, List.drop_left, hrow,
      ih fun other hother => h other (List.mem_cons_of_mem _ hother)]

/-- The coordinates of a vector. -/
def coordinates (x : EuclideanSpace ℝ (Fin n)) : List ℝ := List.ofFn fun i => x i

/-- The rows of a matrix. -/
def matrixRows (A : Matrix (Fin m) (Fin n) ℝ) : List (List ℝ) := List.ofFn fun i => List.ofFn fun k => A i k

/-- A vector as a row of numbers. -/
def NdArray.ofVector (x : EuclideanSpace ℝ (Fin n)) : NdArray ℝ := NdArray.ofList (coordinates x)

/-- A matrix as an array with two extents. -/
def NdArray.ofMatrix (A : Matrix (Fin m) (Fin n) ℝ) : NdArray ℝ := NdArray.arrange [m, n] (matrixRows A).flatten

theorem length_coordinates (x : EuclideanSpace ℝ (Fin n)) : (coordinates x).length = n := List.length_ofFn

theorem length_of_mem_matrixRows {A : Matrix (Fin m) (Fin n) ℝ} {row : List ℝ} (h : row ∈ matrixRows A) :
    row.length = n := by
  obtain ⟨i, rfl⟩ := (List.mem_ofFn' _ _).mp h
  exact List.length_ofFn

theorem NdArray.shape_ofVector (x : EuclideanSpace ℝ (Fin n)) : (ofVector x).shape = [n] := by
  rw [ofVector, shape_ofList, length_coordinates]

/-- The rows of a matrix are read back from its array. -/
theorem NdArray.rows_ofMatrix (A : Matrix (Fin m) (Fin n) ℝ) : (ofMatrix A).rows = matrixRows A := by
  have hcount : (matrixRows A).length = m := List.length_ofFn
  have hlength : (matrixRows A).flatten.length = entryCount [m, n] := by
    rw [List.length_flatten, List.map_congr_left fun row => length_of_mem_matrixRows, List.map_const',
      List.sum_replicate, hcount]
    simp [entryCount]
  -- the entries are as many as the shape says, so the array is not cut or filled up
  have harray : ofMatrix A = ⟨[m, n], (matrixRows A).flatten, hlength⟩ := dif_pos hlength
  have h := parts_flatten (matrixRows A) fun row => length_of_mem_matrixRows
  rw [hcount] at h
  rw [harray]
  simpa [rows, width, batch, entryCount] using h

end Arrays

/-! ## The weighted problem -/

section Exact

open Optimizer Matrix

variable {σ : Type} {m n : ℕ}

/-- The linear map of a matrix. -/
noncomputable def linearMap (A : Matrix (Fin m) (Fin n) ℝ) :
    EuclideanSpace ℝ (Fin n) →L[ℝ] EuclideanSpace ℝ (Fin m) := LinearMap.toContinuousLinearMap A.toEuclideanLin

theorem linearMap_apply (A : Matrix (Fin m) (Fin n) ℝ) (x : EuclideanSpace ℝ (Fin n)) (i : Fin m) :
    linearMap A x i = ∑ k, A i k * x k := rfl

/-- The transpose stands on the other side of an inner product. -/
theorem inner_linearMap_transpose (A : Matrix (Fin m) (Fin n) ℝ) (y : EuclideanSpace ℝ (Fin m))
    (x : EuclideanSpace ℝ (Fin n)) : inner ℝ (linearMap Aᵀ y) x = inner ℝ y (linearMap A x) := by
  have hadjoint : Aᵀ.toEuclideanLin = A.toEuclideanLin.adjoint := by
    rw [← toEuclideanLin_conjTranspose_eq_adjoint, conjTranspose_eq_transpose_of_trivial]
  show inner ℝ (Aᵀ.toEuclideanLin y) x = inner ℝ y (A.toEuclideanLin x)
  rw [hadjoint, LinearMap.adjoint_inner_left]

/-- The weighted sum of the squared misfits of a model. -/
noncomputable def weightedSquares (weight target model : EuclideanSpace ℝ (Fin m)) : ℝ :=
  ∑ i, weight i * (target i - model i) ^ 2

/-- The misfits of a model, each times the root of its weight. -/
noncomputable def weightedMisfit (weight target model : EuclideanSpace ℝ (Fin m)) : EuclideanSpace ℝ (Fin m) :=
  WithLp.toLp _ fun i => √(weight i) * (model i - target i)

/-- The rows of a matrix, each times the root of its weight. -/
noncomputable def weightedMatrix (weight : EuclideanSpace ℝ (Fin m)) (A : Matrix (Fin m) (Fin n) ℝ) :
    Matrix (Fin m) (Fin n) ℝ := Matrix.of fun i k => √(weight i) * A i k

variable {weight target : EuclideanSpace ℝ (Fin m)}

theorem weightedResidual_coordinates (weight target model : EuclideanSpace ℝ (Fin m)) :
    weightedResidual (coordinates weight) (coordinates model) (coordinates target) =
      coordinates (weightedMisfit weight target model) := by
  unfold weightedResidual coordinates
  refine List.ext_getElem (by simp) fun i h h' => ?_
  simp [weightedMisfit]

theorem weightedJacobian_matrixRows (weight : EuclideanSpace ℝ (Fin m)) (A : Matrix (Fin m) (Fin n) ℝ) :
    weightedJacobian (coordinates weight) (matrixRows A) = matrixRows (weightedMatrix weight A) := by
  unfold weightedJacobian coordinates matrixRows
  refine List.ext_getElem (by simp) fun i h h' => ?_
  simp [weightedMatrix, List.map_ofFn, Function.comp_def]

/-- The squares of the roots are the weights. -/
theorem norm_weightedMisfit_sq (hpos : ∀ i, 0 < weight i) (model : EuclideanSpace ℝ (Fin m)) :
    ‖weightedMisfit weight target model‖ ^ 2 = weightedSquares weight target model := by
  rw [weightedSquares, EuclideanSpace.norm_sq_eq]
  refine Finset.sum_congr rfl fun i _ => ?_
  have hroot : √(weight i) ^ 2 = weight i := Real.sq_sqrt (hpos i).le
  calc ‖√(weight i) * (model i - target i)‖ ^ 2
    _ = √(weight i) ^ 2 * (model i - target i) ^ 2 := by rw [Real.norm_eq_abs, sq_abs, mul_pow]
    _ = weight i * (target i - model i) ^ 2 := by rw [hroot, sub_sq_comm]

variable {f : EuclideanSpace ℝ (Fin n) → EuclideanSpace ℝ (Fin m)} {A : Matrix (Fin m) (Fin n) ℝ}
  {domain : Set (EuclideanSpace ℝ (Fin n))} {x : EuclideanSpace ℝ (Fin n)}

/-- A constant misfit has no derivative, and a root of a weight is a factor of both. -/
theorem hasFDerivWithinAt_weightedMisfit (hf : HasFDerivWithinAt f (linearMap A) domain x) :
    HasFDerivWithinAt (fun y => weightedMisfit weight target (f y)) (linearMap (weightedMatrix weight A)) domain x := by
  rw [hasFDerivWithinAt_euclidean] at hf ⊢
  intro i
  have hrow : PiLp.proj 2 (fun _ => ℝ) i ∘L linearMap (weightedMatrix weight A) =
      √(weight i) • (PiLp.proj 2 (fun _ => ℝ) i ∘L linearMap A) := by
    ext h
    show linearMap (weightedMatrix weight A) h i = √(weight i) * linearMap A h i
    rw [linearMap_apply, linearMap_apply, Finset.mul_sum]
    exact Finset.sum_congr rfl fun k _ => mul_assoc _ _ _
  rw [hrow]
  exact ((hf i).sub_const (target i)).const_mul _

/-- The gradient of half a squared norm. -/
theorem hasGradientWithinAt_half_norm {r : EuclideanSpace ℝ (Fin n) → EuclideanSpace ℝ (Fin m)}
    (hr : HasFDerivWithinAt r (linearMap A) domain x) :
    HasGradientWithinAt (fun y => 1 / 2 * ‖r y‖ ^ 2) (linearMap Aᵀ (r x)) domain x := by
  rw [hasGradientWithinAt_iff_hasFDerivWithinAt]
  refine (hr.norm_sq.const_mul (1 / 2)).congr_fderiv ?_
  ext h
  rw [InnerProductSpace.toDual_apply_apply, inner_linearMap_transpose]
  simp

/-- In some states, which it does not leave, an objective has the values and the derivatives of a function at every
point of a domain. -/
structure Objective.Gives (o : Objective ℝ σ) (states : Set σ) (domain : Set (EuclideanSpace ℝ (Fin n)))
    (f : EuclideanSpace ℝ (Fin n) → EuclideanSpace ℝ (Fin m))
    (D : EuclideanSpace ℝ (Fin n) → Matrix (Fin m) (Fin n) ℝ) : Prop where
  value : ∀ x ∈ domain, ∀ s ∈ states, ∃ s' ∈ states,
    exec (o.value (.ofVector x)) s = (.ok (.ofVector (f x)), s')
  jacobian : ∃ derivatives, o.jacobian = some derivatives ∧ ∀ x ∈ domain, ∀ s ∈ states, ∃ s' ∈ states,
    exec (derivatives (.ofVector x)) s = (.ok (.ofMatrix (D x)), s')
  hasFDerivWithinAt : ∀ x ∈ domain, HasFDerivWithinAt f (linearMap (D x)) domain x

namespace Optimizer

/-- The fit of a model to a vector, where derivatives can be asked for. -/
def vectorFit (budget : ℤ) (target weight : EuclideanSpace ℝ (Fin m)) (guess : NdArray ℝ) : FitProblem ℝ :=
  ⟨budget, .ofVector target, .ofVector weight, guess, true⟩

/-- A fit is its solver at work with two functions, for the residuals and for their derivatives. -/
structure HandsOver (p : FitProblem ℝ) (o : Objective ℝ σ) (states : Set σ)
    (domain : Set (EuclideanSpace ℝ (Fin n))) (r : EuclideanSpace ℝ (Fin n) → EuclideanSpace ℝ (Fin m))
    (J : EuclideanSpace ℝ (Fin n) → Matrix (Fin m) (Fin n) ℝ) : Prop where
  ending : ∀ solver threshold scheme s, (weighted solver threshold scheme p).ending o s =
    if p.maxEvaluations ≤ 0 then (.error .evaluationLimit, s)
    else if 1 < p.guess.shape.length then (.error .guessRank, s)
    else exec (fitWith p o (solver ⟨method p, p.guess.data, true, scheme, threshold, p.maxEvaluations⟩) 0) s
  residual : ∀ x ∈ domain, ∀ s ∈ states, ∃ s' ∈ states,
    exec (handedResidual p o (coordinates x)) s = (.ok (coordinates (r x)), s')
  jacobian : ∀ x ∈ domain, ∀ s ∈ states, ∃ s' ∈ states,
    exec (handedJacobian p o (coordinates x)) s = (.ok (matrixRows (J x)), s')

variable {o : Objective ℝ σ} {states : Set σ} {D : EuclideanSpace ℝ (Fin n) → Matrix (Fin m) (Fin n) ℝ}

theorem shape_target_vectorFit (budget : ℤ) (target weight : EuclideanSpace ℝ (Fin m)) (guess : NdArray ℝ) :
    (vectorFit budget target weight guess).target.shape = [m] := NdArray.shape_ofVector target

theorem problemFault?_vectorFit (hpos : ∀ i, 0 < weight i) (budget : ℤ) (target : EuclideanSpace ℝ (Fin m))
    (guess : NdArray ℝ) : problemFault? (vectorFit budget target weight guess) = none := by
  have hshape : (vectorFit budget target weight guess).weight.shape = [m] := NdArray.shape_ofVector weight
  have hsign : ((vectorFit budget target weight guess).weight.data.any fun w => decide (w ≤ 0)) = false := by
    simpa [vectorFit, NdArray.ofVector, coordinates] using hpos
  rw [problemFault?, shape_target_vectorFit, hshape, if_neg (by simp), if_neg (by simp [hsign])]

/-- Each of the two functions asks the objective once and weights what it answers. -/
theorem handsOver_vectorFit (ho : o.Gives states domain f D) (hpos : ∀ i, 0 < weight i) (budget : ℤ)
    (target : EuclideanSpace ℝ (Fin m)) (guess : NdArray ℝ) :
    HandsOver (vectorFit budget target weight guess) o states domain (fun x => weightedMisfit weight target (f x))
      (fun x => weightedMatrix weight (D x)) := by
  refine ⟨?_, ?_, ?_⟩
  · intro solver threshold scheme s
    have hrow : (vectorFit budget target weight guess).target.shape.length = 1 := by
      rw [shape_target_vectorFit]
      rfl
    exact ending_weighted (problemFault?_vectorFit hpos budget target guess) hrow solver threshold scheme s
  · intro x hx s hs
    obtain ⟨s', hs', hvalue⟩ := ho.value x hx s hs
    -- over the reals every number is finite, so only the shape could be wrong
    have hfault : modelFault? (vectorFit budget target weight guess).target (.ofVector (f x)) = none := by
      simp [modelFault?, shape_target_vectorFit, NdArray.shape_ofVector]
    refine ⟨s', hs', ?_⟩
    refine (exec_bind_ok hvalue _).trans ?_
    rw [hfault, ← weightedResidual_coordinates]
    rfl
  · intro x hx s hs
    obtain ⟨derivatives, hderivatives, hgives⟩ := ho.jacobian
    obtain ⟨s', hs', hvalue⟩ := hgives x hx s hs
    refine ⟨s', hs', ?_⟩
    rw [handedJacobian, hderivatives]
    refine (exec_bind_ok hvalue _).trans ?_
    rw [NdArray.rows_ofMatrix, ← weightedJacobian_matrixRows]
    rfl

/-- **The problem that a solver is given is the weighted one.**  Half the squared norm of the residuals is half the
weighted sum of the squared misfits, the derivatives are those of the residuals, and their transpose takes the
residuals to the gradient of that cost.  Damped least squares is chosen where there are at least as many components as
unknowns. -/
theorem weighted_handsOver (ho : o.Gives states domain f D) (hpos : ∀ i, 0 < weight i) (budget : ℤ)
    (target : EuclideanSpace ℝ (Fin m)) {guess : NdArray ℝ} (hguess : guess.size = n) :
    (∃ (r : EuclideanSpace ℝ (Fin n) → EuclideanSpace ℝ (Fin m))
        (J : EuclideanSpace ℝ (Fin n) → Matrix (Fin m) (Fin n) ℝ),
      HandsOver (vectorFit budget target weight guess) o states domain r J ∧ ∀ x ∈ domain,
        1 / 2 * ‖r x‖ ^ 2 = 1 / 2 * weightedSquares weight target (f x) ∧
        HasFDerivWithinAt r (linearMap (J x)) domain x ∧
        HasGradientWithinAt (fun y => 1 / 2 * weightedSquares weight target (f y)) (linearMap (J x)ᵀ (r x))
          domain x) ∧
      (method (vectorFit budget target weight guess) = .lm ↔ n ≤ m) := by
  refine ⟨⟨_, _, handsOver_vectorFit ho hpos budget target guess, ?_⟩, ?_⟩
  · intro x hx
    have hr : HasFDerivWithinAt (fun y => weightedMisfit weight target (f y)) _ domain x :=
      hasFDerivWithinAt_weightedMisfit (ho.hasFDerivWithinAt x hx)
    refine ⟨by rw [norm_weightedMisfit_sq hpos], hr, ?_⟩
    have hgradient := hasGradientWithinAt_half_norm hr
    simp only [norm_weightedMisfit_sq hpos] at hgradient
    exact hgradient
  · have hsize : (vectorFit budget target weight guess).target.size = m := length_coordinates target
    unfold method Method.choose unknowns
    rw [hsize, show (vectorFit budget target weight guess).guess.size = n from hguess]
    split_ifs with hle
    · exact iff_of_true rfl hle
    · exact iff_of_false nofun hle

/-- The model of the bent valley has the derivatives that it gives. -/
theorem gives_valley : (ClosedForm.valley.objective true none : Objective ℝ Usage).Gives Set.univ Set.univ
    (fun x : EuclideanSpace ℝ (Fin 2) => WithLp.toLp 2 ![10 * (x 1 - x 0 * x 0), 1 - x 0])
    (fun x => !![-20 * x 0, 10; -1, 0]) := by
  have hcoordinates : ∀ x : EuclideanSpace ℝ (Fin 2), coordinates x = [x 0, x 1] := by
    intro x
    simp [coordinates]
  refine ⟨?_, ⟨_, rfl, ?_⟩, ?_⟩
  · intro x _ u _
    refine ⟨{ u with values := u.values + 1 }, trivial, ?_⟩
    rw [NdArray.ofVector, NdArray.ofVector, hcoordinates, hcoordinates]
    show (Except.ok (NdArray.ofList [10.0 * (x 1 - x 0 * x 0), 1 - x 0]), _) = _
    norm_num
  · intro x _ u _
    refine ⟨{ u with derivatives := u.derivatives + 1 }, trivial, ?_⟩
    have hrows : matrixRows !![-20 * x 0, 10; -1, 0] = [[-20 * x 0, 10], [-1, 0]] := by
      simp [matrixRows]
    rw [NdArray.ofVector, hcoordinates, NdArray.ofMatrix, hrows]
    show (Except.ok (NdArray.arrange [2, 2] [(-20.0) * x 0, 10.0, -1, 0]), _) = _
    norm_num
  · intro x _
    rw [hasFDerivWithinAt_euclidean]
    have h : ∀ k : Fin 2, HasFDerivWithinAt (fun y : EuclideanSpace ℝ (Fin 2) => y k)
        (EuclideanSpace.proj k : EuclideanSpace ℝ (Fin 2) →L[ℝ] ℝ) Set.univ x := by
      intro k
      exact (EuclideanSpace.proj k : EuclideanSpace ℝ (Fin 2) →L[ℝ] ℝ).hasFDerivWithinAt
    intro i
    fin_cases i
    · refine (((h 1).sub ((h 0).mul (h 0))).const_mul 10).congr_fderiv ?_
      ext v
      show _ = linearMap _ v 0
      simp [linearMap_apply]
      ring
    · refine ((h 0).const_sub 1).congr_fderiv ?_
      ext v
      show _ = linearMap _ v 1
      simp [linearMap_apply]

/-- In the valley, with the second component weighing more: the cost of the origin, and the method. -/
theorem weighted_handsOver_valley :
    (∃ (r : EuclideanSpace ℝ (Fin 2) → EuclideanSpace ℝ (Fin 2))
        (J : EuclideanSpace ℝ (Fin 2) → Matrix (Fin 2) (Fin 2) ℝ),
      HandsOver (vectorFit 100 0 (WithLp.toLp 2 ![4, 9]) (.ofList [-1.2, 1]))
        (ClosedForm.valley.objective true none : Objective ℝ Usage) Set.univ Set.univ r J ∧
      1 / 2 * ‖r 0‖ ^ 2 = 9 / 2 ∧ HasFDerivAt r (linearMap (J 0)) 0) ∧
      method (vectorFit 100 0 (WithLp.toLp 2 ![4, 9] : EuclideanSpace ℝ (Fin 2)) (.ofList [-1.2, 1])) = .lm := by
  have hpos : ∀ i : Fin 2, 0 < (WithLp.toLp 2 ![4, 9] : EuclideanSpace ℝ (Fin 2)) i := by
    intro i
    fin_cases i <;> norm_num
  obtain ⟨⟨r, J, hover, hexact⟩, hmethod⟩ :=
    weighted_handsOver gives_valley hpos 100 0 (show (NdArray.ofList [-1.2, 1]).size = 2 from rfl)
  obtain ⟨hcost, hderivative, -⟩ := hexact 0 trivial
  refine ⟨⟨r, J, hover, ?_, hasFDerivWithinAt_univ.mp hderivative⟩, hmethod.mpr le_rfl⟩
  rw [hcost, weightedSquares]
  norm_num [Fin.sum_univ_two]

end Optimizer

end Exact

end OrbitFit
