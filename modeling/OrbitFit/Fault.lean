import OrbitFit.Decimal.Fixed
import OrbitFit.Scalar
import OrbitFit.Text.Quoted

/-!
# OrbitFit.Fault — why an operation has no result

A `Fault` is a cause with the values that explain it.  Its `kind` places it in a small hierarchy, so that a
caller can handle one category or a whole family, and its `message` is the text that a person reads.
Arithmetic on plain numbers that has no finite result is a fault as well where an operation promises one:
`powChecked`, `divChecked` and `ratioChecked`.
-/

namespace OrbitFit

inductive FaultKind where
  /-- the root of the library's own categories -/
  | general
  | unknownParameter
  | propagation
  | sampling
  | objective
  | convergence
  | dateRange
  | value
  | missingKey
  | arity
  | overflow
  | zeroDivision
  | index
  | axis
  deriving Repr, DecidableEq, Inhabited

def FaultKind.all : List FaultKind :=
  [.general, .unknownParameter, .propagation, .sampling, .objective, .convergence, .dateRange, .value,
    .missingKey, .arity, .overflow, .zeroDivision, .index, .axis]

/-- The category and every category that contains it. -/
def FaultKind.ancestors : FaultKind → List FaultKind
  | .unknownParameter => [.unknownParameter, .general, .value]
  | .propagation => [.propagation, .general]
  | .sampling => [.sampling, .propagation, .general]
  | .objective => [.objective, .propagation, .general]
  | .convergence => [.convergence, .general]
  | .dateRange => [.dateRange, .general, .value]
  | .axis => [.axis, .value, .index]
  | kind => [kind]

/-- Every fault of the first category belongs to the second. -/
def FaultKind.isA (kind family : FaultKind) : Bool := kind.ancestors.contains family

inductive Fault (α : Type) where
  | raggedArray (shape : List Nat)
  | tooManyExtents
  | operandShapes (first second : List Nat)
  | batchShapes (first second : List Nat)
  | operandRank (operand : Nat)
  | operandSize (size expected : Nat)
  | crossRank
  | crossSize
  | alignment (first second : List Nat) (i j : Nat)
  | ambiguousTruth
  | severalStates
  | vectorShape (label : String) (shape : List Nat)
  | unknownFrame (text : String)
  | emptyHistory
  | duplicateDate (mjd : α)
  | rowWidth (width : Nat)
  | noEntry (mjd : α)
  | outsideHistory (mjd first last : α)
  | threshold (value : α)
  | iterationLimit (value : Int)
  | differenceScheme (text : String)
  | settingNotReal (text : String)
  | settingNotInteger (text : String)
  | settingTooLong (digits : Nat)
  | unknownParameter (name : String) (available : List String)
  | parameterRank (name : String)
  | parameterShape (name : String) (dimension : Nat) (shape : List Nat)
  | pointShape (expected free : Nat) (shape : List Nat)
  | gravitation (mu : α)
  | nonFiniteState
  | degenerateState
  | unboundOrbit (eccentricity : α)
  | segmentDuration (value : α)
  | segmentSizes
  | segmentShapes
  | segmentAxis (rank : Nat)
  | segmentExtents (extents limit : Nat)
  | emptyPolynomial
  | operatorIndex (rho sigma : Int)
  | operatorMissing (rho sigma : Nat)
  | samplePoints (count : Int)
  | sampleSpan (span : α)
  | samplingFailed (offset : α) (cause : Fault α)
  /-- what stands for requests that never end -/
  | samplingEndless
  | emptySample
  | tooFewStates (minimum count : Nat)
  | nothingToJoin
  | weightShape (target weight : List Nat)
  | weightSign
  | evaluationLimit
  | guessRank
  | guessInfeasible
  | toleranceTooSmall
  | noUsableTolerance
  | modelRank (shape : List Nat)
  | startRank
  | derivativeShape (residuals unknowns found : Nat)
  | matrixNotFinite
  | startNotFinite
  | modelShape (found expected : List Nat)
  | modelNotFinite
  | noConvergence (evaluations limit : Int)
  | overflow
  | divisionByZero
  | indexOutOfRange
  /-- a fault that a model outside the library reports -/
  | reported (kind : FaultKind) (text : String)
  deriving Inhabited

namespace Fault

variable {α : Type}

def kind : Fault α → FaultKind
  | unknownParameter .. => .unknownParameter
  | gravitation _ | nonFiniteState | degenerateState | unboundOrbit _ => .propagation
  | samplingFailed .. | samplingEndless => .sampling
  | modelShape .. | modelNotFinite => .objective
  | noConvergence .. => .convergence
  | outsideHistory .. => .dateRange
  | noEntry _ | operatorMissing .. => .missingKey
  | rowWidth _ | severalStates => .arity
  | overflow => .overflow
  | divisionByZero => .zeroDivision
  | indexOutOfRange | segmentExtents .. => .index
  | segmentAxis _ => .axis
  | reported kind _ => kind
  | _ => .value

/-- The fault that made this one happen. -/
def cause? : Fault α → Option (Fault α)
  | samplingFailed _ cause => some cause
  | _ => none

open Decimal Text

/-- The extents that the product of matrices is stated for. -/
def productSignature : String := "(n?,k),(k,m?)->(n?,m?)"

def message : Fault Float → String
  | raggedArray shape =>
    "setting an array element with a sequence. The requested array has an inhomogeneous shape after " ++
      toString shape.length ++ " dimensions. The detected shape was " ++ tuple shape ++
      " + inhomogeneous part."
  | tooManyExtents =>
    "setting an array element with a sequence. The requested array would exceed the maximum number of " ++
      "dimension of 64."
  | operandShapes first second =>
    "operands could not be broadcast together with shapes " ++ denseTuple first ++ " " ++
      denseTuple second ++ " "
  | batchShapes first second =>
    "shape mismatch: objects cannot be broadcast to a single shape.  Mismatch is between arg 0 with " ++
      "shape " ++ denseTuple first ++ " and arg 1 with shape " ++ denseTuple second ++ "."
  | operandRank operand =>
    "matmul: Input operand " ++ toString operand ++
      " does not have enough dimensions (has 0, gufunc core with signature " ++ productSignature ++
      " requires 1)"
  | operandSize size expected =>
    "matmul: Input operand 1 has a mismatch in its core dimension 0, with gufunc signature " ++
      productSignature ++ " (size " ++ toString size ++ " is different from " ++ toString expected ++ ")"
  | crossRank => "At least one array has zero dimension"
  | crossSize => "incompatible dimensions for cross product\n(dimension must be 2 or 3)"
  | alignment first second i j =>
    "shapes " ++ denseTuple first ++ " and " ++ denseTuple second ++ " not aligned: " ++
      toString (first.getD i 0) ++ " (dim " ++ toString i ++ ") != " ++ toString (second.getD j 0) ++
      " (dim " ++ toString j ++ ")"
  | ambiguousTruth =>
    "The truth value of an array with more than one element is ambiguous. Use a.any() or a.all()"
  | severalStates => "an array of several states where one is expected"
  | vectorShape label shape => label ++ " must have shape (3,), got " ++ tuple shape
  | unknownFrame text => "Unknown frame " ++ quoted text ++ ". Valid: " ++ quotedList ["eci", "ecr"]
  | emptyHistory => "EOP history requires at least one entry"
  | duplicateDate mjd => "duplicate EOP entry for MJD " ++ render mjd
  | rowWidth width => "EOP row of width " ++ toString width
  | noEntry mjd => "no EOP entry at MJD " ++ render mjd
  | outsideHistory mjd first last =>
    "no Earth orientation data for MJD " ++ render mjd ++ ", history covers [" ++ render first ++ ", " ++
      render last ++ "]"
  | threshold value => "threshold must be positive, got " ++ render value
  | iterationLimit value => "max_iterations must be >= 1, got " ++ toString value
  | differenceScheme text =>
    "jacobian must be one of ('2-point', '3-point'), got " ++ quoted text
  | settingNotReal text =>
    "invalid converter setting in environment: could not convert string to float: " ++ quoted text
  | settingNotInteger text =>
    "invalid converter setting in environment: invalid literal for int() with base 10: " ++
      ((quoted text).take 200).toString
  | settingTooLong digits =>
    "invalid converter setting in environment: Exceeds the limit (4300 digits) for integer string " ++
      "conversion: value has " ++ toString digits ++
      " digits; use sys.set_int_max_str_digits() to increase the limit"
  | unknownParameter name available =>
    "unknown parameter " ++ quoted name ++ ", supported parameters: " ++
      (let names := String.intercalate ", " available
       if names.isEmpty then "(none)" else names)
  | parameterRank name => "parameter " ++ quoted name ++ " value must be 1-D"
  | parameterShape name dimension shape =>
    "parameter " ++ quoted name ++ " has dimension " ++ toString dimension ++
      ", cannot set value of shape " ++ tuple shape
  | pointShape expected free shape =>
    "parameter vector must have " ++ toString expected ++ " elements (6 + " ++ toString free ++
      " free), got shape " ++ tuple shape
  | gravitation mu => "gravitational parameter must be positive, got " ++ render mu
  | nonFiniteState => "non-finite initial state"
  | degenerateState => "degenerate state: zero position or angular momentum"
  | unboundOrbit e =>
    "hyperbolic/parabolic orbit (e = " ++ fixed 6 e ++ ") cannot be propagated"
  | segmentDuration value => "duration must be positive, got " ++ render value
  | segmentSizes => "x, y, z coefficient arrays must be non-empty and equal length"
  | segmentShapes => "all input arrays must have the same shape"
  | segmentAxis rank => "axis 1 is out of bounds for array of dimension " ++ toString rank
  | segmentExtents extents limit =>
    "number of dimensions must be within [0, " ++ toString limit ++ "], indexing result would have " ++
      toString extents
  | emptyPolynomial => "Coefficient array is empty"
  | operatorIndex rho sigma =>
    "Newcomb operator indices must be >= 0, got (" ++ toString rho ++ ", " ++ toString sigma ++ ")"
  | operatorMissing rho sigma => "(" ++ toString rho ++ ", " ++ toString sigma ++ ")"
  | samplePoints count => "nb_points must be >= 2, got " ++ toString count
  | sampleSpan span => "time_span must be positive, got " ++ render span
  | samplingFailed offset cause =>
    "propagation failed " ++ fixed 3 offset ++ " s after the initial epoch: " ++ cause.message
  | samplingEndless => "sampling does not end"
  | emptySample => "cannot build fit targets from an empty sample"
  | tooFewStates minimum count =>
    "at least " ++ toString minimum ++ " states are required, got " ++ toString count
  | nothingToJoin => "need at least one array to concatenate"
  | weightShape target weight =>
    "target " ++ tuple target ++ " and weight " ++ tuple weight ++ " differ in shape"
  | weightSign => "weights must be strictly positive"
  | evaluationLimit => "`max_nfev` must be None or positive integer."
  | guessRank => "`x0` must have at most 1 dimension."
  | guessInfeasible => "Initial guess is outside of provided bounds"
  | toleranceTooSmall => "All tolerances must be higher than machine epsilon (2.22e-16) for method 'lm'."
  | noUsableTolerance => "At least one of the tolerances must be higher than machine epsilon (2.22e-16)."
  | modelRank shape => "`fun` must return at most 1-d array_like. f0.shape: " ++ tuple shape
  | startRank => "`f0` passed has more than 1 dimension."
  | derivativeShape residuals unknowns found =>
    "The return value of `jac` has wrong shape: expected " ++ tuple [residuals, unknowns] ++ ", actual " ++
      tuple [residuals, found] ++ "."
  | matrixNotFinite => "array must not contain infs or NaNs"
  | startNotFinite => "Residuals are not finite in the initial point."
  | modelShape found expected =>
    "model returned shape " ++ tuple found ++ ", expected " ++ tuple expected
  | modelNotFinite => "model returned non-finite values"
  | noConvergence evaluations limit =>
    "maximal count (" ++ toString limit ++ ") exceeded: " ++ toString evaluations ++
      " objective evaluations without convergence"
  | overflow => "(34, 'Numerical result out of range')"
  | divisionByZero => "float division by zero"
  | indexOutOfRange => "index out of range"
  | reported _ text => text

end Fault

variable {α : Type} [Scalar α]

/-- A power whose finite operand gives a finite result. -/
def powChecked (x : α) (n : Nat) : Except (Fault α) α :=
  let y := Scalar.pow x n
  if Scalar.isFinite x && !Scalar.isFinite y then .error .overflow else .ok y

/-- A quotient by a number other than zero. -/
def divChecked (x y : α) : Except (Fault α) α :=
  if y == 0 then .error .divisionByZero else .ok (x / y)

/-- A quotient of integers within the range of the type. -/
def ratioChecked (n d : Int) : Except (Fault α) α :=
  let y : α := Scalar.ratio n d
  if Scalar.isFinite y then .ok y else .error .overflow

/-- A number with its fraction dropped, if it is finite. -/
def truncChecked (x : α) : Except (Fault α) Int :=
  if Scalar.isFinite x then .ok (Scalar.trunc x) else .error .overflow

end OrbitFit
