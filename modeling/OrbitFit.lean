import OrbitFit.Chebyshev
import OrbitFit.Converter
import OrbitFit.Decimal.Group
import OrbitFit.Frame.Batch
import OrbitFit.LeastSquares.ClosedForm
import OrbitFit.LeastSquares.Optimizer
import OrbitFit.LeastSquares.Standard
import OrbitFit.LogTree
import OrbitFit.Newcomb.Cache
import OrbitFit.Orbit.Batch
import OrbitFit.Proofs.Builder.Evaluation
import OrbitFit.Proofs.Fit.Layout
import OrbitFit.Proofs.Fit.Sampling
import OrbitFit.Proofs.Frame.Conversion
import OrbitFit.Proofs.LeastSquares.Budget
import OrbitFit.Proofs.LeastSquares.Transcript
import OrbitFit.Proofs.Newcomb.Values
import OrbitFit.Proofs.Orbit.Flow
import OrbitFit.Proofs.Orbit.Integrals
import OrbitFit.Propagator.Stepping
import OrbitFit.Release
import OrbitFit.Sampling
import OrbitFit.Settings
import OrbitFit.Targets
import OrbitFit.Proofs.Fit.SelfFit
import OrbitFit.Proofs.Converter.Adaptation
import OrbitFit.Proofs.Converter.History
import OrbitFit.Proofs.Converter.Accounting
import OrbitFit.Proofs.Newcomb.Frontier
import OrbitFit.Proofs.Converter.Rejection
import OrbitFit.Proofs.Converter.InStep
import OrbitFit.Proofs.Builder.Operations
import OrbitFit.Proofs.Converter.Upkeep
import OrbitFit.Proofs.Chebyshev.Segment
import OrbitFit.Proofs.Orbit.Drift
import OrbitFit.Proofs.Orbit.RoundTrip
import OrbitFit.Proofs.EarthOrientation.Construction
import OrbitFit.Proofs.EarthOrientation.Interpolation
import OrbitFit.Proofs.ExtendedScalar
import OrbitFit.Proofs.Orbit.Escape
import OrbitFit.Proofs.Orbit.Extended
import OrbitFit.Proofs.Orbit.Parabola
import OrbitFit.Proofs.Builder.Slots
import OrbitFit.Proofs.Fit.Weights
import OrbitFit.Proofs.HashKey
import OrbitFit.Proofs.Newcomb.Size
import OrbitFit.Proofs.Newcomb.Mirror
import OrbitFit.Proofs.Fit.Grid
import OrbitFit.Proofs.Fit.Distance
import OrbitFit.Proofs.Fit.Blocks
import OrbitFit.Proofs.Orbit.Period
import OrbitFit.Proofs.Orbit.LongEllipse
import OrbitFit.Proofs.Chebyshev.Range
import OrbitFit.Proofs.Chebyshev.Vectors
import OrbitFit.Proofs.Time.Calendar
import OrbitFit.Proofs.Time.JulianDate
import OrbitFit.Proofs.Converter.Construction
import OrbitFit.Proofs.LeastSquares.WeightedProblem
import OrbitFit.Proofs.Series.Laws
import OrbitFit.Proofs.Orbit.Mirror
import OrbitFit.Proofs.Orbit.Anomalies
import OrbitFit.Proofs.LogTree
