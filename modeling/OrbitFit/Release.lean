import OrbitFit.Scalar

/-!
# OrbitFit.Release — the numbers that a release fixes

The Earth and the day, in metres, seconds and radians.  Every formula takes them from here, and a change to one of
them is a change of the release.
-/

namespace OrbitFit

def release : String := "1.0.0"

variable {α : Type} [Scalar α]

def daySeconds : α := 86400.0

/-- A Julian Date minus its Modified Julian Date. -/
def modifiedOffset : α := 2400000.5

/-- The gravitational parameter of the Earth in m³/s². -/
def earthMu : α := 3.986004418e14

/-- The equatorial radius of the Earth in metres. -/
def earthRadius : α := 6378137.0

/-- The second zonal harmonic of the Earth. -/
def earthJ2 : α := 1.08263e-3

/-- The rotation rate of the Earth in radians per second. -/
def Frame.earthRate : α := 7.2921150e-5

end OrbitFit
