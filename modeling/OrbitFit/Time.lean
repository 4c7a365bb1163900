import OrbitFit.Fault
import OrbitFit.Release

/-!
# OrbitFit.Time — Julian Dates and the rotation of the Earth

An epoch is a Julian Date in days, one number.  Near today's dates a double resolves it to some forty
microseconds, so epochs that are built by `shiftEpoch` and compared by `secondsBetween` agree to that
resolution.
-/

namespace OrbitFit

variable {α : Type} [Scalar α]

/-- The Modified Julian Date of a Julian Date. -/
def toModified (jd : α) : α := jd - modifiedOffset

/-- The Julian Date of a Modified Julian Date. -/
def ofModified (mjd : α) : α := mjd + modifiedOffset

def shiftEpoch (epoch dt : α) : α := epoch + dt / daySeconds

/-- The seconds from `reference` to `epoch`. -/
def secondsBetween (epoch reference : α) : α := (epoch - reference) * daySeconds

/-- The Julian Date of a calendar date.  The days before noon of the date are counted in integers: January
and February belong to the previous year, and the Gregorian correction counts its centuries. -/
def julianDate (year month day : Int) (hour minute second : α) : Except (Fault α) α := do
  let (year, month) := if month ≤ 2 then (year - 1, month + 12) else (year, month)
  let century ← truncChecked (← ratioChecked (α := α) year 100)
  let leap ← truncChecked (← ratioChecked (α := α) century 4)
  let correction := 2 - century + leap
  let years ← truncChecked (365.25 * (← ratioChecked (α := α) (year + 4716) 1))
  let months ← truncChecked (30.6001 * (← ratioChecked (α := α) (month + 1) 1))
  let days ← ratioChecked (α := α) (years + months + day + correction) 1
  return days - 1524.5 + (hour + minute / 60.0 + second / 3600.0) / 24.0

/-- The mean sidereal angle at Greenwich in radians, for a Julian Date in UT1. -/
def siderealAngle (jd : α) : Except (Fault α) α := do
  let t := (jd - 2451545.0) / 36525.0
  let t2 ← powChecked t 2
  let t3 ← powChecked t 3
  let seconds := 67310.54841 + (876600.0 * 3600.0 + 8640184.812866) * t + 0.093104 * t2 - 6.2e-6 * t3
  let degrees := Scalar.floorMod (seconds / 240.0) 360.0
  return degrees * (Scalar.pi / 180.0)

end OrbitFit
