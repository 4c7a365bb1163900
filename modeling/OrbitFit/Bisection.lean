/-!
# OrbitFit.Bisection — the place where a test turns

Places of a list are halved between two bounds.  Where the entries pass a test up to one place and fail it
from there on, that place is found; on any other list the answer still lies between the bounds.
-/

namespace OrbitFit

/-- The place from `low` to `high` that halving ends at: it moves behind an entry that passes the test and
in front of one that fails it. -/
def turningPlace {β : Type} (test : β → Bool) (xs : List β) (low high : Nat) : Nat :=
  if low < high then
    let middle := low + (high - low) / 2
    if xs[middle]?.any test then turningPlace test xs (middle + 1) high
    else turningPlace test xs low middle
  else low
termination_by high - low

end OrbitFit
