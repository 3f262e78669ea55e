import Mathlib.Data.List.Basic

/-!
# Priorities

The five priorities and the two throttling tables attached to them. `VeryHigh`
is the one that is never throttled, in every mode.
-/

namespace RsRun

/-- `Priority`. -/
inductive Priority where
  | veryLow
  | low
  | middle
  | high
  | veryHigh
deriving DecidableEq, Repr

namespace Priority

/-- `self as isize`, the discriminant: a lower priority has a smaller one. -/
def index : Priority → Nat
  | veryLow => 0
  | low => 1
  | middle => 2
  | high => 3
  | veryHigh => 4

/-- Base back-off of `mode_count`, in milliseconds. -/
def fixedIntervalCount : Priority → Option Nat
  | veryLow => some 30
  | low => some 20
  | middle => some 13
  | high => some 10
  | veryHigh => none

/-- Back-off factor of `mode_time`. -/
def fixedIntervalTimeMs : Priority → Option Nat
  | veryLow => some 9
  | low => some 7
  | middle => some 5
  | high => some 3
  | veryHigh => none

end Priority

end RsRun
