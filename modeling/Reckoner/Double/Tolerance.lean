import Mathlib.Algebra.Order.Group.Unbundled.Abs
import Mathlib.Algebra.Order.Ring.Rat
import Reckoner.Decimal.Value
import Reckoner.Operation

/-!
# Numbers near integers

What it means that a double counts as an integer or lies below zero, said of the number that it is.
The distance to an integer is the exact one, with nothing rounded.
-/

namespace Reckoner.Double

/-- The double is a number whose distance to the integer is at most the tolerance. -/
def IsNear (x : Double) (n : Int) : Prop :=
  ∃ v t : Rat, x.value? = some v ∧ tolerance.value? = some t ∧ |v - n| ≤ t

/-- The double is a number below zero, or the negative infinity. -/
def LiesBelowZero (x : Double) : Prop :=
  x = .infinite true ∨ ∃ v : Rat, x.value? = some v ∧ v < 0

end Reckoner.Double
