import Mathlib.Algebra.Order.Ring.Rat
import Mathlib.Algebra.Order.Group.Unbundled.Abs
import Reckoner.Decimal.Value

/-!
# The nearest double

What it means that a finite double is a number rounded to nearest, ties to even, said without a way
to find it.
-/

namespace Reckoner.Double

/-- The binary digits of a finite double from its leading one on, or from the greatest place of a
subnormal one: the 52 that are stored, behind a leading one unless it is subnormal. -/
def significand : Double → Nat
  | .finite _ rank =>
    if rank.val < 2 ^ (52 : Nat) then rank else 2 ^ (52 : Nat) + rank % 2 ^ (52 : Nat)
  | _ => 0

/-- A finite double is as near to a number as any other, and its significand is even if one with
another value is just as near. -/
structure IsNearest (q : Rat) (x : Double) : Prop where
  finite : x.isFinite = true
  nearest : ∀ (y : Double) (v w : Rat), x.value? = some v → y.value? = some w →
    |v - q| ≤ |w - q|
  even : ∀ (y : Double) (v w : Rat), x.value? = some v → y.value? = some w → w ≠ v →
    |v - q| = |w - q| → x.significand % 2 = 0

end Reckoner.Double
