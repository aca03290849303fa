import Mathlib.Algebra.Order.Ring.Rat
import Mathlib.Algebra.Order.Group.Unbundled.Abs
import Reckoner.Decimal.Value

/-!
# Exact texts

What it means that a text shows a double exactly, said without a way to find it: which decimals are
the shortest of those that read back, which multiple of a power of ten is the nearest, and how a
text without an exponent looks.
-/

namespace Reckoner

namespace Decimal

/-- The number of digits from the first to the last that is not zero, none at all for zero. -/
def significant (d : Decimal) : Nat := (trimZeros d.digits).length

/-- The number of digits behind the point up to the last that is not zero. -/
def fractionSize (d : Decimal) : Nat := (trimZeros d.fractionDigits).length

def signed (negative : Bool) (d : Decimal) : Rat := if negative then -d.value else d.value

/-- Of the decimals with the given sign that read back as a double, one with the fewest significant
digits, and of those one that is closest to it. -/
structure IsShortest (negative : Bool) (x : Double) (s : Decimal) : Prop where
  reads : s.toDouble negative = x
  fewest : ∀ d : Decimal, d.toDouble negative = x → s.significant ≤ d.significant
  closest : ∀ (d : Decimal) (v : Rat), x.value? = some v → d.toDouble negative = x →
    d.significant = s.significant → |s.signed negative - v| ≤ |d.signed negative - v|

/-- Of the multiples of `10 ^ (-places)` the `k`-th is the nearest to a number, and it is the even
one if another is as near. -/
structure IsNearestMultiple (places : Nat) (v : Rat) (k : Int) : Prop where
  nearest : ∀ j : Int, |(k : Rat) / 10 ^ places - v| ≤ |(j : Rat) / 10 ^ places - v|
  even : ∀ j : Int, j ≠ k → |(k : Rat) / 10 ^ places - v| = |(j : Rat) / 10 ^ places - v| →
    k % 2 = 0

/-- Digits with at most `places` of them behind a point, and in front of them at most a minus, but
not in front of a mere zero. -/
def IsDisplay (places : Nat) (text : List Char) : Prop :=
  ∃ digits, IsPlain digits ∧ ((digits.dropWhile Char.isDigit).drop 1).length ≤ places ∧
    (text = digits ∨ text = '-' :: digits ∧ digits ≠ ['0'])

/-- The double that a text without an exponent is read as, a minus in front of it setting the
sign. -/
def readText (text : List Char) : Double :=
  if text.head? = some '-' then (ofLiteral (text.drop 1)).toDouble true
  else (ofLiteral text).toDouble false

end Decimal

end Reckoner
