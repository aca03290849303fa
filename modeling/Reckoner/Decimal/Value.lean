import Reckoner.Decimal.Basic

/-!
# Exact values

The rational numbers that doubles, decimals and displayed texts stand for, with nothing rounded.
-/

namespace Reckoner

def Decimal.value (d : Decimal) : Rat := mkRat d.numerator d.denominator

def Double.value? : Double → Option Rat
  | .finite negative rank =>
    let size := mkRat (Double.quantaOfRank rank) Double.quantaPerUnit
    some (if negative then -size else size)
  | _ => none

namespace Decimal

/-- Digits, and behind a point digits of which the last is not zero. -/
structure IsPlain (text : List Char) : Prop where
  whole : text.takeWhile Char.isDigit ≠ []
  fraction : text.dropWhile Char.isDigit = [] ∨
    ∃ digits, text.dropWhile Char.isDigit = '.' :: digits ∧ digits ≠ [] ∧
      (∀ c ∈ digits, c.isDigit = true) ∧ digits.getLast? ≠ some '0'
  leading : (text.takeWhile Char.isDigit).head? = some '0' →
    text.takeWhile Char.isDigit = ['0']

/-- The number that a text without an exponent denotes, a minus in front of it negating it. -/
def denoted : List Char → Rat
  | '-' :: digits => -(ofLiteral digits).value
  | digits => (ofLiteral digits).value

end Decimal

end Reckoner
