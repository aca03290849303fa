import Mathlib.Algebra.Order.Ring.Rat

/-!
# Numerals place by place

The number that a numeral stands for, as the sum of what its digits count: before the point the
powers of ten, behind it the parts of ten. No coefficient is formed, and no digit is too many.
-/

namespace Reckoner.Decimal

def digit (c : Char) : Rat := (c.toNat - '0'.toNat : Nat)

/-- Digits before a point: each counts the power of ten that has as many digits behind it. -/
def wholePart : List Char → Rat
  | [] => 0
  | c :: rest => digit c * 10 ^ rest.length + wholePart rest

/-- Digits behind a point: the first counts tenths, and each other a tenth of the one before. -/
def fractionPart : List Char → Rat
  | [] => 0
  | c :: rest => (digit c + fractionPart rest) / 10

/-- The number that digits with at most one point among them stand for. -/
def positional (numeral : List Char) : Rat :=
  wholePart (numeral.takeWhile (· != '.')) + fractionPart ((numeral.dropWhile (· != '.')).drop 1)

end Reckoner.Decimal
