import Reckoner.Double.Basic

/-!
# Decimals

A nonnegative decimal number as a whole coefficient and a count of places after the point (a
negative count stands for zeros before it). `ofLiteral` reads one from digits and a point,
`rank` is the nearest double's rank, and `plain` writes one without an exponent.
-/

namespace Reckoner

/-- The number `coefficient * 10 ^ (-places)`. -/
structure Decimal where
  coefficient : Nat
  places : Int
  deriving DecidableEq, Inhabited

namespace Decimal

/-- The number is the quotient of `numerator` and `denominator`. -/
def numerator (d : Decimal) : Nat := d.coefficient * 10 ^ (-d.places).toNat

def denominator (d : Decimal) : Nat := 10 ^ d.places.toNat

def rank (d : Decimal) : Nat :=
  Double.rankOfRatio (d.numerator * Double.quantaPerUnit) d.denominator

def toDouble (negative : Bool) (d : Decimal) : Double := Double.ofRank negative d.rank

/-- The number that digits with at most one point among them stand for. -/
def ofLiteral (literal : List Char) : Decimal :=
  let whole := literal.takeWhile (· != '.')
  let fraction := (literal.dropWhile (· != '.')).drop 1
  ⟨Nat.ofDigitChars 10 (whole ++ fraction) 0, fraction.length⟩

/-- Exactly `width` digits of a number below `10 ^ width`, with zeros in front. -/
def padded (width n : Nat) : List Char :=
  let digits := Nat.toDigits 10 n
  List.replicate (width - digits.length) '0' ++ digits

def trimZeros (cs : List Char) : List Char := (cs.reverse.dropWhile (· == '0')).reverse

def wholeDigits (d : Decimal) : List Char := Nat.toDigits 10 (d.numerator / d.denominator)

/-- The digits after the point, all `places` of them. -/
def fractionDigits (d : Decimal) : List Char :=
  if d.places ≤ 0 then [] else padded d.places.toNat (d.numerator % d.denominator)

/-- Digits after a point, or nothing at all where there are none. -/
def withPoint : List Char → List Char
  | [] => []
  | fraction => '.' :: fraction

/-- The number without an exponent and without zeros at the end of the fraction. -/
def plain (d : Decimal) : List Char :=
  d.wholeDigits ++ withPoint (trimZeros d.fractionDigits)

/-- The number without an exponent and with all its places. -/
def fixed (d : Decimal) : List Char := d.wholeDigits ++ withPoint d.fractionDigits

def digits (d : Decimal) : List Char := Nat.toDigits 10 d.coefficient

/-- The power of ten that the first digit of the coefficient counts. -/
def exponent (d : Decimal) : Int := d.digits.length - 1 - d.places

end Decimal

end Reckoner
