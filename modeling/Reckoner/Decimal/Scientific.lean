import Reckoner.Decimal.Basic
import Reckoner.Token.Segmentation

/-!
# Numerals with an exponent

A numeral has digits, with a point among them at most, and behind them an exponent at most: an e
and a whole number that is the power of ten. A text that is no numeral is not read at all.
-/

namespace Reckoner

namespace Decimal

def natural? (digits : List Char) : Option Nat :=
  if digits ≠ [] ∧ digits.all Char.isDigit = true then some (Nat.ofDigitChars 10 digits 0) else none

def exponent? : List Char → Option Int
  | [] => some 0
  | 'e' :: '-' :: digits => (natural? digits).map fun n : Nat => -(n : Int)
  | 'e' :: '+' :: digits => (natural? digits).map fun n : Nat => (n : Int)
  | 'e' :: digits => (natural? digits).map fun n : Nat => (n : Int)
  | _ => none

/-- The decimal of a numeral without a sign. -/
def ofNumeral? (text : List Char) : Option Decimal :=
  let coefficient := text.takeWhile (· != 'e')
  if Token.IsNumber coefficient then
    (exponent? (text.dropWhile (· != 'e'))).map fun exponent =>
      ⟨(ofLiteral coefficient).coefficient, (ofLiteral coefficient).places - exponent⟩
  else none

end Decimal

/-- The double nearest to a numeral; a minus in front of it sets the sign. -/
def Double.ofNumeral? (text : String) : Option Double :=
  if text.toList.head? = some '-' then
    (Decimal.ofNumeral? (text.toList.drop 1)).map (Decimal.toDouble true)
  else (Decimal.ofNumeral? text.toList).map (Decimal.toDouble false)

end Reckoner
