import Reckoner.Decimal.Shortest

/-!
# Ways to write a double

`exactChars` writes the shortest decimal that reads back, with an exponent if the number is very
large or very small; `fixedChars` and `scientificChars` write as many digits as are asked for,
rounded from the exact value.
-/

namespace Reckoner.Decimal

/-- Digits with a point behind the first of them and an exponent of at least two digits. -/
def withExponent (digits : List Char) (exponent : Int) : List Char :=
  let size := Nat.toDigits 10 exponent.natAbs
  digits.take 1 ++ withPoint (digits.drop 1) ++ ['e', if exponent < 0 then '-' else '+'] ++
    (if size.length < 2 then '0' :: size else size)

def isBelowPower (rank : Nat) (exponent : Int) : Bool :=
  Double.quantaOfRank rank * 10 ^ (-exponent).toNat < Double.quantaPerUnit * 10 ^ exponent.toNat

/-- The power of ten that the first digit of the exact value counts. The shortest decimal may have
been rounded up to the next power. -/
def leadingExponent (rank : Nat) : Int :=
  let exponent := (shortest rank).exponent
  if isBelowPower rank exponent then exponent - 1 else exponent

def leading (count : Nat) (rank : Nat) : Decimal :=
  let places : Int := (count : Int) - 1 - leadingExponent rank
  let num := Double.quantaOfRank rank * 10 ^ places.toNat
  let den := Double.quantaPerUnit * 10 ^ (-places).toNat
  let coefficient := roundDiv num den
  if coefficient = 10 ^ count then ⟨10 ^ (count - 1), places - 1⟩ else ⟨coefficient, places⟩

/-- Exponents from `10 ^ (-4)` to `10 ^ 15` are not written. -/
def isModerate (exponent : Int) : Bool := -4 ≤ exponent && exponent < 16

/-- The shortest decimal that reads back, as a number that is not whole for its looks. -/
def exactOfRank (rank : Nat) : List Char :=
  let short := shortest rank
  if !isModerate short.exponent then withExponent short.digits short.exponent
  else if short.places ≤ 0 then short.wholeDigits ++ ['.', '0']
  else short.fixed

def fixedOfRank (places rank : Nat) : List Char := (rounded places rank).fixed

/-- One digit before the point and a number of places behind it. -/
def scientificOfRank (places rank : Nat) : List Char :=
  if rank = 0 then withExponent (List.replicate (places + 1) '0') 0
  else
    let decimal := leading (places + 1) rank
    withExponent decimal.digits decimal.exponent

end Reckoner.Decimal

namespace Reckoner.Double

def writeWith (magnitude : Nat → List Char) : Double → List Char
  | .nan => "nan".toList
  | .infinite negative => if negative then "-inf".toList else "inf".toList
  | .finite negative rank =>
    if negative then '-' :: magnitude rank else magnitude rank

def exactChars : Double → List Char := writeWith Decimal.exactOfRank

def fixedChars (places : Nat) : Double → List Char := writeWith (Decimal.fixedOfRank places)

def scientificChars (places : Nat) : Double → List Char :=
  writeWith (Decimal.scientificOfRank places)

/-- The shortest text that reads back as the same double. -/
def exactText (x : Double) : String := String.ofList x.exactChars

end Reckoner.Double
