import Reckoner.Decimal.Shortest

/-!
# Numbers as they are displayed

A displayed number has no exponent. It is the shortest decimal that reads back, unless that needs
more fraction digits than are allowed; then it is the nearest decimal with as many. A zero has no
sign.
-/

namespace Reckoner

namespace Decimal

/-- The decimal that stands for the double of the given rank when at most `places` fraction digits
are allowed. -/
def within (places : Nat) (rank : Nat) : Decimal :=
  let short := shortest rank
  if short.places ≤ places then short else rounded places rank

end Decimal

namespace Double

def defaultPlaces : Nat := 15

def displayChars (places : Nat) : Double → List Char
  | .nan => "nan".toList
  | .infinite negative => if negative then "-inf".toList else "inf".toList
  | .finite negative rank =>
    let text := (Decimal.within places rank).plain
    if negative && text != ['0'] then '-' :: text else text

def displayWith (places : Nat) (x : Double) : String := String.ofList (displayChars places x)

def display (x : Double) : String := displayWith defaultPlaces x

inductive PlacesFault where
  | negative
  | tooLarge
  | tooWide
  deriving DecidableEq

def PlacesFault.message : PlacesFault → String
  | negative => "precision must be >= 0"
  | tooLarge => "Python int too large to convert to C int"
  | tooWide => "Python int too large to convert to C long"

def placesBound : Nat := 2 ^ (31 : Nat)

/-- From here on a count is not even looked at. -/
def wideBound : Nat := 2 ^ (63 : Nat)

def checkPlaces (places : Int) : Except PlacesFault Nat :=
  if places < 0 then .error .negative
  else if (wideBound : Int) ≤ places then .error .tooWide
  else if (placesBound : Int) ≤ places then .error .tooLarge
  else .ok places.toNat

/-- The text of a double with a count of fraction digits that is looked at first. -/
def format (places : Int) (x : Double) : Except PlacesFault String :=
  (checkPlaces places).map fun places => displayWith places x

end Double

end Reckoner
