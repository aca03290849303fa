import Reckoner.Vocabulary

/-!
# Degrees written out

A program that measures angles in degrees, written as one that measures them in radians: what goes
into a circular function is multiplied by the radians of a degree before it, and what comes out of
an inverse one by the degrees of a radian behind it.
-/

namespace Reckoner.AngleMode

def circular : List String := ["sin", "cos", "tan"]

def inverse : List String := ["asin", "acos", "atan", "atan2"]

def halfTurn : Token := { kind := .number, name := "180", value := some (Double.ofNat 180) }

def pi : Token := { kind := .identifier, name := "pi" }

def divide : Token := { kind := .operator, name := "/" }

def times : Token := { kind := .operator, name := "*" }

/-- The instructions that turn degrees into radians. -/
def degreesToRadians : List Token := [pi, halfTurn, divide, times]

def radiansToDegrees : List Token := [halfTurn, pi, divide, times]

/-- The instructions for a token whose angles are in degrees. -/
def convertToken (token : Token) : List Token :=
  if token.kind = .identifier ∧ token.name ∈ circular then degreesToRadians ++ [token]
  else if token.kind = .identifier ∧ token.name ∈ inverse then token :: radiansToDegrees
  else [token]

def convert (tokens : List Token) : List Token := tokens.flatMap convertToken

@[simp] theorem convert_append (left right : List Token) :
    convert (left ++ right) = convert left ++ convert right := List.flatMap_append

end Reckoner.AngleMode
