import Reckoner.Elementary.Fixed

/-!
# Circular functions

Angles are reduced by multiples of a quarter turn known to many more places than any double has,
so that the largest arguments keep their full accuracy. Arcs are measured from the slope of the
two sides of the angle.
-/

namespace Reckoner.Fixed

/-- The binary places to which a quarter turn is known. -/
@[irreducible] def widePlaces : Nat := 2600

/-- `arctan (1 / n)`, to `widePlaces` places. -/
def inverseArctan (n : Nat) : Nat :=
  let unit := 2 ^ widePlaces
  nested (fun k rest => unit / (2 * k + 1) - rest / (n * n)) unit 620 0 / n

/-- A quarter turn, to `widePlaces` places: `8 arctan (1 / 5) - 2 arctan (1 / 239)`. -/
def wideQuarterTurn : Nat := 8 * inverseArctan 5 - 2 * inverseArctan 239

def quarterTurn : Nat := wideQuarterTurn / 2 ^ (widePlaces - places)

def smallSinCos (angle : Nat) : Nat × Nat :=
  let square := mul angle angle
  (mul angle (sinSeries square), cosSeries square)

/-- The whole quarter turns in an angle, and the sine and the cosine of what remains. -/
def sinCos (quanta : Nat) : Nat × Nat × Nat :=
  let angle := quanta * 2 ^ (widePlaces - Double.binaryPlaces)
  let rest := angle % wideQuarterTurn
  let narrow (wide : Nat) : Nat := wide / 2 ^ (widePlaces - places)
  let (sin, cos) :=
    if 2 * rest ≤ wideQuarterTurn then smallSinCos (narrow rest)
    else (smallSinCos (narrow (wideQuarterTurn - rest))).swap
  (angle / wideQuarterTurn, sin, cos)

def halfTangent (tangent : Nat) : Nat :=
  tangent * one / (one + floorSqrt (one * one + tangent * tangent))

/-- The arc whose tangent is given, which is at most one. The arc is shorter than its tangent, and
so is the value found. -/
def smallArctan (tangent : Nat) : Nat :=
  let eighth := Nat.repeat halfTangent 3 tangent
  8 * mul eighth (arcSeries (mul eighth eighth)) - 1

/-- The angle, at most a quarter turn, of the direction `run` to the side and `rise` up. -/
def arctan (rise run : Nat) : Nat :=
  if rise ≤ run then smallArctan (ratio rise run)
  else quarterTurn - smallArctan (ratio run rise)

end Reckoner.Fixed

namespace Reckoner.Double

open Fixed

def sin : Double → Double
  | .nan => .nan
  | .infinite _ => .nan
  | .finite negative rank =>
    if rank.val = 0 then .finite negative rank
    else
      let (turns, sin, cos) := sinCos (quantaOfRank rank)
      match turns % 4 with
      | 0 => Fixed.toDouble negative sin
      | 1 => Fixed.toDouble negative cos
      | 2 => Fixed.toDouble (!negative) sin
      | _ => Fixed.toDouble (!negative) cos

def cos : Double → Double
  | .nan => .nan
  | .infinite _ => .nan
  | .finite _ rank =>
    let (turns, sin, cos) := sinCos (quantaOfRank rank)
    match turns % 4 with
    | 0 => Fixed.toDouble false cos
    | 1 => Fixed.toDouble true sin
    | 2 => Fixed.toDouble true cos
    | _ => Fixed.toDouble false sin

def tan : Double → Double
  | .nan => .nan
  | .infinite _ => .nan
  | .finite negative rank =>
    if rank.val = 0 then .finite negative rank
    else
      let (turns, sin, cos) := sinCos (quantaOfRank rank)
      if turns % 2 = 0 then ratioToDouble negative sin cos
      else ratioToDouble (!negative) cos sin

/-- The arc sine: the angle with the given rise and the run that belongs to it on the unit
circle. -/
def asin : Double → Double
  | .nan => .nan
  | .infinite _ => .nan
  | .finite negative rank =>
    let quanta := quantaOfRank rank
    if quanta = 0 then .finite negative rank
    else if quantaPerUnit < quanta then .nan
    else
      let squareOfRun := quantaPerUnit * quantaPerUnit - quanta * quanta
      let scale := 2 ^ (places - binaryPlaces)
      let run := floorSqrt (squareOfRun * (scale * scale))
      Fixed.toDouble negative (arctan (quanta * scale) run)

/-- The arc cosine: twice the angle whose tangent is the root of `(1 - x) / (1 + x)`. -/
def acos : Double → Double
  | .nan => .nan
  | .infinite _ => .nan
  | .finite negative rank =>
    let quanta := quantaOfRank rank
    if quantaPerUnit < quanta then .nan
    else
      let below := if negative then quantaPerUnit + quanta else quantaPerUnit - quanta
      let above := if negative then quantaPerUnit - quanta else quantaPerUnit + quanta
      if above = 0 then Fixed.toDouble false (2 * quarterTurn)
      else
        let tangent := floorSqrt (below * (one * one) / above)
        Fixed.toDouble false (2 * arctan tangent one)

def atan : Double → Double
  | .nan => .nan
  | .infinite negative => Fixed.toDouble negative quarterTurn
  | .finite negative rank =>
    if rank.val = 0 then .finite negative rank
    else Fixed.toDouble negative (arctan (quantaOfRank rank) quantaPerUnit)

/-- The sides of the angle towards the point: how far up and how far to the side, up to a common
factor. An infinite side outweighs every finite one. -/
def sides : Double → Double → Nat × Nat
  | .infinite _, .infinite _ => (1, 1)
  | .infinite _, _ => (1, 0)
  | _, .infinite _ => (0, 1)
  | .finite _ a, .finite _ b =>
    if a.val = 0 then (0, 1) else (quantaOfRank a, quantaOfRank b)
  | _, _ => (0, 1)

def isNegative : Double → Bool
  | .nan => false
  | .infinite negative => negative
  | .finite negative _ => negative

/-- The direction of the point with the given coordinates, the sign of a zero included. -/
def atan2 (y x : Double) : Double :=
  if y.isNaN || x.isNaN then .nan
  else
    let (rise, run) := sides y x
    let angle := arctan rise run
    Fixed.toDouble y.isNegative (if x.isNegative then 2 * quarterTurn - angle else angle)

end Reckoner.Double
