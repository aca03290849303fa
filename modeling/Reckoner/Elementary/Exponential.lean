import Reckoner.Elementary.Fixed

/-!
# Exponentials, logarithms and powers

The exponential is reduced by multiples of `ln 2`, the logarithm by powers of two. A power is the
exponential of a logarithm times the exponent, after the cases that need no computation: zero,
one, infinite and NaN operands.
-/

namespace Reckoner.Fixed

/-- The natural logarithm of two, from `artanh (1 / 3)`. -/
def ln2 : Nat :=
  2 * (nested (fun n rest => one / (2 * n + 1) + rest / 9) one 480 0 / 3)

def exp (x : Nat) : Nat := expSeries (x % ln2) * 2 ^ (x / ln2)

/-- The natural logarithm of a positive number of quanta. The number is divided by the power of two
that brings it between three quarters and three halves. -/
def ln (quanta : Nat) : Int :=
  let floorLog := quanta.log2
  let log := if 3 * 2 ^ floorLog ≤ 2 * quanta then floorLog + 1 else floorLog
  let power := 2 ^ log
  let distance : Nat := if quanta < power then power - quanta else quanta - power
  let w := ratio distance (quanta + power)
  let rest : Int := (2 * mul w (areaSeries (mul w w)) : Nat)
  let whole : Int := ((log : Int) - Double.binaryPlaces) * ln2
  if quanta < power then whole - rest else whole + rest

def ln10 : Nat := (ln (10 * Double.quantaPerUnit)).natAbs

/-- A magnitude whose exponential or hyperbolic functions are beyond the finite doubles. -/
def beyondExp (quanta : Nat) : Bool := 2000 * Double.quantaPerUnit ≤ quanta

/-- The value kept to its first 1200 binary digits. A power that is a number of few binary digits
is thereby met exactly. -/
def settle (value : Nat) : Nat :=
  let step := 2 ^ (value.log2 - 1200)
  roundDiv value step * step

end Reckoner.Fixed

namespace Reckoner.Double

open Fixed

def exp : Double → Double
  | .nan => .nan
  | .infinite negative => if negative then ofRank false 0 else .infinite false
  | .finite negative rank =>
    let quanta := quantaOfRank rank
    if beyondExp quanta then if negative then ofRank false 0 else .infinite false
    else
      let power := Fixed.exp (Fixed.ofQuanta quanta)
      if negative then ratioToDouble false Fixed.one power else ratioToDouble false power Fixed.one

def ln : Double → Double
  | .nan => .nan
  | .infinite negative => if negative then .nan else .infinite false
  | .finite negative rank =>
    if rank.val = 0 then .infinite true
    else if negative then .nan
    else
      let value := Fixed.ln (quantaOfRank rank)
      Fixed.toDouble (value < 0) value.natAbs

def log10 : Double → Double
  | .nan => .nan
  | .infinite negative => if negative then .nan else .infinite false
  | .finite negative rank =>
    if rank.val = 0 then .infinite true
    else if negative then .nan
    else
      let value := Fixed.ln (quantaOfRank rank)
      ratioToDouble (value < 0) value.natAbs Fixed.ln10

def sinh : Double → Double
  | .nan => .nan
  | .infinite negative => .infinite negative
  | .finite negative rank =>
    let quanta := quantaOfRank rank
    if quanta = 0 then .finite negative rank
    else if beyondExp quanta then .infinite negative
    else
      let power := Fixed.exp (Fixed.ofQuanta quanta)
      ratioToDouble negative (power - ratio Fixed.one power) (2 * Fixed.one)

def cosh : Double → Double
  | .nan => .nan
  | .infinite _ => .infinite false
  | .finite _ rank =>
    let quanta := quantaOfRank rank
    if beyondExp quanta then .infinite false
    else
      let power := Fixed.exp (Fixed.ofQuanta quanta)
      ratioToDouble false (power + ratio Fixed.one power) (2 * Fixed.one)

def tanh : Double → Double
  | .nan => .nan
  | .infinite negative => ofRatio negative quantaPerUnit 1
  | .finite negative rank =>
    let quanta := quantaOfRank rank
    if quanta = 0 then .finite negative rank
    else if 100 * quantaPerUnit ≤ quanta then ofRatio negative quantaPerUnit 1
    else
      let power := Fixed.exp (Fixed.ofQuanta quanta)
      let inverse := ratio Fixed.one power
      ratioToDouble negative (power - inverse) (power + inverse)

/-- The cube root. The quanta are multiplied by a power of eight before the root is taken, and its
place among the quanta is a third of theirs. -/
def cbrt : Double → Double
  | .nan => .nan
  | .infinite negative => .infinite negative
  | .finite negative rank =>
    if rank.val = 0 then .finite negative rank
    else
      let root := floorCbrt (quantaOfRank rank * 8 ^ (300 : Nat))
      ofRatio negative (root * 2 ^ (716 : Nat)) (2 ^ (300 : Nat))

def isWhole (quanta : Nat) : Bool := quanta % quantaPerUnit == 0

def isOdd (quanta : Nat) : Bool := isWhole quanta && quanta / quantaPerUnit % 2 == 1

/-- The magnitude of a power of a positive number of quanta, with the sign it is to have. -/
def positivePower (negative : Bool) (base : Nat) (exponentNegative : Bool) (exponent : Nat) :
    Double :=
  let log := Fixed.ln base
  let size := log.natAbs * exponent / quantaPerUnit
  let shrinks := (log < 0) != exponentNegative
  if 2000 * Fixed.one ≤ size then if shrinks then ofRank negative 0 else .infinite negative
  else
    let power := Fixed.exp size
    if shrinks then
      let inverse := settle (ratio (2 ^ Fixed.places * Fixed.one) power)
      ratioToDouble negative inverse (2 ^ Fixed.places * Fixed.one)
    else ratioToDouble negative (settle power) Fixed.one

/-- A power with an infinite exponent: it grows without bound, vanishes or stays one. -/
def infinitePower (base : Double) (exponentNegative : Bool) : Double :=
  match base.abs with
  | .finite _ rank =>
    if quantaOfRank rank = quantaPerUnit then ofRatio false quantaPerUnit 1
    else if (quantaOfRank rank < quantaPerUnit) == exponentNegative then .infinite false
    else ofRank false 0
  | _ => if exponentNegative then ofRank false 0 else .infinite false

/-- The power. Exponent zero and base one give one whatever the other operand is, NaN included; a
negative base has powers with whole exponents only. -/
def pow (base exponent : Double) : Double :=
  let unit := ofRatio false quantaPerUnit 1
  if exponent.isZero || base.same unit then unit
  else
    match base, exponent with
    | .nan, _ => .nan
    | _, .nan => .nan
    | _, .infinite t => infinitePower base t
    | .infinite s, .finite t b =>
      let negative := s && isOdd (quantaOfRank b)
      if t then ofRank negative 0 else .infinite negative
    | .finite s a, .finite t b =>
      let quanta := quantaOfRank b
      let negative := s && isOdd quanta
      if a.val = 0 then if t then .infinite negative else ofRank negative 0
      else if s && !isWhole quanta then .nan
      else positivePower negative (quantaOfRank a) t quanta

end Reckoner.Double
