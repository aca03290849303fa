import Reckoner.Angle
import Reckoner.Elementary.Circular
import Reckoner.Elementary.Exponential
import Reckoner.Failure
import Reckoner.Vocabulary

/-!
# What operations compute

Each operation on doubles, with the arguments it refuses. The angle mode matters to the circular
functions, which take degrees, and to their inverses, which give degrees. An operation that is
refused nothing may still give NaN or an infinite number.
-/

namespace Reckoner

namespace Double

def unit : Double := ofNat 1

/-- One degree in radians, and one radian in degrees. -/
def degree : Double := pi.div (ofNat 180)

def radian : Double := (ofNat 180).div pi

/-- Numbers at most this far from an integer count as integers. -/
def tolerance : Double := ofRatio false quantaPerUnit (10 ^ (9 : Nat))

def isNearInteger (x : Double) : Bool := x.isFinite && (x.sub x.rint).abs.le tolerance

def isNearOdd (x : Double) : Bool := x.isNearInteger && x.rint.toInt % 2 == 1

end Double

def AngleMode.toRadians : AngleMode → Double → Double
  | .radians, x => x
  | .degrees, x => x.mul Double.degree

def AngleMode.ofRadians : AngleMode → Double → Double
  | .radians, x => x
  | .degrees, x => x.mul Double.radian

def greatestFactorial : Nat := 170

/-- The product of one and the numbers from two to `n`, rounded at each step. -/
def factorialProduct (n : Nat) : Double :=
  (List.range' 2 (n - 1)).foldl (fun product i => product.mul (Double.ofNat i)) Double.unit

def factorial (x : Double) : Except Failure Double :=
  if x.isNaN then .error (.outsideDomain .factorialOfNaN)
  else if x.isBelowZero then .error (.outsideDomain .factorialOfNegative)
  else if x.isInfinite then .error .factorialTooLarge
  else if !x.isNearInteger then .error (.outsideDomain .factorialOfFraction)
  else
    let n := x.rint.toInt.toNat
    if greatestFactorial < n then .error .factorialTooLarge else .ok (factorialProduct n)

/-- The root with the given index. A negative number has roots with odd indices only. -/
def root (x index : Double) : Except Failure Double :=
  if index.isZero then .error (.outsideDomain .rootIndex)
  else if x.isBelowZero then
    if index.isNearOdd then .ok (x.neg.pow (Double.unit.div index)).neg
    else .error (.outsideDomain .rootOfNegative)
  else .ok (x.pow (Double.unit.div index))

def UnaryOperation.apply (mode : AngleMode) :
    UnaryOperation → Double → Except Failure Double
  | neg, x => .ok x.neg
  | sin, x => .ok (mode.toRadians x).sin
  | cos, x => .ok (mode.toRadians x).cos
  | tan, x => .ok (mode.toRadians x).tan
  | asin, x => .ok (mode.ofRadians x.asin)
  | acos, x => .ok (mode.ofRadians x.acos)
  | atan, x => .ok (mode.ofRadians x.atan)
  | sinh, x => .ok x.sinh
  | cosh, x => .ok x.cosh
  | tanh, x => .ok x.tanh
  | log, x => if x.le Double.zero then .error (.outsideDomain .log) else .ok x.log10
  | ln, x => if x.le Double.zero then .error (.outsideDomain .ln) else .ok x.ln
  | sqrt, x => if x.isBelowZero then .error (.outsideDomain .sqrt) else .ok x.sqrt
  | cbrt, x => .ok x.cbrt
  | exp, x => .ok x.exp
  | abs, x => .ok x.abs
  | floor, x => .ok x.floor
  | ceil, x => .ok x.ceil
  | round, x => .ok x.rint
  | fact, x => factorial x
  | inv, x => if x.isZero then .error .reciprocalOfZero else .ok (Double.unit.div x)

def BinaryOperation.apply (mode : AngleMode) :
    BinaryOperation → Double → Double → Except Failure Double
  | add, x, y => .ok (x.add y)
  | sub, x, y => .ok (x.sub y)
  | mul, x, y => .ok (x.mul y)
  | div, x, y => if y.isZero then .error .divisionByZero else .ok (x.div y)
  | mod, x, y => if y.isZero then .error .moduloByZero else .ok (x.remainder y)
  | pow, x, y => .ok (x.pow y)
  | atan2, y, x => .ok (mode.ofRadians (y.atan2 x))
  | root, x, index => Reckoner.root x index

/-- The result on a list of arguments; an operation given more or fewer than it takes has none. -/
def Operation.apply? (mode : AngleMode) : Operation → List Double → Option (Except Failure Double)
  | unary operation, [x] => some (operation.apply mode x)
  | binary operation, [x, y] => some (operation.apply mode x y)
  | _, _ => none

end Reckoner
