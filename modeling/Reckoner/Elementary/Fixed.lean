import Reckoner.Double.Arithmetic

/-!
# Fixed-point numbers for series

The elementary functions are computed on natural numbers that stand for multiples of
`2 ^ (-places)`, far finer than the quantum of the doubles, and the value found is rounded to a
double once. This module holds the scale, the nested form of a power series and the way back to
the doubles; how near a series comes to its function is not stated here.
-/

namespace Reckoner.Fixed

@[irreducible] def places : Nat := 1400

def one : Nat := 2 ^ places

def mul (a b : Nat) : Nat := a * b / one

def ratio (num den : Nat) : Nat := num * one / den

def ofQuanta (quanta : Nat) : Nat := quanta * 2 ^ (places - Double.binaryPlaces)

def toDouble (negative : Bool) (value : Nat) : Double :=
  Double.ofRatio negative (value * Double.quantaPerUnit) one

def ratioToDouble (negative : Bool) (num den : Nat) : Double :=
  Double.ofRatio negative (num * Double.quantaPerUnit) den

/-- A power series in its nested form: `level n` makes the value from term `n` on out of the value
from term `n + 1` on, and after `terms` terms the rest counts as `last`. -/
def nested (level : Nat → Nat → Nat) (last : Nat) : Nat → Nat → Nat
  | 0, _ => last
  | terms + 1, n => level n (nested level last terms (n + 1))

/-- The sum of `z ^ n / (2 n + 1)`, which is `artanh w / w` for `z = w ^ 2`. -/
def areaSeries (z : Nat) : Nat :=
  nested (fun n rest => one / (2 * n + 1) + mul z rest) one 340 0

/-- The alternating sum of `z ^ n / (2 n + 1)`, which is `arctan w / w` for `z = w ^ 2`. -/
def arcSeries (z : Nat) : Nat :=
  nested (fun n rest => one / (2 * n + 1) - mul z rest) one 240 0

/-- The sum of `r ^ n / n!`. -/
def expSeries (r : Nat) : Nat :=
  nested (fun n rest => one + mul r rest / (n + 1)) one 280 0

/-- The alternating sum of `z ^ n / (2 n + 1)!`, which is `sin r / r` for `z = r ^ 2`. -/
def sinSeries (z : Nat) : Nat :=
  nested (fun n rest => one - mul z rest / ((2 * n + 2) * (2 * n + 3))) one 140 0

/-- The alternating sum of `z ^ n / (2 n)!`, which is `cos r` for `z = r ^ 2`. -/
def cosSeries (z : Nat) : Nat :=
  nested (fun n rest => one - mul z rest / ((2 * n + 1) * (2 * n + 2))) one 140 0

end Reckoner.Fixed
