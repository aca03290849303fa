import Reckoner.Double.Basic

/-!
# Arithmetic on doubles

Each operation is carried out on whole quanta and rounded once. Sums, products, quotients and
square roots are the nearest double to the exact result; remainders and the roundings to a whole
number are exact.
-/

namespace Reckoner.Double

def signedQuanta (negative : Bool) (rank : Nat) : Int :=
  if negative then -(quantaOfRank rank : Int) else quantaOfRank rank

def neg : Double → Double
  | .nan => .nan
  | .infinite negative => .infinite (!negative)
  | .finite negative rank => .finite (!negative) rank

def abs : Double → Double
  | .nan => .nan
  | .infinite _ => .infinite false
  | .finite _ rank => .finite false rank

/-- The sum. A sum of zero is negative only if both terms are. -/
def add : Double → Double → Double
  | .nan, _ => .nan
  | _, .nan => .nan
  | .infinite s, .infinite t => if s = t then .infinite s else .nan
  | .infinite s, .finite _ _ => .infinite s
  | .finite _ _, .infinite t => .infinite t
  | .finite s a, .finite t b => ofQuanta (s && t) (signedQuanta s a + signedQuanta t b)

def sub (x y : Double) : Double := x.add y.neg

def mul : Double → Double → Double
  | .nan, _ => .nan
  | _, .nan => .nan
  | .infinite s, .infinite t => .infinite (s != t)
  | .infinite s, .finite t b => if b.val = 0 then .nan else .infinite (s != t)
  | .finite s a, .infinite t => if a.val = 0 then .nan else .infinite (s != t)
  | .finite s a, .finite t b => ofRatio (s != t) (quantaOfRank a * quantaOfRank b) quantaPerUnit

def div : Double → Double → Double
  | .nan, _ => .nan
  | _, .nan => .nan
  | .infinite _, .infinite _ => .nan
  | .infinite s, .finite t _ => .infinite (s != t)
  | .finite s _, .infinite t => ofRank (s != t) 0
  | .finite s a, .finite t b =>
    if b.val = 0 then if a.val = 0 then .nan else .infinite (s != t)
    else ofRatio (s != t) (quantaOfRank a * quantaPerUnit) (quantaOfRank b)

/-- The remainder of the quotient cut to a whole number. It has the sign of the dividend and is
never rounded. -/
def remainder : Double → Double → Double
  | .nan, _ => .nan
  | _, .nan => .nan
  | .infinite _, _ => .nan
  | .finite s a, .infinite _ => .finite s a
  | .finite s a, .finite _ b =>
    if b.val = 0 then .nan else ofRatio s (quantaOfRank a % quantaOfRank b) 1

def sqrt : Double → Double
  | .nan => .nan
  | .infinite negative => if negative then .nan else .infinite false
  | .finite negative rank =>
    if rank.val = 0 then .finite negative rank
    else if negative then .nan
    else ofRatio false (floorSqrt (quantaOfRank rank * quantaPerUnit)) 1

/-- A magnitude replaced by a whole number made from its quanta; the sign stays. -/
def toWhole (whole : Bool → Nat → Nat) : Double → Double
  | .nan => .nan
  | .infinite negative => .infinite negative
  | .finite negative rank =>
    ofRatio negative (whole negative (quantaOfRank rank) * quantaPerUnit) 1

def coveringUnits (quanta : Nat) : Nat := (quanta + (quantaPerUnit - 1)) / quantaPerUnit

def floor : Double → Double :=
  toWhole fun negative quanta =>
    if negative then coveringUnits quanta else quanta / quantaPerUnit

def ceil : Double → Double :=
  toWhole fun negative quanta =>
    if negative then quanta / quantaPerUnit else coveringUnits quanta

/-- The nearest whole number, a half going to the even one. -/
def rint : Double → Double := toWhole fun _ quanta => roundDiv quanta quantaPerUnit

/-- The whole part of a finite double, and zero for the others. -/
def toInt : Double → Int
  | .finite negative rank =>
    let units : Int := (quantaOfRank rank / quantaPerUnit : Nat)
    if negative then -units else units
  | _ => 0

@[simp] theorem neg_neg (x : Double) : x.neg.neg = x := by
  cases x <;> simp [neg]

theorem nan_add (x : Double) : add .nan x = .nan := rfl

theorem add_nan (x : Double) : add x .nan = .nan := by cases x <;> rfl

theorem nan_mul (x : Double) : mul .nan x = .nan := rfl

theorem mul_nan (x : Double) : mul x .nan = .nan := by cases x <;> rfl

theorem nan_div (x : Double) : div .nan x = .nan := rfl

theorem div_nan (x : Double) : div x .nan = .nan := by cases x <;> rfl

theorem nan_remainder (x : Double) : remainder .nan x = .nan := rfl

theorem remainder_nan (x : Double) : remainder x .nan = .nan := by cases x <;> rfl

end Reckoner.Double
