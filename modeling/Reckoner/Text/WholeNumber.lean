import Reckoner.Text.Blank

/-!
# Whole numbers

A whole number is read from digits of any script, with a sign in front of them if there is one,
single underscores between them and blanks around it all.
-/

namespace Reckoner.Text

/-- The digits zero beyond ASCII; the nine other digits of a script follow its zero. -/
def scriptZeros : List Nat :=
  [
   1632, 1776, 1984, 2406, 2534, 2662, 2790, 2918, 3046, 3174, 3302, 3430, 3558, 3664, 3792, 3872,
   4160, 4240, 6112, 6160, 6470, 6608, 6784, 6800, 6992, 7088, 7232, 7248, 42528, 43216, 43264,
   43472, 43504, 43600, 44016, 65296, 66720, 68912, 69734, 69872, 69942, 70096, 70384, 70736,
   70864, 71248, 71360, 71472, 71904, 72016, 72784, 73040, 73120, 92768, 92864, 93008, 120782,
   120792, 120802, 120812, 120822, 123200, 123632, 125264, 130032]

def digitValue? (c : Char) : Option Nat :=
  if c.toNat < 128 then if c.isDigit then some (c.toNat - 48) else none
  else (scriptZeros.find? fun first => first ≤ c.toNat && c.toNat < first + 10).map (c.toNat - ·)

/-- Blanks that may stand around a number: the ASCII separators are none of them. -/
def isNumberBlank (c : Char) : Bool := isBlank c && !(28 ≤ c.toNat && c.toNat < 32)

/-- The value of digits with single underscores between them, after digits of value `sofar`. -/
def digitsValue? (sofar : Nat) : List Char → Option Nat
  | [] => some sofar
  | '_' :: c :: rest => do digitsValue? (10 * sofar + (← digitValue? c)) rest
  | c :: rest => do digitsValue? (10 * sofar + (← digitValue? c)) rest

def natural? : List Char → Option Nat
  | [] => none
  | c :: rest => do digitsValue? (← digitValue? c) rest

/-- The most digits that are read. -/
def maxDigits : Nat := 4300

def signed? : List Char → Option Int
  | '-' :: rest => (natural? rest).map fun n => -(n : Int)
  | '+' :: rest => (natural? rest).map fun n => (n : Int)
  | rest => (natural? rest).map fun n => (n : Int)

def wholeNumber? (s : String) : Option Int :=
  let inner := ((s.toList.dropWhile isNumberBlank).reverse.dropWhile isNumberBlank).reverse
  if maxDigits < (inner.filter fun c => (digitValue? c).isSome).length then none
  else signed? inner

end Reckoner.Text
