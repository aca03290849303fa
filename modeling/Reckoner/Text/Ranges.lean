/-!
# Tables of characters

A property of characters is a list of ranges of code points; a change of case is a list of runs
whose members all move by the same amount.
-/

namespace Reckoner.Text

/-- The code point lies in one of the ranges, ends included. -/
def inRanges (ranges : List (Nat × Nat)) (code : Nat) : Bool :=
  ranges.any fun (first, last) => first ≤ code && code ≤ last

/-- The code points `first`, `first + step`, up to `last`, each of which is moved by `offset`. -/
structure CaseRun where
  first : Nat
  last : Nat
  step : Nat
  offset : Int

def CaseRun.holds (run : CaseRun) (code : Nat) : Bool :=
  run.first ≤ code && code ≤ run.last && (code - run.first) % run.step == 0

/-- A character moved by the run that holds it; the others stay. -/
def mapRuns (runs : List CaseRun) (c : Char) : Char :=
  match runs.find? fun run => run.holds c.toNat with
  | some run => Char.ofNat (c.toNat + run.offset).toNat
  | none => c

end Reckoner.Text
