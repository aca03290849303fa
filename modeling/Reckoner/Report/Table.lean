import Reckoner.Decimal.Layout
import Reckoner.Report

/-!
# Reports as printed tables

Each column is as wide as its widest cell and set to the right. The numbers of a report are written
alike: with six places less the zeros that all of them end in, or all with an exponent if one of
them is too small for six places, or too large for a narrow column.
-/

namespace Reckoner.Report

def tablePlaces : Nat := 6

/-- A number wider than this, in a report with a number above `largeNumber`, calls for exponents. -/
def narrowWidth : Nat := 12

def largeNumber : Double := Double.ofNat (10 ^ (6 : Nat))

def smallNumber : Double := Double.ofRatio false Double.quantaPerUnit (10 ^ tablePlaces)

def endingZeros (digits : List Char) : Nat := (digits.reverse.takeWhile (· == '0')).length

/-- The zeros that all the numbers end in, and no more than there are places. -/
def sharedZeros (numbers : List (List Char)) : Nat :=
  numbers.foldl (fun shared number => min shared (endingZeros number)) tablePlaces

/-- A number without its last `count` places; one place is left, zero if there was none. -/
def dropPlaces (count : Nat) (number : List Char) : List Char :=
  let kept := number.take (number.length - count)
  if kept.getLast? = some '.' then kept ++ ['0'] else kept

/-- The numbers with six places, less the zeros that all of them end in. -/
def fixedNumbers (values : List Double) : List (List Char) :=
  let numbers := values.map (Double.fixedChars tablePlaces)
  numbers.map (dropPlaces (sharedZeros numbers))

def needsExponents (values : List Double) : Bool :=
  let hasSmall := values.any fun x => Double.zero.lt x.abs && x.abs.lt smallNumber
  let hasLarge := values.any fun x => largeNumber.lt x.abs
  let hasWide := (fixedNumbers values).any fun number => narrowWidth < number.length
  hasSmall || (hasWide && hasLarge)

def writeNumbers (values : List Double) : List (List Char) :=
  if needsExponents values then values.map (Double.scientificChars tablePlaces)
  else fixedNumbers values

/-- The cells of the result column: the numbers in order, and a mark for each failed row. -/
def resultCells : Report → List (List Char) → List String
  | [], _ => []
  | outcome :: rest, numbers =>
    if outcome.isOk then
      String.ofList (numbers.headD []) :: resultCells rest (numbers.drop 1)
    else "NaN" :: resultCells rest numbers

/-- Tabs and ends of lines inside a cell are shown by two characters. -/
def cellChar (c : Char) : List Char :=
  if c = '\t' then ['\\', 't']
  else if c = '\r' then ['\\', 'r']
  else if c = '\n' then ['\\', 'n']
  else [c]

def textCell (text : String) : String := String.ofList (text.toList.flatMap cellChar)

/-- The cell of the error column: a good row shows that there is nothing, in a report without
failures by another word than in one with some. -/
def errorCell (report : Report) (outcome : Outcome) : String :=
  match outcome.failureLabel? with
  | some label => label
  | none => if report.failures = 0 then "None" else "NaN"

def setRight (width : Nat) (text : String) : String :=
  String.ofList (List.replicate (width - text.length) ' ' ++ text.toList)

def columnWidth (cells : List String) : Nat :=
  cells.foldl (fun width cell => max width cell.length) 0

def alignColumn (cells : List String) : List String := cells.map (setRight (columnWidth cells))

def joinColumns : List (List String) → List String
  | [] => []
  | [cells] => cells
  | cells :: rest => List.zipWith (fun cell line => cell ++ " " ++ line) cells (joinColumns rest)

/-- The columns with their headings. The heading of the numbers leaves room for a sign. -/
def tableColumns (report : Report) : List (List String) :=
  let numbers := writeNumbers (report.filterMap Outcome.value?)
  [ "expression" :: report.map fun outcome => textCell (outcome.expression.getD "None"),
    " result" :: resultCells report numbers,
    "formatted" :: report.map Outcome.shown,
    "error" :: report.map report.errorCell ]

def emptyTable : String :=
  "Empty DataFrame\nColumns: [expression, result, formatted, error]\nIndex: []\n"

def table (report : Report) : String :=
  if report.isEmpty then emptyTable
  else
    String.join ((joinColumns (report.tableColumns.map alignColumn)).map fun line => line ++ "\n")

end Reckoner.Report
