import Reckoner.Decimal.Layout
import Reckoner.Report

/-!
# Reports as comma-separated values

One record a line, the fields parted by commas. A field that holds a comma, a quote or the end of a
line is put between quotes, with each quote inside written twice.
-/

namespace Reckoner.Csv

def needsQuotes (c : Char) : Bool := c == ',' || c == '"' || c == '\r' || c == '\n'

def doubleQuotes (cs : List Char) : List Char :=
  cs.flatMap fun c => if c = '"' then ['"', '"'] else [c]

def field (cs : List Char) : List Char :=
  if cs.any needsQuotes then '"' :: doubleQuotes cs ++ ['"'] else cs

def record : List (List Char) → List Char
  | [] => ['\n']
  | [last] => field last ++ ['\n']
  | first :: rest => field first ++ ',' :: record rest

def document (records : List (List (List Char))) : List Char := records.flatMap record

end Reckoner.Csv

namespace Reckoner.Report

/-- The fields of a row: what a failed row has no value for and a good row no failure is empty. -/
def rowFields (outcome : Outcome) : List (List Char) :=
  [ (outcome.expression.getD "").toList,
    (outcome.value?.map Double.exactChars).getD [],
    outcome.shown.toList,
    (outcome.failureLabel?.getD "").toList ]

def csv (report : Report) : String :=
  String.ofList (Csv.document (columns.map String.toList :: report.map rowFields))

end Reckoner.Report
