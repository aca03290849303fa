import Reckoner.Report.Csv

/-!
# Reading comma-separated values

The records of a text: commas part the fields and an end of line parts the records, except between
quotes, where a quote written twice is one. A quote anywhere else is refused.
-/

namespace Reckoner.Csv

inductive Place where
  | record
  | field
  | bare
  | quoted
  | afterQuote
  deriving DecidableEq

/-- A character in front of the first field. -/
def addChar (c : Char) : List (List (List Char)) → List (List (List Char))
  | (field :: fields) :: records => ((c :: field) :: fields) :: records
  | records => records

def addField : List (List (List Char)) → List (List (List Char))
  | fields :: records => ([] :: fields) :: records
  | [] => []

def addRecord (records : List (List (List Char))) : List (List (List Char)) := [[]] :: records

/-- The records of the text from a place on; the first field is what is left of the field there. -/
def readFrom : Place → List Char → Option (List (List (List Char)))
  | .record, [] => some []
  | _, [] => none
  | .quoted, c :: rest =>
    if c = '"' then readFrom .afterQuote rest else (readFrom .quoted rest).map (addChar c)
  | place, c :: rest =>
    if c = ',' then (readFrom .field rest).map addField
    else if c = '\n' then (readFrom .record rest).map addRecord
    else if c = '"' then
      match place with
      | .record | .field => readFrom .quoted rest
      | .afterQuote => (readFrom .quoted rest).map (addChar '"')
      | _ => none
    else if place = .afterQuote then none
    else (readFrom .bare rest).map (addChar c)

def read (text : String) : Option (List (List String)) :=
  (readFrom .record text.toList).map fun records => records.map (·.map String.ofList)

end Reckoner.Csv
