/-!
# Lines of a text

A file ends its lines with a line feed, a carriage return or both; the lines that are typed end
with a line feed only.
-/

namespace Reckoner.Text

def unifyLineEnds : List Char → List Char
  | [] => []
  | '\r' :: '\n' :: rest => '\n' :: unifyLineEnds rest
  | c :: rest => (if c = '\r' then '\n' else c) :: unifyLineEnds rest

/-- The pieces of a text between its line feeds, the first one apart. -/
def piecesOf : List Char → List Char × List (List Char)
  | [] => ([], [])
  | c :: rest =>
    let (first, others) := piecesOf rest
    if c = '\n' then ([], first :: others) else (c :: first, others)

/-- The lines of a text; behind a last line feed there is no further line. -/
def linesOf (cs : List Char) : List (List Char) :=
  let (first, others) := piecesOf cs
  let pieces := first :: others
  if pieces.getLast? = some [] then pieces.dropLast else pieces

def fileLines (text : String) : List String :=
  (linesOf (unifyLineEnds text.toList)).map String.ofList

def typedLines (text : String) : List String := (linesOf text.toList).map String.ofList

def fileEnds : List String := ["\n", "\r\n", "\r"]

structure IsLine (line : String) : Prop where
  notEmpty : line ≠ ""
  noFeed : '\n' ∉ line.toList
  noReturn : '\r' ∉ line.toList

/-- The text has one line after the other, each with one of the ends behind it. The last line may
do without. -/
inductive HasLines (ends : List String) : List String → String → Prop where
  | nil : HasLines ends [] ""
  | last (line : String) : HasLines ends [line] line
  | cons {ending text : String} {rest : List String} (line : String) (hmem : ending ∈ ends)
      (hbehind : HasLines ends rest text) : HasLines ends (line :: rest) (line ++ ending ++ text)

/-- The text of a file is cut into these lines, blank and empty ones included. A line has no end of
a line inside. -/
structure IsCutInto (text : String) (lines : List String) : Prop where
  hasLines : HasLines fileEnds lines text
  noEnds : ∀ line ∈ lines, '\n' ∉ line.toList ∧ '\r' ∉ line.toList

end Reckoner.Text
