import Reckoner.CommandLine.Interactive

/-!
# What every way of use comes to

An expression may be an argument, a line of a file or a line that is typed. What is shown for it
and whether it fails depend on the expression and the angle mode alone; nothing here knows how the
expression is read. A line that is typed has to be told from a command first.
-/

namespace Reckoner.CommandLine

/-- What is shown for an expression: its value, or the word for failures. -/
def answer (mode : AngleMode) (expression : String) : String :=
  (evaluate mode (some expression)).toOption.elim failureText Double.display

def commandWords : List String :=
  ["quit", "exit", "help", "deg", "rad", "mc", "mr", "m+", "m-", "history", "clear"]

/-- The expression fits in one line and is not taken for a command there. There may be blanks
around it. -/
structure Enterable (expression : String) : Prop where
  notBlank : Text.allBlank expression = false
  noFeed : '\n' ∉ expression.toList
  noReturn : '\r' ∉ expression.toList
  noCommand : Text.lower (cutAtSpace (Text.strip expression)).1 ∉ commandWords

instance (expression : String) : Decidable (Enterable expression) :=
  decidable_of_iff (Text.allBlank expression = false ∧ '\n' ∉ expression.toList ∧
      '\r' ∉ expression.toList ∧
      Text.lower (cutAtSpace (Text.strip expression)).1 ∉ commandWords)
    ⟨fun ⟨hnotBlank, hnoFeed, hnoReturn, hnoCommand⟩ => ⟨hnotBlank, hnoFeed, hnoReturn, hnoCommand⟩,
      fun h => ⟨h.notBlank, h.noFeed, h.noReturn, h.noCommand⟩⟩

end Reckoner.CommandLine
