import Reckoner.Session

/-!
# Reports

The outcomes of a list of expressions as a table of four columns: the expression, its value, the
value as it is displayed and the kind of failure.
-/

namespace Reckoner

abbrev Report := List Outcome

namespace Report

def columns : List String := ["expression", "result", "formatted", "error"]

def ofExpressions (mode : AngleMode) (expressions : List (Option String)) : Report :=
  expressions.map (tryEvaluate mode)

def failures (report : Report) : Nat := report.countP fun outcome => !outcome.isOk

end Report

end Reckoner
