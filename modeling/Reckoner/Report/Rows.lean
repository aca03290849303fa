import Reckoner.Decimal.Scientific
import Reckoner.Report

/-!
# The record of a line

What a record of a report says of the line it was made for, field by field and as texts only: the
line without the blanks around it, a numeral of its value, the value as it is displayed and the
kind of failure.
-/

namespace Reckoner.Report

/-- The record of a line with a value or a failure in a mode. -/
inductive IsRecordOf (mode : AngleMode) (line : String) : List String → Prop where
  | value {x : Double} {result : String} (hevaluates : evaluate mode (some line) = .ok x)
      (hfilled : result ≠ "") (hreads : Double.ofNumeral? result = some x) :
      IsRecordOf mode line [Text.strip line, result, x.display, ""]
  | failure {failure : Failure} (hfails : evaluate mode (some line) = .error failure)
      (hnamed : failure.kind.label ≠ "") :
      IsRecordOf mode line [Text.strip line, "", failureText, failure.kind.label]

end Reckoner.Report
