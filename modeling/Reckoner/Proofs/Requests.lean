import Reckoner.CommandLine.Latest

/-!
# What a request makes of a dialogue

A request that evaluates an expression makes of a dialogue what the evaluation makes of it. Any other
request leaves the last outcome and the text shown as they are, and changes one thing in the session
at most. What every request keeps is seen from these cases.
-/

namespace Reckoner.CommandLine.Dialogue

set_option autoImplicit false

inductive Becomes (dialogue : Dialogue) (request : Request) : Dialogue → Prop where
  | evaluated {expression : Option String}
      (hasked : dialogue.evaluated? request = some expression) :
      Becomes dialogue request (dialogue.evaluate expression)
  | same (hidle : dialogue.evaluated? request = none) : Becomes dialogue request dialogue
  | modeSet (hidle : dialogue.evaluated? request = none) (mode : AngleMode) :
      Becomes dialogue request { dialogue with session := dialogue.session.setMode mode }
  | memoryCleared (hidle : dialogue.evaluated? request = none) :
      Becomes dialogue request { dialogue with session := dialogue.session.clearMemory }
  | memoryAdded (hidle : dialogue.evaluated? request = none) (text : Option String) :
      Becomes dialogue request { dialogue with session := dialogue.session.addToMemory text }
  | memorySubtracted (hidle : dialogue.evaluated? request = none) (text : Option String) :
      Becomes dialogue request { dialogue with session := dialogue.session.subtractFromMemory text }
  | historyCleared (hidle : dialogue.evaluated? request = none) :
      Becomes dialogue request { dialogue with session := dialogue.session.clearHistory }

theorem becomes_of_respond {dialogue after : Dialogue} {request : Request}
    (h : (dialogue.respond request).2 = some after) : dialogue.Becomes request after := by
  cases request with
  | quit => cases h
  | nothing | help | recallMemory | listHistory =>
    cases h
    exact .same rfl
  | setMode mode =>
    cases h
    exact .modeSet rfl mode
  | clearMemory =>
    cases h
    exact .memoryCleared rfl
  | addToMemory _ =>
    cases h
    exact .memoryAdded rfl _
  | subtractFromMemory _ =>
    cases h
    exact .memorySubtracted rfl _
  | clearHistory =>
    cases h
    exact .historyCleared rfl
  | evaluate text =>
    cases h
    exact .evaluated rfl
  | recallEntry number =>
    rw [respond] at h
    cases hrecalled : dialogue.recalled? number with
    | none =>
      rw [hrecalled] at h
      cases h
      exact .same hrecalled
    | some expression =>
      rw [hrecalled] at h
      cases h
      exact .evaluated hrecalled

end Reckoner.CommandLine.Dialogue
