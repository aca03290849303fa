import Reckoner.Session.Results

/-!
# A history as a queue

A history that is asked one thing after the other, with any texts at all: a separator may stand
anywhere in them. It is due the last of the lines that were added since it was last cleared.
-/

namespace Reckoner.History

def separatorFor (separator : Option String) : String :=
  if separator.getD "" = "" then defaultSeparator else separator.getD ""

def after (history : History) (steps : List Step) : History :=
  steps.foldl (fun history step => (history.perform step).2) history

namespace Step

def clears : Step → Bool
  | clear => true
  | _ => false

def line? (separator : String) : Step → Option String
  | add expression result => some (expression ++ separator ++ result)
  | _ => none

end Step

/-- The lines that were added since the history was cleared. -/
def linesAdded (separator : String) (steps : List Step) : List String :=
  (Session.sinceLast Step.clears steps).filterMap (Step.line? separator)

/-- The two parts of a line around its first separator. -/
structure IsCut (separator line expression result : String) : Prop where
  append : expression ++ separator ++ result = line
  first : ∀ before behind, before ++ separator ++ behind = line →
    expression.length ≤ before.length

/-- The history holds the last of these lines, as many as it has room for. It has a row for each
entry and cuts the entry the same way when it is asked for the expression under the place of the
entry or under that place counted from the end; there is nothing under other places. -/
structure IsQueueOf (history : History) (lines : List String) : Prop where
  entries : history.entries = lastMembers history.capacity lines
  length : history.entries.length = min history.capacity lines.length
  beyond : ∀ index : Int, (∃ fault, history.expressionAt index = .error fault) ↔
    index < -history.entries.length ∨ history.entries.length ≤ index
  unchanged : ∀ index, (history.perform (.expressionAt index)).2 = history
  rows : history.rows.length = history.entries.length
  row : ∀ (place : Nat) (h : place < history.entries.length), ∃ expression result,
    history.rows[place]? = some (expression, result) ∧
    IsCut history.separator history.entries[place] expression result ∧
    ∀ index : Int, index = place ∨ index = place - history.entries.length →
      history.expressionAt index = .ok (if expression = "" then none else some expression)

end Reckoner.History
