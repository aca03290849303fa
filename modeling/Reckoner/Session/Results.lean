import Reckoner.Session.Account

/-!
# Results that a history is filled with

A result is an expression together with the mode in which it had a value, and that value. A history
that was filled with results gives them back if what it answers, entry by entry, are the expression
and the shown value as they were before they were joined to one line.
-/

namespace Reckoner

structure Result where
  mode : AngleMode
  expression : String
  value : Double
  evaluates : evaluate mode (some expression) = .ok value

namespace Result

def of? (mode : AngleMode) (expression : String) : Option Result :=
  match h : evaluate mode (some expression) with
  | .ok value => some ⟨mode, expression, value, h⟩
  | .error _ => none

def shown (result : Result) : String := result.value.display

def line (separator : String) (result : Result) : String :=
  result.expression ++ separator ++ result.shown

end Result

def lastMembers {α : Type} (n : Nat) (members : List α) : List α :=
  members.drop (members.length - n)

namespace History

/-- What can be asked of a history that is filled with results only. -/
inductive Event where
  | enter (result : Result)
  | expressionAt (index : Int)
  | clear
  | rows
  | info

namespace Event

def step : Event → Step
  | enter result => .add result.expression result.shown
  | expressionAt index => .expressionAt index
  | clear => .clear
  | rows => .rows
  | info => .info

def clears : Event → Bool
  | clear => true
  | _ => false

def result? : Event → Option Result
  | enter result => some result
  | _ => none

end Event

def run (history : History) (events : List Event) : History :=
  events.foldl (fun history event => (history.perform event.step).2) history

/-- The results that were entered since the history was cleared. -/
def resultsEntered (events : List Event) : List Result :=
  (Session.sinceLast Event.clears events).filterMap Event.result?

/-- The history holds these results and gives each of them back: its expression under its place and
under the place counted from the end, both its parts as a row, and its shown value to whoever
evaluates the expression in the mode it was evaluated in. No other place has an entry. -/
structure GivesBack (history : History) (results : List Result) : Prop where
  entries : history.entries = results.map (Result.line history.separator)
  expressionAt : ∀ (place : Nat) (h : place < results.length),
    history.expressionAt place = .ok (some results[place].expression) ∧
    history.expressionAt (place - results.length) = .ok (some results[place].expression)
  beyond : ∀ index : Int, index < -results.length ∨ results.length ≤ index →
    ∃ fault, history.expressionAt index = .error fault
  rows : history.rows = results.map fun result => (result.expression, result.shown)
  again : ∀ result ∈ results, ∀ session : Session, session.mode = result.mode →
    (session.perform (.evaluate (some result.expression))).1 = .ok (.text result.shown)

end History

namespace Session

def result? : AngleMode × Step → Option Result
  | (mode, .evaluate (some text)) => Result.of? mode text
  | _ => none

def resultsEntered (events : List (AngleMode × Step)) : List Result :=
  (sinceLast clearsHistory events).filterMap result?

end Session

end Reckoner
