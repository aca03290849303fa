import Reckoner.Decimal.Display
import Reckoner.Evaluation
import Reckoner.History

/-!
# Sessions

A session is an angle mode, a memory for one number, a history and the last outcome. Evaluating an
expression shows its result and enters it in the history; a failure is shown as one word and only
the outcome tells it apart.
-/

namespace Reckoner

/-- What is shown in place of the result of a failed expression. -/
def failureText : String := "Error"

namespace Outcome

def shown (outcome : Outcome) : String :=
  match outcome.result with
  | .ok value => value.display
  | .error _ => failureText

def failureLabel? (outcome : Outcome) : Option String :=
  outcome.failure?.map fun failure => failure.kind.label

end Outcome

structure Session where
  mode : AngleMode
  history : History
  memory : Double := Double.zero
  last : Option Outcome := none

namespace Session

def defaultMode : AngleMode := .radians

inductive StartFault where
  | unknownMode (mode : UnknownMode)
  | capacity (fault : History.CapacityFault)

def start (mode : Option String) (capacity : Option Int) : Except StartFault Session :=
  match defaultMode.readOr mode with
  | .error unknown => .error (.unknownMode unknown)
  | .ok mode =>
    match History.new capacity none with
    | .error fault => .error (.capacity fault)
    | .ok history => .ok { mode, history }

def status (session : Session) : String :=
  session.mode.badge ++ " | M=" ++ session.memory.display

/-- The history after an outcome: results are entered, failures are not. -/
def record (history : History) (outcome : Outcome) : History :=
  match outcome.expression, outcome.result with
  | some expression, .ok _ => history.add expression outcome.shown
  | _, _ => history

def outcome (session : Session) (expression : Option String) : Outcome :=
  tryEvaluate session.mode expression

def after (session : Session) (outcome : Outcome) : Session :=
  { session with last := some outcome, history := record session.history outcome }

/-- The outcomes of expressions, one evaluated after the other. -/
def outcomes (session : Session) : List String → List Outcome
  | [] => []
  | expression :: rest =>
    let outcome := session.outcome (some expression)
    outcome :: (session.after outcome).outcomes rest

/-- No text, or the word shown for failures in any case. -/
def isNoValue : Option String → Bool
  | none => true
  | some text => Text.lower (Text.strip text) == Text.lower failureText

/-- The value of a text, and zero where it has none. -/
def valueOrZero (session : Session) (text : Option String) : Double :=
  if isNoValue text then Double.zero
  else (session.outcome text).value?.getD Double.zero

def setMode (session : Session) (mode : AngleMode) : Session := { session with mode }

def toggle (session : Session) : Session := session.setMode session.mode.other

def clearMemory (session : Session) : Session := { session with memory := Double.zero }

def addToMemory (session : Session) (text : Option String) : Session :=
  { session with memory := session.memory.add (session.valueOrZero text) }

def subtractFromMemory (session : Session) (text : Option String) : Session :=
  { session with memory := session.memory.sub (session.valueOrZero text) }

def clearHistory (session : Session) : Session :=
  { session with history := session.history.clear }

inductive Step where
  | evaluate (text : Option String)
  | toggle
  | setMode (mode : Option String)
  | status
  | current (text : Option String)
  | clearMemory
  | recallMemory
  | addToMemory (text : Option String)
  | subtractFromMemory (text : Option String)
  | expressionAt (index : Int)
  | entries
  | clearHistory
  | rows

inductive Answer where
  | nothing
  | text (text : String)
  | mode (mode : AngleMode)
  | number (value : Double)
  | recalled (expression : Option String)
  | entries (entries : List String)
  | rows (rows : List (String × String))

inductive StepFault where
  | unknownMode (mode : UnknownMode)
  | index (fault : History.IndexFault)

def perform (session : Session) : Step → Except StepFault Answer × Session
  | .evaluate text =>
    let outcome := session.outcome text
    (.ok (.text outcome.shown), session.after outcome)
  | .toggle => (.ok (.mode session.toggle.mode), session.toggle)
  | .setMode mode =>
    match defaultMode.readOr mode with
    | .ok mode => (.ok .nothing, session.setMode mode)
    | .error unknown => (.error (.unknownMode unknown), session)
  | .status => (.ok (.text session.status), session)
  | .current text => (.ok (.number (session.valueOrZero text)), session)
  | .clearMemory => (.ok .nothing, session.clearMemory)
  | .recallMemory => (.ok (.text session.memory.display), session)
  | .addToMemory text =>
    let after := session.addToMemory text
    (.ok (.number after.memory), after)
  | .subtractFromMemory text =>
    let after := session.subtractFromMemory text
    (.ok (.number after.memory), after)
  | .expressionAt index =>
    (((session.history.expressionAt index).map .recalled).mapError .index, session)
  | .entries => (.ok (.entries session.history.entries), session)
  | .clearHistory => (.ok .nothing, session.clearHistory)
  | .rows => (.ok (.rows session.history.rows), session)

def run (session : Session) (steps : List Step) : Session :=
  steps.foldl (fun session step => (session.perform step).2) session

end Session

end Reckoner
