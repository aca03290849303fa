import Reckoner.Session

/-!
# What a run of steps comes to

A run of steps is a list of what was asked, each step with the angle mode it was asked in. The
parts of a session are read off such a list from the outside: which mode is left, which outcome was
the last, what the memory adds up to and which lines the history is due. No session is carried
along here.
-/

namespace Reckoner.Session

def modeAfter (mode : AngleMode) : Step → AngleMode
  | .toggle => mode.other
  | .setMode name =>
    match defaultMode.readOr name with
    | .ok mode => mode
    | .error _ => mode
  | _ => mode

/-- Steps, each with the mode that the steps before it lead to. -/
def timed (mode : AngleMode) : List Step → List (AngleMode × Step)
  | [] => []
  | step :: rest => (mode, step) :: timed (modeAfter mode step) rest

/-- What comes behind the last member of a kind; all of the list if there is none. -/
def sinceLast {α : Type} (isKind : α → Bool) (members : List α) : List α :=
  (members.reverse.takeWhile fun member => !isKind member).reverse

def clearsMemory : AngleMode × Step → Bool
  | (_, .clearMemory) => true
  | _ => false

def clearsHistory : AngleMode × Step → Bool
  | (_, .clearHistory) => true
  | _ => false

def outcome? : AngleMode × Step → Option Outcome
  | (mode, .evaluate text) => some (tryEvaluate mode text)
  | _ => none

/-- The value of a text, and zero for no text and for a text without a value. -/
def valueIn (mode : AngleMode) (text : Option String) : Double :=
  match evaluate mode text with
  | .ok value => value
  | .error _ => Double.zero

/-- What is added to the memory. -/
def term? : AngleMode × Step → Option Double
  | (mode, .addToMemory text) => some (valueIn mode text)
  | (mode, .subtractFromMemory text) => some (valueIn mode text).neg
  | _ => none

def line? : AngleMode × Step → Option String
  | (mode, .evaluate (some text)) =>
    match evaluate mode (some text) with
    | .ok value => some (text ++ " = " ++ value.display)
    | .error _ => none
  | _ => none

def lastOutcome? (events : List (AngleMode × Step)) : Option Outcome :=
  (events.filterMap outcome?).getLast?

/-- The sum from zero of what was added to the memory since it was cleared, from left to right. -/
def memorySum (events : List (AngleMode × Step)) : Double :=
  ((sinceLast clearsMemory events).filterMap term?).foldl Double.add Double.zero

/-- The lines that were entered since the history was cleared. -/
def linesEntered (events : List (AngleMode × Step)) : List String :=
  (sinceLast clearsHistory events).filterMap line?

/-- The step asks for something, or it fails and has nothing to leave behind. Only an evaluation
leaves its failure behind. -/
def isIdle (mode : AngleMode) : Step → Bool
  | .status | .current _ | .recallMemory | .expressionAt _ | .entries | .rows => true
  | .setMode name => (defaultMode.readOr name).toOption.isNone
  | .addToMemory text | .subtractFromMemory text => (evaluate mode text).toOption.isNone
  | .evaluate _ | .toggle | .clearMemory | .clearHistory => false

end Reckoner.Session
