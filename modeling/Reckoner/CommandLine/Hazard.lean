import Reckoner.CommandLine.Latest
import Reckoner.CommandLine.Run
import Reckoner.Proofs.Hazard

/-!
# Interactive use with hazards

A dialogue once more, word by word and with each operation left partial that can be refused: making
a session, finding a mode by its name, working on a text that may be missing, taking the value of an
outcome, checking a count of places. Whatever is refused ends the dialogue. Only where an entry is
asked for, a text that is no number and a place without an entry are caught. Nothing here says that
nothing else is ever refused.
-/

namespace Reckoner

/-- What ends a dialogue before its end. -/
inductive Crash where
  | start (fault : Session.StartFault)
  | evaluation (hazard : Hazard)
  | unknownMode (mode : UnknownMode)
  | missingText
  | missingValue (outcome : Outcome)
  | places (fault : Double.PlacesFault)

/-- What is caught where an entry is asked for. -/
inductive EntryFault where
  | notNumber (text : String)
  | tooSmall (number : Int)
  | index (fault : History.IndexFault)

namespace CommandLine

def commandWord (line : String) : String := Text.lower (cutAtSpace (Text.strip line)).1

def commandArgument (line : String) : String := (cutAtSpace (Text.strip line)).2

def quits (line : String) : Bool := ["quit", "exit"].contains (commandWord line)

def untilQuit (lines : List String) : List String := lines.takeWhile fun line => !quits line

namespace Dialogue

/-- The dialogue at its end: before a line that ends it, or behind the last line. -/
def final (dialogue : Dialogue) : List String → Dialogue
  | [] => dialogue
  | line :: rest => (dialogue.step line).2.elim dialogue fun after => after.final rest

/-- The text is no number, or there is no entry with that number. -/
def LacksEntry (dialogue : Dialogue) (number : String) : Prop :=
  ∀ n, Text.wholeNumber? number = some n →
    n < 1 ∨ dialogue.session.history.entries.length < n

/-- An entry that is there has an expression, and to ask for another one changes nothing at all. -/
structure GuardsEntries (dialogue : Dialogue) : Prop where
  present : ∀ number, ¬ dialogue.LacksEntry number →
    ∃ expression, dialogue.recalled? number = some (some expression)
  never_missing : ∀ number, dialogue.recalled? number ≠ some none
  refused : ∀ line, commandWord line = "history" → commandArgument line ≠ "" →
    dialogue.LacksEntry (commandArgument line) → dialogue.step line = (noEntry, some dialogue)

end Dialogue

end CommandLine

namespace Unguarded

open CommandLine

def textOf : Option String → Except Crash String
  | some text => .ok text
  | none => .error .missingText

def valueOf (outcome : Outcome) : Except Crash Double :=
  match outcome.value? with
  | some value => .ok value
  | none => .error (.missingValue outcome)

def display (x : Double) : Except Crash String :=
  (Double.format Double.defaultPlaces x).mapError .places

def outcomeOf (mode : AngleMode) (expression : Option String) : Except Crash Outcome :=
  (tryEvaluate mode expression).mapError .evaluation

/-- The expression of the entry with a number, counted from one. -/
def expressionOf (history : History) (number : String) : Except EntryFault (Option String) :=
  match Text.wholeNumber? number with
  | none => .error (.notNumber number)
  | some n => if n < 1 then .error (.tooSmall n) else (history.expressionAt (n - 1)).mapError .index

namespace Session

def status (session : Session) : Except Crash String := do
  let shown ← display session.memory
  return session.mode.badge ++ " | M=" ++ shown

def setMode (session : Session) (name : String) : Except Crash Session := do
  let mode ← (AngleMode.read name).mapError .unknownMode
  return session.setMode mode

def evaluate (session : Session) (expression : Option String) :
    Except Crash (String × Session) := do
  let outcome ← outcomeOf session.mode expression
  if !outcome.isOk then return (failureText, { session with last := some outcome })
  else
    let value ← valueOf outcome
    let shown ← display value
    let history := session.history.add (expression.getD "None") shown
    return (shown, { session with last := some outcome, history })

/-- The value of a text, and zero where it has none. -/
def valueOrZero (session : Session) (text : Option String) : Except Crash Double :=
  if text.isNone then return Double.zero
  else do
    let given ← textOf text
    if Text.lower (Text.strip given) = Text.lower failureText then return Double.zero
    else
      let outcome ← outcomeOf session.mode (some given)
      if outcome.isOk then valueOf outcome else return Double.zero

def addToMemory (session : Session) (text : Option String) : Except Crash Session := do
  let value ← valueOrZero session text
  return { session with memory := session.memory.add value }

def subtractFromMemory (session : Session) (text : Option String) : Except Crash Session := do
  let value ← valueOrZero session text
  return { session with memory := session.memory.sub value }

end Session

namespace Dialogue

def showStatus (dialogue : Dialogue) (session : Session) :
    Except Crash (String × Option Dialogue) := do
  let status ← Session.status session
  return (status ++ "\n", some { dialogue with session })

def given (dialogue : Dialogue) (argument : String) : Option String :=
  if argument = "" then dialogue.shown else some argument

/-- The answer to a command with its argument; what is no command is an expression. -/
def obey (dialogue : Dialogue) (text command argument : String) :
    Except Crash (String × Option Dialogue) :=
  if command = "quit" ∨ command = "exit" then return ("", none)
  else if command = "help" then return (Dialogue.helpText, some dialogue)
  else if command = "deg" ∨ command = "rad" then do
    let session ← Session.setMode dialogue.session command
    showStatus dialogue session
  else if command = "mc" then showStatus dialogue dialogue.session.clearMemory
  else if command = "mr" then do
    let shown ← display dialogue.session.memory
    return (shown ++ "\n", some dialogue)
  else if command = "m+" then do
    let session ← Session.addToMemory dialogue.session (given dialogue argument)
    showStatus dialogue session
  else if command = "m-" then do
    let session ← Session.subtractFromMemory dialogue.session (given dialogue argument)
    showStatus dialogue session
  else if command = "history" then
    if argument = "" then
      return (Dialogue.listing 1 dialogue.session.history.entries, some dialogue)
    else
      match expressionOf dialogue.session.history argument with
      | .error _ => return (Dialogue.noEntry, some dialogue)
      | .ok expression => do
        let (shown, session) ← Session.evaluate dialogue.session expression
        return (expression.getD "None" ++ History.defaultSeparator ++ shown ++ "\n",
          some { session, shown := some shown })
  else if command = "clear" then
    return ("", some { dialogue with session := dialogue.session.clearHistory })
  else do
    let (shown, session) ← Session.evaluate dialogue.session (some text)
    return (shown ++ "\n", some { session, shown := some shown })

def step (dialogue : Dialogue) (line : String) : Except Crash (String × Option Dialogue) :=
  if Text.strip line = "" then return ("", some dialogue)
  else obey dialogue (Text.strip line) (commandWord line) (commandArgument line)

/-- What the rest of a dialogue prints, and the dialogue at its end. -/
def converse (dialogue : Dialogue) : List String → Except Crash (String × Dialogue)
  | [] => return (Dialogue.prompt, dialogue)
  | line :: rest => do
    let (output, after?) ← step dialogue line
    match after? with
    | none => return (Dialogue.prompt ++ output, dialogue)
    | some after =>
      let (others, final) ← converse after rest
      return (Dialogue.prompt ++ output ++ others, final)

end Dialogue

def runDialogue (options : Options) (input : String) : Except Crash (Conclusion × Dialogue) := do
  let name := if options.degrees then some "deg" else none
  let session ← (Reckoner.Session.start name none).mapError .start
  let status ← Session.status session
  let (printed, final) ← Dialogue.converse { session } (Text.typedLines input)
  return ({ printed := "[" ++ status ++ "] type 'help' for commands\n" ++ printed,
            ending := .ok (exitCode 0) }, final)

end Unguarded

end Reckoner
