import Reckoner.Session
import Reckoner.Text.WholeNumber

/-!
# Interactive use

Each line is a command or an expression. A command is the first word of a line in any case; what
follows it is its argument. A refused command changes nothing.
-/

namespace Reckoner.CommandLine

inductive Request where
  | nothing
  | quit
  | help
  | setMode (mode : AngleMode)
  | clearMemory
  | recallMemory
  | addToMemory (text : String)
  | subtractFromMemory (text : String)
  | listHistory
  | recallEntry (number : String)
  | clearHistory
  | evaluate (text : String)
  deriving DecidableEq

def cutAtSpace (text : String) : String × String :=
  let cs := text.toList
  (String.ofList (cs.takeWhile (· != ' ')), String.ofList ((cs.dropWhile (· != ' ')).drop 1))

def Request.ofCommand? (command argument : String) : Option Request :=
  match command with
  | "quit" | "exit" => some .quit
  | "help" => some .help
  | "deg" => some (.setMode .degrees)
  | "rad" => some (.setMode .radians)
  | "mc" => some .clearMemory
  | "mr" => some .recallMemory
  | "m+" => some (.addToMemory argument)
  | "m-" => some (.subtractFromMemory argument)
  | "history" => some (if argument.isEmpty then .listHistory else .recallEntry argument)
  | "clear" => some .clearHistory
  | _ => none

def Request.ofLine (line : String) : Request :=
  let text := Text.strip line
  if text.isEmpty then .nothing
  else
    let (word, argument) := cutAtSpace text
    (Request.ofCommand? (Text.lower word) argument).getD (.evaluate text)

/-- The session, and the text shown for the last expression. -/
structure Dialogue where
  session : Session
  shown : Option String := none

namespace Dialogue

def helpText : String :=
  "Commands:\n" ++
  "  deg / rad        switch angle mode\n" ++
  "  mc / mr          clear / recall memory\n" ++
  "  m+ EXPR, m- EXPR add / subtract EXPR (or the last result) to memory\n" ++
  "  history          show history, history N recalls entry N\n" ++
  "  clear            clear history\n" ++
  "  quit             exit\n"

def greeting (session : Session) : String :=
  "[" ++ session.status ++ "] type 'help' for commands\n"

def prompt : String := "> "

def noEntry : String := "No such history entry\n"

/-- An argument, or the text shown last where there is none. -/
def argumentOrShown (dialogue : Dialogue) (argument : String) : Option String :=
  if argument.isEmpty then dialogue.shown else some argument

/-- The expression of the entry with the given number, counted from one. -/
def recalled? (dialogue : Dialogue) (number : String) : Option (Option String) :=
  match Text.wholeNumber? number with
  | none => none
  | some n => if n < 1 then none else (dialogue.session.history.expressionAt (n - 1)).toOption

def entryNumber (n : Nat) : String :=
  let digits := Nat.toDigits 10 n
  String.ofList (List.replicate (3 - digits.length) ' ' ++ digits)

def listing (first : Nat) : List String → String
  | [] => ""
  | entry :: rest => entryNumber first ++ ". " ++ entry ++ "\n" ++ listing (first + 1) rest

def evaluate (dialogue : Dialogue) (expression : Option String) : Dialogue :=
  let outcome := dialogue.session.outcome expression
  { session := dialogue.session.after outcome, shown := some outcome.shown }

/-- Go on with another session, whose status is shown. -/
def showStatus (dialogue : Dialogue) (session : Session) : String × Option Dialogue :=
  (session.status ++ "\n", some { dialogue with session })

/-- What a request prints, and the dialogue after it unless that is its end. -/
def respond (dialogue : Dialogue) : Request → String × Option Dialogue
  | .nothing => ("", some dialogue)
  | .quit => ("", none)
  | .help => (helpText, some dialogue)
  | .setMode mode => dialogue.showStatus (dialogue.session.setMode mode)
  | .clearMemory => dialogue.showStatus dialogue.session.clearMemory
  | .recallMemory => (dialogue.session.memory.display ++ "\n", some dialogue)
  | .addToMemory argument =>
    dialogue.showStatus (dialogue.session.addToMemory (dialogue.argumentOrShown argument))
  | .subtractFromMemory argument =>
    dialogue.showStatus (dialogue.session.subtractFromMemory (dialogue.argumentOrShown argument))
  | .listHistory => (listing 1 dialogue.session.history.entries, some dialogue)
  | .recallEntry number =>
    match dialogue.recalled? number with
    | none => (noEntry, some dialogue)
    | some expression =>
      let after := dialogue.evaluate expression
      (expression.getD "None" ++ History.defaultSeparator ++ after.shown.getD "" ++ "\n",
        some after)
  | .clearHistory => ("", some { dialogue with session := dialogue.session.clearHistory })
  | .evaluate text =>
    let after := dialogue.evaluate (some text)
    (after.shown.getD "" ++ "\n", some after)

def step (dialogue : Dialogue) (line : String) : String × Option Dialogue :=
  dialogue.respond (Request.ofLine line)

/-- What the rest of a dialogue prints. The prompt is shown for the end of the input too. -/
def transcript (dialogue : Dialogue) : List String → String
  | [] => prompt
  | line :: rest =>
    match dialogue.step line with
    | (output, none) => prompt ++ output
    | (output, some after) => prompt ++ output ++ transcript after rest

end Dialogue

end Reckoner.CommandLine
