import Reckoner.CommandLine.Interactive

/-!
# The latest result of a dialogue

What typed lines evaluate, seen from the outside: which lines ask for an evaluation, of what, and
what the evaluations come to one after the other. Nothing here knows what a dialogue remembers.
-/

namespace Reckoner.CommandLine.Dialogue

/-- The expression that a request evaluates, if it evaluates any. That of an entry may be missing. -/
def evaluated? (dialogue : Dialogue) : Request → Option (Option String)
  | .evaluate text => some (some text)
  | .recallEntry number => dialogue.recalled? number
  | _ => none

def outcome? (dialogue : Dialogue) (line : String) : Option Outcome :=
  (dialogue.evaluated? (Request.ofLine line)).map dialogue.session.outcome

/-- The dialogue after lines, unless one of them ends it. -/
def after? (dialogue : Dialogue) : List String → Option Dialogue
  | [] => some dialogue
  | line :: rest => (dialogue.step line).2.bind fun after => after.after? rest

def outcomes (dialogue : Dialogue) : List String → List Outcome
  | [] => []
  | line :: rest =>
    (dialogue.outcome? line).toList ++
      ((dialogue.step line).2.elim [] fun after => after.outcomes rest)

def latest? (dialogue : Dialogue) (lines : List String) : Option Outcome :=
  (dialogue.outcomes lines).getLast?

end Reckoner.CommandLine.Dialogue
