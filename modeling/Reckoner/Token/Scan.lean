import Reckoner.Decimal.Basic
import Reckoner.Failure
import Reckoner.Text.Blank
import Reckoner.Text.Letter
import Reckoner.Text.LowerCase

/-!
# From text to tokens

A text is cut from left to right into blanks and lexemes, each lexeme as long as it can be: a
number of ASCII digits with at most one point, a name that a letter begins, or a single symbol.
`lexeme` settles the lexeme at a place; the scan goes on behind it.
-/

namespace Reckoner.Token

def symbolKind? : Char → Option Kind
  | '(' => some .leftParen
  | ')' => some .rightParen
  | ',' => some .comma
  | '+' | '-' | '*' | '/' | '%' | '^' => some .operator
  | _ => none

def isNameChar (c : Char) : Bool := Text.isLetterOrNumeral c || c == '_'

/-- The digits at the start of a text, with one point among them at most. -/
def numberSpan (cs : List Char) : List Char :=
  let whole := cs.takeWhile Char.isDigit
  match cs.dropWhile Char.isDigit with
  | '.' :: rest => whole ++ '.' :: rest.takeWhile Char.isDigit
  | _ => whole

def number (literal : List Char) (position : Nat) : Token :=
  { kind := .number, name := String.ofList literal,
    value := some ((Decimal.ofLiteral literal).toDouble false), position := some (position : Int) }

def identifier (name : List Char) (position : Nat) : Token :=
  { kind := .identifier, name := Text.lower (String.ofList name),
    position := some (position : Int) }

def symbol (kind : Kind) (c : Char) (position : Nat) : Token :=
  { kind, name := c.toString, position := some (position : Int) }

/-- The token that starts with a character that is not blank, and how many of the characters after
it belong to it. -/
def lexeme (position : Nat) (c : Char) (rest : List Char) : Except Failure (Token × Nat) :=
  if c.isDigit || c == '.' then
    let literal := numberSpan (c :: rest)
    if literal = ['.'] then .error (.invalidNumber position)
    else .ok (number literal position, literal.length - 1)
  else if Text.isLetter c then
    let others := rest.takeWhile isNameChar
    .ok (identifier (c :: others) position, others.length)
  else
    match symbolKind? c with
    | some kind => .ok (symbol kind c position, 0)
    | none => .error (.unexpectedCharacter c position)

/-- The tokens of a text that starts at `position`, after `skip` characters that belong to a token
already found. -/
def scanFrom : Nat → Nat → List Char → Except Failure (List Token)
  | _, _, [] => .ok []
  | skip + 1, position, _ :: rest => scanFrom skip (position + 1) rest
  | 0, position, c :: rest =>
    if Text.isBlank c then scanFrom 0 (position + 1) rest
    else
      match lexeme position c rest with
      | .error failure => .error failure
      | .ok (token, others) => (scanFrom others (position + 1) rest).map (token :: ·)

def scan (text : String) : Except Failure (List Token) := scanFrom 0 0 text.toList

theorem scanFrom_skip (skip position : Nat) (cs : List Char) :
    scanFrom skip position cs = scanFrom 0 (position + skip) (cs.drop skip) := by
  induction cs generalizing skip position with
  | nil => cases skip <;> simp [scanFrom]
  | cons c rest ih =>
    cases skip with
    | zero => simp
    | succ skip => rw [scanFrom, ih, List.drop_succ_cons, Nat.add_right_comm, Nat.add_assoc]

end Reckoner.Token
