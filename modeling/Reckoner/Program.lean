import Reckoner.Failure
import Reckoner.Vocabulary

/-!
# Checked programs

Tokens in postorder are a program for a stack of values. Before it is run every name is looked up,
and the number of values on the stack is followed through: each instruction finds its arguments,
and one value is left at the end.
-/

namespace Reckoner

inductive Entry where
  | operator (entry : OperatorEntry)
  | identifier (entry : IdentifierEntry)
  deriving DecidableEq

def Entry.arity : Entry → Nat
  | operator entry => entry.arity
  | identifier entry => entry.arity

def Token.meaning (token : Token) : Except Failure (Option Entry) :=
  match token.kind with
  | .operator =>
    match operator? token.name with
    | some entry => .ok (some (.operator entry))
    | none => .error (.unknownOperator token.name)
  | .identifier =>
    match identifier? token.name with
    | some entry => .ok (some (.identifier entry))
    | none => .error (.unknownIdentifier token.name)
  | _ => .ok none

/-- A token with its meaning. A number has none but its value. -/
structure Instruction where
  token : Token
  entry : Option Entry
  deriving DecidableEq

namespace Instruction

def arity (instruction : Instruction) : Nat :=
  match instruction.entry with
  | none => 0
  | some entry => entry.arity

def ofToken (token : Token) : Except Failure Instruction :=
  match token.kind with
  | .leftParen | .rightParen | .comma => .error (.unexpectedToken token)
  | _ => token.meaning.map fun entry => { token, entry }

def lacking (instruction : Instruction) : Failure :=
  match instruction.token.kind with
  | .operator => .insufficientOperands instruction.token.name
  | _ => .missingArgument instruction.token.name

end Instruction

namespace Program

def ofTokens : List Token → Except Failure (List Instruction)
  | [] => .ok []
  | token :: rest =>
    match Instruction.ofToken token with
    | .error failure => .error failure
    | .ok instruction => (ofTokens rest).map (instruction :: ·)

/-- The number of values that the instructions leave on a stack of `depth` values. -/
def depthAfter (depth : Nat) : List Instruction → Except Failure Nat
  | [] => .ok depth
  | instruction :: rest =>
    if depth < instruction.arity then .error instruction.lacking
    else depthAfter (depth - instruction.arity + 1) rest

/-- The instructions of the tokens, if they leave one value on an empty stack. -/
def check (tokens : List Token) : Except Failure (List Instruction) :=
  match ofTokens tokens with
  | .error failure => .error failure
  | .ok program =>
    match depthAfter 0 program with
    | .error failure => .error failure
    | .ok depth => if depth = 1 then .ok program else .error (.surplusValues depth)

end Program

end Reckoner
