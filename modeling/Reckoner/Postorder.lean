import Reckoner.Failure
import Reckoner.Vocabulary

/-!
# From infix order to postorder

An infix expression is put in the order in which it is computed: operands first, each operator and
each function behind its own. Operators and functions wait on a stack until their operands are
through. A minus at the start or behind an operator, an opening parenthesis or a comma is the
prefixed one.
-/

namespace Reckoner.Postorder

/-- A waiting operator leaves the stack before an incoming one of lower precedence, and before one
of the same precedence that associates to the left. -/
def leavesBefore (incoming waiting : OperatorEntry) : Bool :=
  match incoming.associativity with
  | .right => incoming.precedence < waiting.precedence
  | .left => incoming.precedence ≤ waiting.precedence

def yields (incoming : OperatorEntry) (top : Token) : Bool :=
  top.kind == .operator &&
    match operator? top.name with
    | some waiting => leavesBefore incoming waiting
    | none => false

/-- The operator that a token stands for: a minus where an operand is due is the prefixed one. -/
def readOperator (operandDue : Bool) (token : Token) : Token :=
  if token.name == "-" && operandDue then
    { kind := .operator, name := prefixedMinus, position := token.position }
  else token

/-- An operand is due behind a token. -/
def opens (token : Token) : Bool :=
  token.kind == .operator || token.kind == .leftParen || token.kind == .comma

/-- The tokens above the last opening parenthesis, and the rest of the stack from it on. -/
def splitAtParen (stack : List Token) : List Token × List Token :=
  stack.span fun token => !token.isLeftParen

def unwind (stack : List Token) : Except Failure (List Token) :=
  if stack.any Token.isParen then .error .unclosedParen else .ok stack

/-- The function that a group is the arguments of, where one waits on top, and the rest of the
stack. -/
def splitFunction : List Token → List Token × List Token
  | [] => ([], [])
  | top :: below => if top.kind = .identifier then ([top], below) else ([], top :: below)

/-- What there is between two tokens: the operators, functions and opening parentheses that wait,
and whether an operand is due. -/
structure State where
  stack : List Token
  operandDue : Bool

def step (state : State) (token : Token) : Except Failure (List Token × State) :=
  match token.kind with
  | .number => .ok ([token], ⟨state.stack, false⟩)
  | .identifier =>
    if isConstant token.name then .ok ([token], ⟨state.stack, false⟩)
    else .ok ([], ⟨token :: state.stack, false⟩)
  | .leftParen => .ok ([], ⟨token :: state.stack, true⟩)
  | .comma =>
    match splitAtParen state.stack with
    | (_, []) => .error (.misplacedComma token.position)
    | (above, below) => .ok (above, ⟨below, true⟩)
  | .rightParen =>
    match splitAtParen state.stack with
    | (_, []) => .error (.unmatchedParen token.position)
    | (above, _ :: below) =>
      let (applied, below) := splitFunction below
      .ok (above ++ applied, ⟨below, false⟩)
  | .operator =>
    let operator := readOperator state.operandDue token
    match operator? operator.name with
    | none => .error (.unknownOperator operator.name)
    | some entry =>
      if entry.arity = 2 then
        let (above, below) := state.stack.span (yields entry)
        .ok (above, ⟨operator :: below, true⟩)
      else .ok ([], ⟨operator :: state.stack, true⟩)

def arrangeFrom (state : State) : List Token → Except Failure (List Token)
  | [] => unwind state.stack
  | token :: rest =>
    match step state token with
    | .error failure => .error failure
    | .ok (done, state) => (arrangeFrom state rest).map (done ++ ·)

def arrange (tokens : List Token) : Except Failure (List Token) := arrangeFrom ⟨[], true⟩ tokens

end Reckoner.Postorder
