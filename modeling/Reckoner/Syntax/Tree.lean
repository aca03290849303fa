import Reckoner.Evaluation

/-!
# Syntax trees

An expression as a tree: numbers and constants are leaves, operators and functions stand over their
arguments. `postorder` lists a tree with every token behind its arguments; `value` is what the tree
means, its arguments taken from left to right. Nothing here knows of a stack.
-/

namespace Reckoner

inductive Tree where
  | node (token : Token) (arguments : List Tree)

/-- How many arguments a token takes. Parentheses, commas and unknown names stand over nothing. -/
def Token.arity? (token : Token) : Option Nat :=
  match token.kind with
  | .number => some 0
  | .operator => (operator? token.name).map OperatorEntry.arity
  | .identifier => (identifier? token.name).map IdentifierEntry.arity
  | _ => none

def Operation.result (mode : AngleMode) (operation : Operation) (values : List Double) :
    Except Fault Double :=
  match operation.apply? mode values with
  | some (.ok value) => .ok value
  | some (.error failure) => .error (.failure failure)
  | none => .error .underflow

/-- The result of a token on the values of its arguments. A token that stands over
nothing, such as a comma or an unknown name, has no result. -/
def Token.result (mode : AngleMode) (token : Token) (values : List Double) :
    Except Fault Double :=
  match token.kind with
  | .number => .ok (token.value.getD .nan)
  | .operator =>
    match operator? token.name with
    | some entry => entry.operation.result mode values
    | none => .error .underflow
  | .identifier =>
    match identifier? token.name with
    | some (.constant value) => .ok value
    | some (.function operation) => operation.result mode values
    | none => .error .underflow
  | _ => .error .underflow

namespace Tree

/-- Every token has as many arguments as it takes. -/
inductive WellFormed : Tree → Prop where
  | node {token : Token} {arguments : List Tree}
      (harity : token.arity? = some arguments.length)
      (hwellFormed : ∀ argument ∈ arguments, WellFormed argument) :
      WellFormed (.node token arguments)

mutual

def postorder : Tree → List Token
  | node token arguments => postorders arguments ++ [token]

def postorders : List Tree → List Token
  | [] => []
  | tree :: rest => postorder tree ++ postorders rest

end

mutual

/-- The value of a tree. The first failure, from the left and from the leaves up, is the failure of
the tree. -/
def value (mode : AngleMode) : Tree → Except Fault Double
  | node token arguments =>
    match values mode arguments with
    | .error fault => .error fault
    | .ok values => token.result mode values

def values (mode : AngleMode) : List Tree → Except Fault (List Double)
  | [] => .ok []
  | tree :: rest =>
    match value mode tree with
    | .error fault => .error fault
    | .ok value => (values mode rest).map (value :: ·)

end

/-- The value of a tree as the value of an expression, which has to be finite. -/
def outcome (mode : AngleMode) (tree : Tree) : Except Fault Double :=
  match tree.value mode with
  | .error fault => .error fault
  | .ok value => if value.isFinite then .ok value else .error (.failure .nonFiniteResult)

@[simp] theorem postorders_append (left right : List Tree) :
    postorders (left ++ right) = postorders left ++ postorders right := by
  induction left with
  | nil => rfl
  | cons tree rest ih => simp [postorders, ih]

end Tree

end Reckoner
