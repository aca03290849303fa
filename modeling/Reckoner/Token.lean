import Reckoner.Double.Basic

/-!
# Tokens

A token is a piece of an expression: what kind of thing it is, its name, the value of a number and
the place in the text it came from. Two tokens are the same if kind, name and value agree; the
place does not count.
-/

namespace Reckoner

inductive Token.Kind where
  | number
  | operator
  | identifier
  | leftParen
  | rightParen
  | comma
  deriving DecidableEq

structure Token where
  kind : Token.Kind
  name : String
  value : Option Double := none
  position : Option Int := none
  deriving DecidableEq

namespace Token

def Kind.all : List Kind := [.number, .operator, .identifier, .leftParen, .rightParen, .comma]

/-- The name of a kind in lower case, as it is written in a request. -/
def Kind.label : Kind → String
  | .number => "number"
  | .operator => "operator"
  | .identifier => "identifier"
  | .leftParen => "left_paren"
  | .rightParen => "right_paren"
  | .comma => "comma"

def Kind.title : Kind → String
  | .number => "NUMBER"
  | .operator => "OPERATOR"
  | .identifier => "IDENTIFIER"
  | .leftParen => "LEFT_PAREN"
  | .rightParen => "RIGHT_PAREN"
  | .comma => "COMMA"

def Kind.ofLabel? (label : String) : Option Kind := Kind.all.find? (·.label == label)

theorem Kind.ofLabel?_label (kind : Kind) : Kind.ofLabel? kind.label = some kind := by
  cases kind <;> decide

def shown (token : Token) : String := token.kind.title ++ ":" ++ token.name

def isLeftParen (token : Token) : Bool := token.kind == .leftParen

def isParen (token : Token) : Bool := token.kind == .leftParen || token.kind == .rightParen

/-- The values of two tokens agree: both are missing, or they are equal numbers. -/
def sameValue : Option Double → Option Double → Bool
  | none, none => true
  | some x, some y => x.same y
  | _, _ => false

def same (a b : Token) : Bool :=
  a.kind == b.kind && a.name == b.name && sameValue a.value b.value

/-- How many different tokens there are among two. -/
def countDistinct (a b : Token) : Nat := if a.same b then 1 else 2

/-- A token is never the same thing as a text, not even as its own name. -/
def sameAsText (_ : Token) (_ : String) : Bool := false

end Token

end Reckoner
