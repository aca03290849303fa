import Mathlib.Algebra.GroupWithZero.Nat
import Mathlib.Data.List.Chain
import Reckoner.Syntax.Calls

/-!
# Punctuation

What can be asked of the tokens of an expression without a derivation: which tokens stand next to
each other, where parentheses and commas stand, and how many commas there are.
-/

namespace Reckoner.Infix

/-- Some tree makes the tokens an infix expression in which no call is empty. -/
def IsExpression (tokens : List Token) : Prop := ∃ tree, Expression tokens tree ∧ tree.Supplied

def endsOperand (token : Token) : Bool :=
  token.kind == .number || token.kind == .rightParen ||
    (token.kind == .identifier && isConstant token.name)

def beginsOperand (token : Token) : Bool :=
  token.kind == .number || token.kind == .identifier || token.kind == .leftParen

/-- No operand begins right behind the end of another. -/
def Apart (left right : Token) : Prop := ¬ (endsOperand left = true ∧ beginsOperand right = true)

def isRightParen (token : Token) : Bool := token.kind == .rightParen

def isComma (token : Token) : Bool := token.kind == .comma

/-- How many parentheses are open behind the tokens. -/
def depth (tokens : List Token) : Int :=
  tokens.countP Token.isLeftParen - tokens.countP isRightParen

/-- Parentheses match, and commas stand inside of them. -/
structure Enclosed (tokens : List Token) : Prop where
  inside : ∀ before token after, tokens = before ++ token :: after →
    token.kind = .comma ∨ token.kind = .rightParen → 0 < depth before
  matched : depth tokens = 0

/-- Parentheses match, each function name stands before a pair of them, and commas stand directly
inside of such a pair only. At their own level the tokens have commas if they are inside of one. -/
inductive Bracketed : Bool → List Token → Prop where
  | nil {inCall : Bool} : Bracketed inCall []
  | plain {inCall : Bool} {token : Token} {rest : List Token} (hplace : token.isParen = false)
      (hnoComma : token.kind ≠ .comma) (hnoFunction : ¬ IsFunction token)
      (hothers : Bracketed inCall rest) : Bracketed inCall (token :: rest)
  | comma {token : Token} {rest : List Token} (hcomma : token.kind = .comma)
      (hothers : Bracketed true rest) : Bracketed true (token :: rest)
  | group {inCall : Bool} {opening closing : Token} {inner rest : List Token}
      (hopens : opening.kind = .leftParen) (hcloses : closing.kind = .rightParen)
      (hinside : Bracketed false inner) (hothers : Bracketed inCall rest) :
      Bracketed inCall (opening :: (inner ++ closing :: rest))
  | call {inCall : Bool} {name opening closing : Token} {inner rest : List Token}
      (hfunction : IsFunction name) (hopens : opening.kind = .leftParen)
      (hcloses : closing.kind = .rightParen) (hinside : Bracketed true inner)
      (hothers : Bracketed inCall rest) :
      Bracketed inCall (name :: opening :: (inner ++ closing :: rest))

def furtherArguments (token : Token) : Nat :=
  if token.kind = .identifier then token.arity?.getD 0 - 1 else 0

structure Punctuated (tokens : List Token) : Prop where
  apart : tokens.IsChain Apart
  bracketed : Bracketed false tokens
  commas : tokens.countP isComma ≤ (tokens.map furtherArguments).sum

end Reckoner.Infix
