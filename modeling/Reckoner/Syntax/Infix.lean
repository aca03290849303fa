import Reckoner.Syntax.Tree

/-!
# The infix grammar

Which tokens are an infix expression, and of which tree. There is a level for each precedence:
sums of products of signed powers of atoms. Sums and products associate to the left, powers to the
right, and a power takes a sign on its right but not on its left. A function may be given any
number of arguments here; that it takes so many is left to `Tree.WellFormed`.
-/

namespace Reckoner.Infix

/-- The levels of an expression, the loosest first. -/
inductive Level where
  | sum
  | product
  | signed
  | power
  | atom
  deriving DecidableEq

def IsOperator (names : List String) (token : Token) : Prop :=
  token.kind = .operator ∧ token.name ∈ names

def IsConstant (token : Token) : Prop := token.kind = .identifier ∧ isConstant token.name = true

def IsFunction (token : Token) : Prop := token.kind = .identifier ∧ isConstant token.name = false

def negation (minus : Token) : Token :=
  { kind := .operator, name := prefixedMinus, position := minus.position }

mutual

/-- The tokens are an expression of the given level with the given tree. -/
inductive Derives : Level → List Token → Tree → Prop where
  | sum {left right : List Token} {a b : Tree} {operator : Token}
      (hoperator : IsOperator ["+", "-"] operator)
      (hfirst : Derives .sum left a) (hsecond : Derives .product right b) :
      Derives .sum (left ++ operator :: right) (.node operator [a, b])
  | ofProduct {tokens : List Token} {tree : Tree} (hproduct : Derives .product tokens tree) :
      Derives .sum tokens tree
  | product {left right : List Token} {a b : Tree} {operator : Token}
      (hoperator : IsOperator ["*", "/", "%"] operator)
      (hfirst : Derives .product left a) (hsecond : Derives .signed right b) :
      Derives .product (left ++ operator :: right) (.node operator [a, b])
  | ofSigned {tokens : List Token} {tree : Tree} (hsigned : Derives .signed tokens tree) :
      Derives .product tokens tree
  | negative {minus : Token} {tokens : List Token} {tree : Tree}
      (hminus : IsOperator ["-"] minus) (hoperand : Derives .signed tokens tree) :
      Derives .signed (minus :: tokens) (.node (negation minus) [tree])
  | ofPower {tokens : List Token} {tree : Tree} (hpower : Derives .power tokens tree) :
      Derives .signed tokens tree
  | power {base exponent : List Token} {a b : Tree} {operator : Token}
      (hoperator : IsOperator ["^"] operator)
      (hfirst : Derives .atom base a) (hsecond : Derives .signed exponent b) :
      Derives .power (base ++ operator :: exponent) (.node operator [a, b])
  | ofAtom {tokens : List Token} {tree : Tree} (hatom : Derives .atom tokens tree) :
      Derives .power tokens tree
  | number {token : Token} (hnumber : token.kind = .number) :
      Derives .atom [token] (.node token [])
  | constant {token : Token} (hconstant : IsConstant token) :
      Derives .atom [token] (.node token [])
  | group {opening closing : Token} {tokens : List Token} {tree : Tree}
      (hopens : opening.kind = .leftParen) (hcloses : closing.kind = .rightParen)
      (hinner : Derives .sum tokens tree) :
      Derives .atom (opening :: tokens ++ [closing]) tree
  | emptyCall {name opening closing : Token} (hfunction : IsFunction name)
      (hopens : opening.kind = .leftParen) (hcloses : closing.kind = .rightParen) :
      Derives .atom [name, opening, closing] (.node name [])
  | call {name opening closing : Token} {tokens : List Token} {arguments : List Tree}
      (hfunction : IsFunction name)
      (hopens : opening.kind = .leftParen) (hcloses : closing.kind = .rightParen)
      (hinner : DerivesArguments tokens arguments) :
      Derives .atom (name :: opening :: tokens ++ [closing]) (.node name arguments)

/-- The tokens are expressions with the given trees, a comma between each two. -/
inductive DerivesArguments : List Token → List Tree → Prop where
  | last {tokens : List Token} {tree : Tree} (hargument : Derives .sum tokens tree) :
      DerivesArguments tokens [tree]
  | more {tokens rest : List Token} {tree : Tree} {trees : List Tree} {comma : Token}
      (hcomma : comma.kind = .comma) (hargument : Derives .sum tokens tree)
      (hothers : DerivesArguments rest trees) :
      DerivesArguments (tokens ++ comma :: rest) (tree :: trees)

end

abbrev Expression (tokens : List Token) (tree : Tree) : Prop := Derives .sum tokens tree

end Reckoner.Infix
