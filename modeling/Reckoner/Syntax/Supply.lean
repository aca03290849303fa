import Mathlib.Algebra.Ring.Int.Defs
import Reckoner.Syntax.Sequence

/-!
# Supply

What can be said of tokens in postorder without running them: which of them belong to no program,
how many values those before a token leave for it, and so why they are refused, whatever the values
of their numbers.
-/

namespace Reckoner

namespace Program

open Infix

/-- Punctuation and names out of the vocabulary belong to no program. -/
inductive Strange (token : Token) : Failure → Prop where
  | punctuation (hkind : token.kind = .leftParen ∨ token.kind = .rightParen ∨ token.kind = .comma) :
      Strange token (.unexpectedToken token)
  | operator (hkind : token.kind = .operator) (hunknown : operator? token.name = none) :
      Strange token (.unknownOperator token.name)
  | identifier (hkind : token.kind = .identifier) (hunknown : identifier? token.name = none) :
      Strange token (.unknownIdentifier token.name)

/-- The arguments that a token takes beyond its first, or a missing one. -/
def furtherArity (token : Token) : Int := token.arity?.getD 0 - 1

/-- The values that tokens leave: as many as there are operands, less the arguments that the other
tokens take beyond their first. -/
def available (tokens : List Token) : Int :=
  tokens.countP isOperand -
    ((tokens.filter fun token => !isOperand token).map furtherArity).sum

/-- The token takes more values than there are. -/
inductive Lacks (values : Int) (token : Token) : Failure → Prop where
  | operator (hkind : token.kind = .operator) (hshort : values < token.arity?.getD 0) :
      Lacks values token (.insufficientOperands token.name)
  | function (hkind : token.kind = .identifier) (hshort : values < token.arity?.getD 0) :
      Lacks values token (.missingArgument token.name)

def Familiar (tokens : List Token) : Prop := Blameless (fun _ => Strange) tokens

def Fed (tokens : List Token) : Prop := Blameless (fun before => Lacks (available before)) tokens

/-- Why tokens are refused: the first strange token tells, where there is none the first that lacks
values, and where all are fed the number of values left. -/
inductive Refused (tokens : List Token) : Failure → Prop where
  | strange {failure : Failure} (hfirst : FirstBlame (fun _ => Strange) tokens failure) :
      Refused tokens failure
  | lack {failure : Failure} (hfamiliar : Familiar tokens)
      (hfirst : FirstBlame (fun before => Lacks (available before)) tokens failure) :
      Refused tokens failure
  | surplus {count : Nat} (hfamiliar : Familiar tokens) (hfed : Fed tokens)
      (hleft : (count : Int) = available tokens) (hseveral : count ≠ 1) :
      Refused tokens (.surplusValues count)

end Program

/-- The same token, or the same number with any value. -/
def Token.Revalued (token other : Token) : Prop :=
  other = token ∨ token.kind = .number ∧ ∃ value, other = { token with value }

end Reckoner
