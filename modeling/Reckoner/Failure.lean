import Reckoner.Token
import Reckoner.Text.Quoted

/-!
# Failures

Why an expression has no value. Each cause is a constructor that carries what its message names;
causes are grouped into kinds, and kinds into the stages that find them.
-/

namespace Reckoner

inductive Stage where
  | lexical
  | grammatical
  | evaluation
  deriving DecidableEq

inductive FailureKind where
  | emptyExpression
  | unexpectedCharacter
  | invalidNumber
  | misplacedComma
  | mismatchedParen
  | unknownOperator
  | insufficientOperands
  | missingArgument
  | divisionByZero
  | moduloByZero
  | domainError
  | overflow
  | malformedExpression
  | nonFiniteResult
  | unknownIdentifier
  deriving DecidableEq

namespace FailureKind

def all : List FailureKind :=
  [emptyExpression, unexpectedCharacter, invalidNumber, misplacedComma, mismatchedParen,
   unknownOperator, insufficientOperands, missingArgument, divisionByZero, moduloByZero,
   domainError, overflow, malformedExpression, nonFiniteResult, unknownIdentifier]

def words : FailureKind → List String
  | emptyExpression => ["empty", "expression"]
  | unexpectedCharacter => ["unexpected", "character"]
  | invalidNumber => ["invalid", "number"]
  | misplacedComma => ["misplaced", "comma"]
  | mismatchedParen => ["mismatched", "paren"]
  | unknownOperator => ["unknown", "operator"]
  | insufficientOperands => ["insufficient", "operands"]
  | missingArgument => ["missing", "argument"]
  | divisionByZero => ["division", "by", "zero"]
  | moduloByZero => ["modulo", "by", "zero"]
  | domainError => ["domain", "error"]
  | overflow => ["overflow"]
  | malformedExpression => ["malformed", "expression"]
  | nonFiniteResult => ["non", "finite", "result"]
  | unknownIdentifier => ["unknown", "identifier"]

def label (kind : FailureKind) : String := "_".intercalate kind.words

def title (kind : FailureKind) : String := kind.label.toUpper

/-- The words joined by blanks: what is said of a failure that has no message of its own. -/
def phrase (kind : FailureKind) : String := " ".intercalate kind.words

/-- The stage that finds failures of a kind; an empty expression comes to none. -/
def stage? : FailureKind → Option Stage
  | emptyExpression => none
  | unexpectedCharacter | invalidNumber => some .lexical
  | misplacedComma | mismatchedParen | unknownOperator => some .grammatical
  | _ => some .evaluation

/-- The text of a failure of some kind, or of none, that was given a message or an empty one.
Without a message and a kind there is nothing to say. -/
def describe? (kind : Option FailureKind) (message : Option String) : Option String :=
  match message with
  | none | some "" => kind.map phrase
  | some text => some text

end FailureKind

inductive Domain where
  | log
  | ln
  | sqrt
  | rootIndex
  | rootOfNegative
  | factorialOfNaN
  | factorialOfNegative
  | factorialOfFraction
  deriving DecidableEq

def Domain.message : Domain → String
  | log => "log(x) undefined for x<=0"
  | ln => "ln(x) undefined for x<=0"
  | sqrt => "sqrt(x) undefined for x<0"
  | rootIndex => "root(x, n) undefined for n=0"
  | rootOfNegative => "root(x, n) with x<0 needs an odd integer n"
  | factorialOfNaN => "factorial undefined for NaN"
  | factorialOfNegative => "factorial undefined for x<0"
  | factorialOfFraction => "factorial defined for integers only"

/-- Why an expression has no value. -/
inductive Failure where
  | emptyExpression
  | unexpectedCharacter (char : Char) (position : Nat)
  | invalidNumber (position : Nat)
  | misplacedComma (position : Option Int)
  | unmatchedParen (position : Option Int)
  | unclosedParen
  | unknownOperator (name : String)
  | insufficientOperands (name : String)
  | missingArgument (name : String)
  | divisionByZero
  | reciprocalOfZero
  | moduloByZero
  | outsideDomain (domain : Domain)
  | factorialTooLarge
  | unexpectedToken (token : Token)
  | surplusValues (count : Nat)
  | nonFiniteResult
  | unknownIdentifier (name : String)
  deriving DecidableEq

namespace Failure

def kind : Failure → FailureKind
  | emptyExpression => .emptyExpression
  | unexpectedCharacter _ _ => .unexpectedCharacter
  | invalidNumber _ => .invalidNumber
  | misplacedComma _ => .misplacedComma
  | unmatchedParen _ | unclosedParen => .mismatchedParen
  | unknownOperator _ => .unknownOperator
  | insufficientOperands _ => .insufficientOperands
  | missingArgument _ => .missingArgument
  | divisionByZero | reciprocalOfZero => .divisionByZero
  | moduloByZero => .moduloByZero
  | outsideDomain _ => .domainError
  | factorialTooLarge => .overflow
  | unexpectedToken _ | surplusValues _ => .malformedExpression
  | nonFiniteResult => .nonFiniteResult
  | unknownIdentifier _ => .unknownIdentifier

def place : Option Int → String
  | some position => toString position
  | none => "None"

def unexpectedCharacterMessage (shown place : String) : String :=
  "Unexpected character " ++ shown ++ " at position " ++ place

def unknownIdentifierMessage (name : String) : String := "Unknown identifier: " ++ name

def message : Failure → String
  | emptyExpression => "Empty expression"
  | unexpectedCharacter char position =>
    unexpectedCharacterMessage (Text.quoted char.toString) (toString position)
  | invalidNumber position => "Invalid number: '.' at position " ++ toString position
  | misplacedComma position => "Misplaced comma or missing '(' at position " ++ place position
  | unmatchedParen position => "Mismatched ')' at position " ++ place position
  | unclosedParen => "Mismatched parentheses"
  | unknownOperator name => "Unknown operator: " ++ name
  | insufficientOperands name => "Not enough operands for operator " ++ name
  | missingArgument name => "Missing argument for function: " ++ name
  | divisionByZero => "Division by zero"
  | reciprocalOfZero => "1/x undefined for x=0"
  | moduloByZero => "Modulo by zero"
  | outsideDomain domain => domain.message
  | factorialTooLarge => "factorial too large"
  | unexpectedToken token => "Unexpected token in postfix: " ++ token.shown
  | surplusValues count =>
    "Invalid expression: " ++ toString count ++ " values left on the stack, expected 1"
  | nonFiniteResult => "Result is not a finite number"
  | unknownIdentifier name => unknownIdentifierMessage name

end Failure

end Reckoner
