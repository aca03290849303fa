import Reckoner.Operation
import Reckoner.Postorder
import Reckoner.Program
import Reckoner.Token.Scan

/-!
# Evaluation

A checked program runs on a stack of values, the last value first. Finding too few values is a
fault apart from the failures of operations; a checked program never meets it. A text is scanned,
arranged, checked and run, and its value has to be finite.
-/

namespace Reckoner

/-- Why there is no value: too few values are found, or an operation fails. -/
inductive Fault where
  | underflow
  | failure (failure : Failure)
  deriving DecidableEq

namespace Program

def push (stack : List Double) : Except Failure Double → Except Fault (List Double)
  | .ok value => .ok (value :: stack)
  | .error failure => .error (.failure failure)

def applyTo (mode : AngleMode) : Operation → List Double → Except Fault (List Double)
  | .unary operation, x :: stack => push stack (operation.apply mode x)
  | .binary operation, y :: x :: stack => push stack (operation.apply mode x y)
  | _, _ => .error .underflow

def step (mode : AngleMode) (instruction : Instruction) (stack : List Double) :
    Except Fault (List Double) :=
  match instruction.entry with
  | none => .ok (instruction.token.value.getD .nan :: stack)
  | some (.identifier (.constant value)) => .ok (value :: stack)
  | some (.identifier (.function operation)) => applyTo mode operation stack
  | some (.operator entry) => applyTo mode entry.operation stack

def run (mode : AngleMode) : List Instruction → List Double → Except Fault (List Double)
  | [], stack => .ok stack
  | instruction :: rest, stack =>
    match step mode instruction stack with
    | .error fault => .error fault
    | .ok stack => run mode rest stack

def value (mode : AngleMode) (program : List Instruction) : Except Failure Double :=
  match run mode program [] with
  | .ok [value] => if value.isFinite then .ok value else .error .nonFiniteResult
  | .ok stack => .error (.surplusValues stack.length)
  | .error (.failure failure) => .error failure
  | .error .underflow => .error (.surplusValues 0)

def evaluate (mode : AngleMode) (tokens : List Token) : Except Failure Double :=
  match check tokens with
  | .error failure => .error failure
  | .ok program => program |> value mode

end Program

def evaluateTokens (mode : AngleMode) (tokens : List Token) : Except Failure Double :=
  match Postorder.arrange tokens with
  | .error failure => .error failure
  | .ok ordered => Program.evaluate mode ordered

def isEmptyExpression : Option String → Bool
  | none => true
  | some text => Text.allBlank text

def evaluate (mode : AngleMode) (expression : Option String) : Except Failure Double :=
  if isEmptyExpression expression then .error .emptyExpression
  else
    match Token.scan (expression.getD "") with
    | .error failure => .error failure
    | .ok tokens => evaluateTokens mode tokens

section

variable {mode : AngleMode} {v : Double}

theorem Program.exists_check_of_evaluate {tokens : List Token} (h : evaluate mode tokens = .ok v) :
    ∃ program, check tokens = .ok program ∧ value mode program = .ok v := by
  unfold evaluate at h
  split at h
  · cases h
  · rename_i program hcheck
    exact ⟨program, hcheck, h⟩

theorem exists_arrange_of_evaluateTokens {tokens : List Token}
    (h : evaluateTokens mode tokens = .ok v) :
    ∃ ordered, Postorder.arrange tokens = .ok ordered ∧ Program.evaluate mode ordered = .ok v := by
  unfold evaluateTokens at h
  split at h
  · cases h
  · rename_i ordered harrange
    exact ⟨ordered, harrange, h⟩

theorem exists_scan_of_evaluate {expression : Option String}
    (h : evaluate mode expression = .ok v) :
    isEmptyExpression expression = false ∧
      ∃ tokens, Token.scan (expression.getD "") = .ok tokens ∧
        evaluateTokens mode tokens = .ok v := by
  unfold evaluate at h
  split at h
  · cases h
  · rename_i hfilled
    split at h
    · cases h
    · rename_i tokens hscan
      exact ⟨by simpa using hfilled, tokens, hscan, h⟩

end

/-- An expression with its value or the failure it came to. -/
structure Outcome where
  expression : Option String
  result : Except Failure Double

namespace Outcome

def value? (outcome : Outcome) : Option Double := outcome.result.toOption

def failure? (outcome : Outcome) : Option Failure :=
  match outcome.result with
  | .ok _ => none
  | .error failure => some failure

def isOk (outcome : Outcome) : Bool := outcome.failure?.isNone

end Outcome

def tryEvaluate (mode : AngleMode) (expression : Option String) : Outcome :=
  ⟨expression, evaluate mode expression⟩

/-- Why a request for a value is refused: the mode it names is unknown, or the expression has no
value. -/
inductive Refusal where
  | unknownMode (mode : UnknownMode)
  | failure (failure : Failure)

/-- The mode that a request names, or its own default. The name is not looked at where there is no
expression to evaluate. -/
def requestedMode (default : AngleMode) (expression : Option String) (mode : Option String) :
    Except UnknownMode AngleMode :=
  if isEmptyExpression expression then .ok default else default.readOr mode

def evaluateIn (default : AngleMode) (expression : Option String) (mode : Option String) :
    Except Refusal Double :=
  match requestedMode default expression mode with
  | .error unknown => .error (.unknownMode unknown)
  | .ok mode => (evaluate mode expression).mapError .failure

def tryEvaluateIn (default : AngleMode) (expression : Option String) (mode : Option String) :
    Except UnknownMode Outcome :=
  (requestedMode default expression mode).map fun mode => tryEvaluate mode expression

end Reckoner
