import Reckoner.Evaluation
import Reckoner.Token.Segmentation

/-!
# Evaluation with hazards

The stages of an evaluation once more, with each operation left partial that has no result on some
of its arguments: reading a numeral, looking a name up, popping a stack, counting arguments off,
finding an operation by its label, turning a double into an integer, dividing one by a number.
Where `evaluate` cannot go wrong by its types, or puts in a default, `Unguarded.evaluate` stops at
a hazard. Nothing here says that it never does.
-/

namespace Reckoner

set_option autoImplicit false

inductive Hazard where
  | notNumeral (literal : List Char)
  | missingEntry (name : String)
  | missingOperation (label : String)
  | missingValue (token : Token)
  | emptyStack
  | tooFewValues
  | wrongArguments (operation : Operation) (count : Nat)
  | notInteger (x : Double)
  | zeroDivisor

inductive Halt where
  | hazard (hazard : Hazard)
  | failure (failure : Failure)

namespace Unguarded

def readNumeral (literal : List Char) : Except Halt Double :=
  if Token.IsNumber literal then .ok ((Decimal.ofLiteral literal).toDouble false)
  else .error (.hazard (.notNumeral literal))

def lexeme (position : Nat) (c : Char) (rest : List Char) : Except Halt (Token × Nat) :=
  if c.isDigit || c == '.' then
    let literal := Token.numberSpan (c :: rest)
    if literal = ['.'] then .error (.failure (.invalidNumber position))
    else
      (readNumeral literal).map fun value =>
        ({ Token.number literal position with value := some value }, literal.length - 1)
  else (Token.lexeme position c rest).mapError .failure

def scanFrom : Nat → Nat → List Char → Except Halt (List Token)
  | _, _, [] => .ok []
  | skip + 1, position, _ :: rest => scanFrom skip (position + 1) rest
  | 0, position, c :: rest =>
    if Text.isBlank c then scanFrom 0 (position + 1) rest
    else
      match lexeme position c rest with
      | .error halt => .error halt
      | .ok (token, others) => (scanFrom others (position + 1) rest).map (token :: ·)

def entryOf (name : String) : Except Halt OperatorEntry :=
  match operator? name with
  | some entry => .ok entry
  | none => .error (.hazard (.missingEntry name))

def pop : List Token → Except Halt (Token × List Token)
  | [] => .error (.hazard .emptyStack)
  | top :: below => .ok (top, below)

/-- The operators on top that leave before an incoming one, each looked up, and the rest of the
stack. -/
def release (incoming : OperatorEntry) : List Token → Except Halt (List Token × List Token)
  | [] => .ok ([], [])
  | top :: below =>
    if top.kind = .operator then
      match entryOf top.name with
      | .error halt => .error halt
      | .ok waiting =>
        if Postorder.leavesBefore incoming waiting then
          (release incoming below).map fun (above, rest) => (top :: above, rest)
        else .ok ([], top :: below)
    else .ok ([], top :: below)

def arrangeStep (state : Postorder.State) (token : Token) :
    Except Halt (List Token × Postorder.State) :=
  match token.kind with
  | .rightParen =>
    let (above, rest) := Postorder.splitAtParen state.stack
    if rest = [] then .error (.failure (.unmatchedParen token.position))
    else
      match pop rest with
      | .error halt => .error halt
      | .ok (_, below) =>
        let (applied, below) := Postorder.splitFunction below
        .ok (above ++ applied, ⟨below, false⟩)
  | .operator =>
    let operator := Postorder.readOperator state.operandDue token
    match operator? operator.name with
    | none => .error (.failure (.unknownOperator operator.name))
    | some entry =>
      if entry.arity = 2 then
        match release entry state.stack with
        | .error halt => .error halt
        | .ok (above, below) => .ok (above, ⟨operator :: below, true⟩)
      else .ok ([], ⟨operator :: state.stack, true⟩)
  | _ => (Postorder.step state token).mapError .failure

def arrangeFrom (state : Postorder.State) : List Token → Except Halt (List Token)
  | [] => (Postorder.unwind state.stack).mapError .failure
  | token :: rest =>
    match arrangeStep state token with
    | .error halt => .error halt
    | .ok (done, state) => (arrangeFrom state rest).map (done ++ ·)

/-- The integer that a double is; infinite numbers and NaN are none. -/
def toInteger (x : Double) : Except Halt Int :=
  if x.isFinite then .ok x.toInt else .error (.hazard (.notInteger x))

def reciprocal (x : Double) : Except Halt Double :=
  if x.isZero then .error (.hazard .zeroDivisor) else .ok (Double.unit.div x)

def isNearOdd (x : Double) : Except Halt Bool :=
  if x.isNearInteger then (toInteger x.rint).map fun n => n % 2 == 1 else .ok false

def root (x index : Double) : Except Halt Double :=
  if index.isZero then .error (.failure (.outsideDomain .rootIndex))
  else if x.isBelowZero then
    match isNearOdd index with
    | .error halt => .error halt
    | .ok false => .error (.failure (.outsideDomain .rootOfNegative))
    | .ok true => (reciprocal index).map fun exponent => (x.neg.pow exponent).neg
  else (reciprocal index).map fun exponent => x.pow exponent

def factorial (x : Double) : Except Halt Double :=
  if x.isNaN then .error (.failure (.outsideDomain .factorialOfNaN))
  else if x.isBelowZero then .error (.failure (.outsideDomain .factorialOfNegative))
  else if x.isInfinite then .error (.failure .factorialTooLarge)
  else if !x.isNearInteger then .error (.failure (.outsideDomain .factorialOfFraction))
  else
    match toInteger x.rint with
    | .error halt => .error halt
    | .ok n =>
      if greatestFactorial < n.toNat then .error (.failure .factorialTooLarge)
      else .ok (factorialProduct n.toNat)

def apply (mode : AngleMode) : Operation → List Double → Except Halt Double
  | .unary .fact, [x] => factorial x
  | .binary .root, [x, index] => root x index
  | operation, arguments =>
    match operation.apply? mode arguments with
    | some result => result.mapError .failure
    | none => .error (.hazard (.wrongArguments operation arguments.length))

def operationOf (label : String) : Except Halt Operation :=
  match Operation.ofLabel? label with
  | some operation => .ok operation
  | none => .error (.hazard (.missingOperation label))

def takeLast (count : Nat) (stack : List Double) : Except Halt (List Double × List Double) :=
  if stack.length < count then .error (.hazard .tooFewValues)
  else .ok (stack.drop (stack.length - count), stack.take (stack.length - count))

def applyTo (mode : AngleMode) (arity : Nat) (label : String) (stack : List Double) :
    Except Halt (List Double) :=
  match takeLast arity stack with
  | .error halt => .error halt
  | .ok (arguments, rest) =>
    match operationOf label with
    | .error halt => .error halt
    | .ok operation => (apply mode operation arguments).map fun value => rest ++ [value]

def runStep (mode : AngleMode) (instruction : Instruction) (stack : List Double) :
    Except Halt (List Double) :=
  match instruction.entry with
  | none =>
    match instruction.token.value with
    | some value => .ok (stack ++ [value])
    | none => .error (.hazard (.missingValue instruction.token))
  | some (.identifier (.constant value)) => .ok (stack ++ [value])
  | some (.identifier (.function operation)) => applyTo mode operation.arity operation.label stack
  | some (.operator entry) => applyTo mode entry.arity entry.operation.label stack

def run (mode : AngleMode) : List Instruction → List Double → Except Halt (List Double)
  | [], stack => .ok stack
  | instruction :: rest, stack =>
    match runStep mode instruction stack with
    | .error halt => .error halt
    | .ok stack => run mode rest stack

def result : List Double → Except Halt Double
  | [] => .error (.hazard .emptyStack)
  | value :: _ => if value.isFinite then .ok value else .error (.failure .nonFiniteResult)

def evaluateProgram (mode : AngleMode) (tokens : List Token) : Except Halt Double :=
  match Program.check tokens with
  | .error failure => .error (.failure failure)
  | .ok program =>
    match run mode program [] with
    | .error halt => .error halt
    | .ok stack => result stack

def evaluate (mode : AngleMode) (expression : Option String) : Except Halt Double :=
  if isEmptyExpression expression then .error (.failure .emptyExpression)
  else
    match scanFrom 0 0 (expression.getD "").toList with
    | .error halt => .error halt
    | .ok tokens =>
      match arrangeFrom ⟨[], true⟩ tokens with
      | .error halt => .error halt
      | .ok ordered => evaluateProgram mode ordered

/-- The outcome of an expression. Only failures become outcomes; a hazard goes on. -/
def tryEvaluate (mode : AngleMode) (expression : Option String) : Except Hazard Outcome :=
  match evaluate mode expression with
  | .ok value => .ok ⟨expression, .ok value⟩
  | .error (.failure failure) => .ok ⟨expression, .error failure⟩
  | .error (.hazard hazard) => .error hazard

end Unguarded

end Reckoner
