import Reckoner.Token

/-!
# The vocabulary of expressions

The operators with their precedences and the identifiers with their meanings. Each operator and
each function stands for an operation, and an operation takes one or two arguments. The prefixed
minus has a name of its own, since it is written like the minus between two operands.
-/

namespace Reckoner

inductive UnaryOperation where
  | neg | sin | cos | tan | asin | acos | atan | sinh | cosh | tanh | log | ln | sqrt | cbrt | exp
  | abs | floor | ceil | round | fact | inv
  deriving DecidableEq

inductive BinaryOperation where
  | add | sub | mul | div | mod | pow | atan2 | root
  deriving DecidableEq

inductive Operation where
  | unary (operation : UnaryOperation)
  | binary (operation : BinaryOperation)
  deriving DecidableEq

def UnaryOperation.all : List UnaryOperation :=
  [.neg, .sin, .cos, .tan, .asin, .acos, .atan, .sinh, .cosh, .tanh, .log, .ln, .sqrt, .cbrt,
   .exp, .abs, .floor, .ceil, .round, .fact, .inv]

def BinaryOperation.all : List BinaryOperation :=
  [.add, .sub, .mul, .div, .mod, .pow, .atan2, .root]

def UnaryOperation.label : UnaryOperation → String
  | .neg => "neg"
  | .sin => "sin"
  | .cos => "cos"
  | .tan => "tan"
  | .asin => "asin"
  | .acos => "acos"
  | .atan => "atan"
  | .sinh => "sinh"
  | .cosh => "cosh"
  | .tanh => "tanh"
  | .log => "log"
  | .ln => "ln"
  | .sqrt => "sqrt"
  | .cbrt => "cbrt"
  | .exp => "exp"
  | .abs => "abs"
  | .floor => "floor"
  | .ceil => "ceil"
  | .round => "round"
  | .fact => "fact"
  | .inv => "inv"

def BinaryOperation.label : BinaryOperation → String
  | .add => "add"
  | .sub => "sub"
  | .mul => "mul"
  | .div => "div"
  | .mod => "mod"
  | .pow => "pow"
  | .atan2 => "atan2"
  | .root => "root"

namespace Operation

def arity : Operation → Nat
  | unary _ => 1
  | binary _ => 2

def label : Operation → String
  | unary operation => operation.label
  | binary operation => operation.label

def all : List Operation := UnaryOperation.all.map unary ++ BinaryOperation.all.map binary

def ofLabel? (label : String) : Option Operation := all.find? (·.label == label)

end Operation

inductive Associativity where
  | left
  | right
  deriving DecidableEq

def Associativity.label : Associativity → String
  | .left => "left"
  | .right => "right"

structure OperatorEntry where
  precedence : Nat
  associativity : Associativity
  operation : Operation
  deriving DecidableEq

def OperatorEntry.arity (entry : OperatorEntry) : Nat := entry.operation.arity

inductive IdentifierEntry where
  | constant (value : Double)
  | function (operation : Operation)
  deriving DecidableEq

def IdentifierEntry.arity : IdentifierEntry → Nat
  | constant _ => 0
  | function operation => operation.arity

def IdentifierEntry.operation? : IdentifierEntry → Option Operation
  | constant _ => none
  | function operation => some operation

def prefixedMinus : String := "u-"

/-- The doubles nearest to the circle constant and to the base of the natural logarithm. -/
def Double.pi : Double := Double.ofBits 0x400921fb54442d18

def Double.e : Double := Double.ofBits 0x4005bf0a8b145769

def operators : List (String × OperatorEntry) :=
  [("+", ⟨1, .left, .binary .add⟩),
   ("-", ⟨1, .left, .binary .sub⟩),
   ("*", ⟨2, .left, .binary .mul⟩),
   ("/", ⟨2, .left, .binary .div⟩),
   ("%", ⟨2, .left, .binary .mod⟩),
   ("^", ⟨4, .right, .binary .pow⟩),
   (prefixedMinus, ⟨3, .right, .unary .neg⟩)]

def identifiers : List (String × IdentifierEntry) :=
  [("pi", .constant Double.pi),
   ("e", .constant Double.e),
   ("sin", .function (.unary .sin)),
   ("cos", .function (.unary .cos)),
   ("tan", .function (.unary .tan)),
   ("asin", .function (.unary .asin)),
   ("acos", .function (.unary .acos)),
   ("atan", .function (.unary .atan)),
   ("atan2", .function (.binary .atan2)),
   ("sinh", .function (.unary .sinh)),
   ("cosh", .function (.unary .cosh)),
   ("tanh", .function (.unary .tanh)),
   ("log", .function (.unary .log)),
   ("ln", .function (.unary .ln)),
   ("sqrt", .function (.unary .sqrt)),
   ("cbrt", .function (.unary .cbrt)),
   ("root", .function (.binary .root)),
   ("exp", .function (.unary .exp)),
   ("abs", .function (.unary .abs)),
   ("floor", .function (.unary .floor)),
   ("ceil", .function (.unary .ceil)),
   ("round", .function (.unary .round)),
   ("fact", .function (.unary .fact)),
   ("inv", .function (.unary .inv))]

def operator? (name : String) : Option OperatorEntry := operators.lookup name

def identifier? (name : String) : Option IdentifierEntry := identifiers.lookup name

def isConstant (name : String) : Bool :=
  match identifier? name with
  | some (.constant _) => true
  | _ => false

end Reckoner
