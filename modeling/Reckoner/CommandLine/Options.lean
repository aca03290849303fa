import Reckoner.Text.WholeNumber

/-!
# Options of the command line

Arguments are options, the values of options, or expressions. An option may be shortened as long as
only one option begins with it, and may carry its value behind an equals sign; two dashes there
leave the option with no value at all. Expressions stand together in one place, before, between or
behind the options; behind two dashes everything is an expression.
-/

namespace Reckoner.CommandLine

inductive Flag where
  | help
  | degrees
  | inputPath
  | outputPath
  | logLevel
  deriving DecidableEq

def Flag.all : List Flag := [.help, .degrees, .inputPath, .outputPath, .logLevel]

def Flag.name : Flag → String
  | help => "--help"
  | degrees => "--degrees"
  | inputPath => "--input_path"
  | outputPath => "--output_path"
  | logLevel => "--log_level"

def Flag.takesValue : Flag → Bool
  | help | degrees => false
  | inputPath | outputPath | logLevel => true

def defaultLevel : String := "WARNING"

structure Options where
  expressions : List String := []
  help : Bool := false
  degrees : Bool := false
  inputPath : Option String := none
  outputPath : Option String := none
  logLevel : Option String := some defaultLevel
  deriving DecidableEq

inductive UsageFault where
  | ambiguous (argument : String)
  | noValue (flag : Flag)
  | unusedValue (flag : Flag)
  | unrecognized (arguments : List String)
  deriving DecidableEq

def UsageFault.message : UsageFault → String
  | ambiguous argument => "ambiguous option: " ++ argument
  | noValue flag => "argument " ++ flag.name ++ ": expected one argument"
  | unusedValue flag => "argument " ++ flag.name ++ ": unexpected value"
  | unrecognized arguments => "unrecognized arguments: " ++ " ".intercalate arguments

/-- What an argument is by its form alone. -/
inductive Form where
  | plain (text : String)
  | dashes
  | option (flag : Flag) (value : Option String)
  | unknown (text : String)
  deriving DecidableEq

def cutAtEquals (argument : String) : String × Option String :=
  let cs := argument.toList
  match cs.dropWhile (· != '=') with
  | [] => (argument, none)
  | _ :: value => (String.ofList (cs.takeWhile (· != '=')), some (String.ofList value))

def isDecimalDigit (c : Char) : Bool := (Text.digitValue? c).isSome

/-- A minus with digits, and maybe a point before the last of them. -/
def looksNegative (argument : String) : Bool :=
  match argument.toList with
  | '-' :: rest =>
    let body := if rest.getLast? = some '\n' then rest.dropLast else rest
    let behind := body.dropWhile isDecimalDigit
    match behind with
    | [] => !body.isEmpty
    | '.' :: fraction => !fraction.isEmpty && fraction.all isDecimalDigit
    | _ => false
  | _ => false

/-- The flags that an argument of two dashes may stand for. -/
def flagsWithStart (start : String) : List Flag :=
  Flag.all.filter fun flag => start.toList.isPrefixOf flag.name.toList

/-- The form of an argument that no option is written like. -/
def otherForm (argument : String) : Form :=
  if looksNegative argument || argument.toList.contains ' ' then .plain argument
  else .unknown argument

/-- The form of an argument. The short form of help may carry more behind it. -/
def formOf (argument : String) : Except UsageFault Form :=
  match argument.toList with
  | '-' :: '-' :: [] => .ok .dashes
  | '-' :: '-' :: _ =>
    let (start, value) := cutAtEquals argument
    match Flag.all.find? fun flag => flag.name == argument with
    | some flag => .ok (.option flag none)
    | none =>
      match Flag.all.find? fun flag => flag.name == start with
      | some flag => .ok (.option flag value)
      | none =>
        match flagsWithStart start with
        | [] => .ok (otherForm argument)
        | [flag] => .ok (.option flag value)
        | _ => .error (.ambiguous argument)
  | '-' :: 'h' :: rest =>
    if rest.all (· == 'h') then .ok (.option .help none)
    else .ok (.option .help (some (String.ofList rest)))
  | '-' :: _ :: _ => .ok (otherForm argument)
  | _ => .ok (.plain argument)

/-- The forms of the arguments; behind two dashes all of them are plain. -/
def formsOf : List String → Except UsageFault (List Form)
  | [] => .ok []
  | argument :: rest =>
    match formOf argument with
    | .error fault => .error fault
    | .ok .dashes => .ok (.dashes :: rest.map .plain)
    | .ok form => (formsOf rest).map (form :: ·)

def Options.set (options : Options) (flag : Flag) (value : Option String) : Options :=
  match flag with
  | .help => { options with help := true }
  | .degrees => { options with degrees := true }
  | .inputPath => { options with inputPath := value }
  | .outputPath => { options with outputPath := value }
  | .logLevel => { options with logLevel := value }

/-- The value behind an equals sign. Two dashes are none. -/
def attachedValue (text : String) : Option String := if text == "--" then none else some text

def Form.expression? : Form → Option String
  | plain text => some text
  | dashes => some "--"
  | _ => none

/-- What is found while the forms are read: the options, the expressions once their place is passed,
and arguments that belong nowhere. -/
structure Progress where
  options : Options := {}
  expressions : Option (List String) := none
  strays : List String := []

/-- Expressions that stand together. The first two dashes among them are no expression; a second
group is out of place. -/
def Progress.addGroup (progress : Progress) (group : List String) : Progress :=
  if group.isEmpty then progress
  else
    match progress.expressions with
    | none => { progress with expressions := some (group.erase "--") }
    | some _ => { progress with strays := progress.strays ++ group }

/-- Reads the forms from the left, with the expressions met since the last option. -/
def readForms (progress : Progress) (group : List String) : List Form → Except UsageFault Progress
  | [] => .ok (progress.addGroup group)
  | .plain text :: rest => readForms progress (group ++ [text]) rest
  | .dashes :: rest => readForms progress (group ++ ["--"]) rest
  | .unknown text :: rest =>
    let progress := progress.addGroup group
    readForms { progress with strays := progress.strays ++ [text] } [] rest
  | .option flag value :: rest =>
    let progress := progress.addGroup group
    match value with
    | some value =>
      if flag.takesValue then
        let options := progress.options.set flag (attachedValue value)
        readForms { progress with options } [] rest
      else .error (.unusedValue flag)
    | none =>
      if flag.takesValue then
        match rest with
        | .plain value :: rest =>
          readForms { progress with options := progress.options.set flag (some value) } [] rest
        | _ => .error (.noValue flag)
      else readForms { progress with options := progress.options.set flag none } [] rest

def Options.ofArguments (arguments : List String) : Except UsageFault Options :=
  match formsOf arguments with
  | .error fault => .error fault
  | .ok forms =>
    match readForms {} [] forms with
    | .error fault => .error fault
    | .ok progress =>
      if progress.strays.isEmpty then
        .ok { progress.options with expressions := progress.expressions.getD [] }
      else .error (.unrecognized progress.strays)

end Reckoner.CommandLine
