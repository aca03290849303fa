import Reckoner.CommandLine.Files
import Reckoner.CommandLine.Interactive
import Reckoner.CommandLine.Options
import Reckoner.Report.Csv
import Reckoner.Report.Table
import Reckoner.Text.Lines
import Reckoner.Text.UpperCase

/-!
# Running the program

A call either evaluates the expressions of a file, or those among its arguments, or answers the
lines that are typed. The exit code says whether an expression failed. What the program needs to
know of its files is asked of the surroundings.
-/

namespace Reckoner.CommandLine

inductive Abort where
  | noLevel
  | unknownLevel (level : String)
  | file (path : String) (fault : FileFault)
  | missingFolder (path : String)
  deriving DecidableEq

def FileFault.message (path : String) : FileFault → String
  | missing => "[Errno 2] No such file or directory: " ++ Text.quoted path
  | notFolder => "[Errno 20] Not a directory: " ++ Text.quoted path
  | isFolder => "[Errno 21] Is a directory: " ++ Text.quoted path
  | nameTooLong => "[Errno 36] File name too long: " ++ Text.quoted path
  | nullCharacter => "embedded null byte"

def Abort.message : Abort → String
  | noLevel => "'list' object has no attribute 'upper'"
  | unknownLevel level => "Unknown level: " ++ Text.quoted level
  | file path fault => fault.message path
  | missingFolder path =>
    "Cannot save file into a non-existent directory: '" ++ path ++ "'"

/-- The end of a run: what was printed, the files that were written, and the exit code. -/
structure Conclusion where
  printed : String := ""
  written : List (String × String) := []
  ending : Except Abort Nat := .ok 0

def levels : List String :=
  ["CRITICAL", "FATAL", "ERROR", "WARN", "WARNING", "INFO", "DEBUG", "NOTSET"]

def levelFault? (options : Options) : Option Abort :=
  match options.logLevel with
  | none => some .noLevel
  | some text =>
    let level := Text.upper text
    if levels.contains level then none else some (.unknownLevel level)

/-- A path, where an empty one counts as none. -/
def path? : Option String → Option String
  | some "" => none
  | path => path

def session (options : Options) : Session :=
  { mode := if options.degrees then .degrees else Session.defaultMode
    history := { capacity := History.defaultCapacity, separator := History.defaultSeparator } }

def exitCode (failures : Nat) : Nat := if failures = 0 then 0 else 1

def answerLine (outcome : Outcome) : String :=
  outcome.expression.getD "" ++ History.defaultSeparator ++ outcome.shown ++ "\n"

def runExpressions (session : Session) (expressions : List String) : Conclusion :=
  let report : Report := session.outcomes expressions
  { printed := String.join (report.map answerLine), ending := .ok (exitCode report.failures) }

/-- The expressions in the text of a file: its lines without the blanks around them, as far as
anything is left. -/
def expressionsOf (text : String) : List String :=
  ((Text.fileLines text).map Text.strip).filter fun line => !line.isEmpty

/-- Why a report cannot be written to a path. The folder has to be there; that it cannot even be
looked for is a fault of its own. -/
def saveFault? (surroundings : Surroundings) (path : String) : Option Abort :=
  match surroundings.folderFault? (folderOf path) with
  | some .nameTooLong => some (.file (folderOf path) .nameTooLong)
  | some _ => some (.missingFolder (folderOf path))
  | none => (surroundings.writeFault? path).map (.file path)

def save (surroundings : Surroundings) (conclusion : Conclusion) (report : Report)
    (path : String) : Conclusion :=
  match saveFault? surroundings path with
  | some abort => { conclusion with ending := .error abort }
  | none => { conclusion with written := [(path, report.csv)] }

def runFile (surroundings : Surroundings) (mode : AngleMode) (input : String)
    (output : Option String) : Conclusion :=
  match surroundings.read input with
  | .error fault => { ending := .error (.file input fault) }
  | .ok text =>
    let report := Report.ofExpressions mode ((expressionsOf text).map some)
    let conclusion : Conclusion :=
      { printed := report.table, ending := .ok (exitCode report.failures) }
    match output with
    | none => conclusion
    | some path => save surroundings conclusion report path

def runDialogue (session : Session) (input : String) : Conclusion :=
  { printed := Dialogue.greeting session ++
      Dialogue.transcript { session } (Text.typedLines input) }

def usage : String :=
  "usage: [--degrees] [--input_path PATH] [--output_path PATH] [--log_level LEVEL]" ++
    " [expressions ...]\n"

inductive Task where
  | showHelp
  | file (input : String) (output : Option String)
  | expressions (expressions : List String)
  | dialogue

def Options.task (options : Options) : Task :=
  if options.help then .showHelp
  else
    match path? options.inputPath with
    | some input => .file input (path? options.outputPath)
    | none =>
      if options.expressions.isEmpty then .dialogue else .expressions options.expressions

/-- A run with options, given what is typed. -/
def runWith (surroundings : Surroundings) (options : Options) (input : String) : Conclusion :=
  match levelFault? options with
  | some abort => { ending := .error abort }
  | none =>
    match options.task with
    | .showHelp => { printed := usage }
    | .file path output => runFile surroundings (session options).mode path output
    | .expressions expressions => runExpressions (session options) expressions
    | .dialogue => runDialogue (session options) input

/-- A run with arguments, given what is typed. Wrong arguments end it with the exit code two. -/
def run (surroundings : Surroundings) (arguments : List String) (input : String) : Conclusion :=
  match Options.ofArguments arguments with
  | .error _ => { ending := .ok 2 }
  | .ok options => runWith surroundings options input

end Reckoner.CommandLine
