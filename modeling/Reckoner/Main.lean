import Reckoner.CommandLine.Run

/-!
# The program

Reads the arguments, the files and the lines typed, and prints what the library answers.
-/

open Reckoner CommandLine

/-- Answers line after line until the end of the input or of the dialogue. -/
partial def converse (dialogue : Dialogue) : IO Unit := do
  let output ← IO.getStdout
  output.putStr Dialogue.prompt
  output.flush
  let line ← (← IO.getStdin).getLine
  if line.isEmpty then return
  let (text, after) := dialogue.step line
  output.putStr text
  output.flush
  match after with
  | some dialogue => converse dialogue
  | none => return

def isFolder (path : String) : IO Bool := do
  ((← IO.currentDir) / path).isDir

def readPath (path : String) : IO (Except FileFault String) := do
  if ← isFolder path then return .error .isFolder
  try
    return .ok (← IO.FS.readFile path)
  catch
    | .inappropriateType .. => return .error .notFolder
    | .invalidArgument .. => return .error .nameTooLong
    | _ => return .error .missing

def surroundings (options : Options) : IO Surroundings := do
  let output := (path? options.outputPath).getD ""
  let text ← readPath ((path? options.inputPath).getD "")
  let folders ← [folderOf output, output].filterM isFolder
  return {
    read := fun _ => text
    folderFault? := fun path => if folders.contains path then none else some .missing
    writeFault? := fun path => if folders.contains path then some .isFolder else none }

def finish (conclusion : Conclusion) : IO UInt32 := do
  IO.print conclusion.printed
  for (path, text) in conclusion.written do
    IO.FS.writeFile path text
  match conclusion.ending with
  | .ok code => return code.toUInt32
  | .error abort =>
    IO.eprintln abort.message
    return 1

def main (arguments : List String) : IO UInt32 := do
  match Options.ofArguments arguments with
  | .error fault =>
    IO.eprint usage
    IO.eprintln fault.message
    return 2
  | .ok options =>
    match levelFault? options, options.task with
    | none, .dialogue =>
      let session := CommandLine.session options
      IO.print (Dialogue.greeting session)
      converse { session }
      return 0
    | none, .file _ _ => finish (runWith (← surroundings options) options "")
    | _, _ => finish (runWith (Folder.ofFiles []).surroundings options "")
