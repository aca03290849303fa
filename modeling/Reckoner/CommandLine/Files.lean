/-!
# Paths and files

What the program asks of the files around it, and the answers of a folder that holds some files and
nothing else. A path is followed name by name, from the folder or from the root; what lies around
the folder is there but has nothing in it.
-/

namespace Reckoner.CommandLine

inductive FileFault where
  | missing
  | isFolder
  | notFolder
  | nameTooLong
  | nullCharacter
  deriving DecidableEq

/-- The files around the program: the text of a file, and why a path does not lead to a folder or
cannot be written to. -/
structure Surroundings where
  read : String → Except FileFault String
  folderFault? : String → Option FileFault
  writeFault? : String → Option FileFault

def namesOf (path : String) : List String := (path.splitOn "/").filter fun name => name != ""

/-- A path that ends in a slash leads to a folder or nowhere. -/
def endsInSlash (path : String) : Bool := path.toList.getLast? == some '/'

/-- The start of a path from the root. Two slashes, and no more than two, are kept. -/
def rootOf (path : String) : String :=
  match (path.toList.takeWhile (· == '/')).length with
  | 0 => ""
  | 2 => "//"
  | _ => "/"

def folderOf (path : String) : String :=
  let names := (namesOf path).filter fun name => name != "."
  let folder := rootOf path ++ "/".intercalate names.dropLast
  if folder.isEmpty then "." else folder

/-- Names are no longer than this, and paths are shorter than `pathSize`, both in bytes. -/
def nameSize : Nat := 255

def pathSize : Nat := 4096

structure Folder where
  files : List (List String × String)

/-- What a path has led to: a file, the folder or one inside it, or a folder around it. -/
inductive Spot where
  | file (text : String)
  | inside (names : List String)
  | around
  deriving DecidableEq

namespace Folder

def ofFiles (files : List (String × String)) : Folder :=
  ⟨files.map fun (path, text) => (namesOf path, text)⟩

def lookup (folder : Folder) (names : List String) : Except FileFault Spot :=
  match folder.files.lookup names with
  | some text => .ok (.file text)
  | none =>
    if folder.files.any fun (place, _) => names.isPrefixOf place then .ok (.inside names)
    else .error .missing

/-- One name further. A name that only stands for a folder is never too long. -/
def step (folder : Folder) (spot : Spot) (name : String) : Except FileFault Spot :=
  match spot with
  | .file _ => .error .notFolder
  | .inside names =>
    if name == "." then .ok (.inside names)
    else if name == ".." then .ok (if names.isEmpty then .around else .inside names.dropLast)
    else if nameSize < name.utf8ByteSize then .error .nameTooLong
    else folder.lookup (names ++ [name])
  | .around =>
    if name == "." || name == ".." then .ok .around
    else if nameSize < name.utf8ByteSize then .error .nameTooLong
    else .error .missing

def walk (folder : Folder) (spot : Spot) : List String → Except FileFault Spot
  | [] => .ok spot
  | name :: rest =>
    match folder.step spot name with
    | .error fault => .error fault
    | .ok spot => folder.walk spot rest

def pathFault? (path : String) : Option FileFault :=
  if path.toList.contains '\x00' then some .nullCharacter
  else if pathSize ≤ path.utf8ByteSize then some .nameTooLong
  else none

def start (path : String) : Spot := if path.startsWith "/" then .around else .inside []

def locate (folder : Folder) (path : String) : Except FileFault Spot :=
  match pathFault? path with
  | some fault => .error fault
  | none =>
    match folder.walk (start path) (namesOf path) with
    | .ok (.file text) => if endsInSlash path then .error .notFolder else .ok (.file text)
    | found => found

def read (folder : Folder) (path : String) : Except FileFault String :=
  match folder.locate path with
  | .ok (.file text) => .ok text
  | .ok _ => .error .isFolder
  | .error fault => .error fault

def folderFault? (folder : Folder) (path : String) : Option FileFault :=
  match folder.locate path with
  | .ok (.file _) => some .notFolder
  | .ok _ => none
  | .error fault => some fault

/-- Why the last name of a path cannot be written to from the spot before it: a missing file is
made. -/
def lastFault? (folder : Folder) (spot : Spot) (name : String) : Option FileFault :=
  match folder.step spot name with
  | .ok (.file _) => none
  | .ok _ => some .isFolder
  | .error .missing => none
  | .error fault => some fault

/-- Why a path cannot be written to. A slash at its end is taken for a folder's. -/
def writeFault? (folder : Folder) (path : String) : Option FileFault :=
  match pathFault? path with
  | some fault => some fault
  | none =>
    let names := namesOf path
    match folder.walk (start path) names.dropLast with
    | .error fault => some fault
    | .ok (.file _) => some .notFolder
    | .ok spot =>
      if endsInSlash path then some .isFolder
      else folder.lastFault? spot (names.getLast?.getD ".")

def surroundings (folder : Folder) : Surroundings :=
  { read := folder.read, folderFault? := folder.folderFault?, writeFault? := folder.writeFault? }

end Folder

end Reckoner.CommandLine
