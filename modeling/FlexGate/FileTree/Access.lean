import FlexGate.FileTree.Walk
import FlexGate.Text.Utf8

/-!
Reading, writing and removing files, and making directories. An access that fails changes nothing,
except that directories made on the way to a file stay.
-/

set_option autoImplicit false
set_option relaxedAutoImplicit false

namespace FlexGate.FileTree

def readBytes (t : FileTree) (path : Path) : Except IoFault (List UInt8) := do
  match ← t.find path with
  | (_, .file bytes _) => return bytes
  | (_, .directory) => throw .isADirectory

def readText (t : FileTree) (path : Path) : Except IoFault String := do
  match Text.Utf8.decode? (← t.readBytes path) with
  | some text => return String.ofList text
  | none => throw .invalidText

/-- Writes a file, which may be new. A file that exists stays executable if it is. -/
def writeBytes (t : FileTree) (path : Path) (bytes : List UInt8) : Except IoFault FileTree := do
  match ← t.walk path with
  | (_, .stay) => throw .isADirectory
  | (_, .up) => throw .isADirectory
  | (place, .name name slash) =>
    if slash then throw .isADirectory
    if maxNameBytes < byteLength name then throw .nameTooLong
    match t.get? (place ++ [name]) with
    | some .directory => throw .isADirectory
    | some (.file _ executable) => return t.put (place ++ [name]) (.file bytes executable)
    | none => return t.put (place ++ [name]) (.file bytes false)

def removeFile (t : FileTree) (path : Path) : Except IoFault FileTree := do
  match ← t.walk path with
  | (_, .stay) => throw .isADirectory
  | (_, .up) => throw .isADirectory
  | (place, .name name slash) =>
    if maxNameBytes < byteLength name then throw .nameTooLong
    match t.get? (place ++ [name]) with
    | none => throw .notFound
    | some .directory => throw .isADirectory
    | some (.file _ _) => if slash then throw .notADirectory else return t.erase (place ++ [name])

def makeDirectory (t : FileTree) (path : Path) : Except IoFault FileTree := do
  match ← t.walk path with
  | (_, .stay) => throw .alreadyExists
  | (_, .up) => throw .alreadyExists
  | (place, .name name _) =>
    if maxNameBytes < byteLength name then throw .nameTooLong
    match t.get? (place ++ [name]) with
    | some _ => throw .alreadyExists
    | none => return t.put (place ++ [name]) .directory

/-- The paths of the directories on the way to a path, the path itself first, as many as fuel
allows. -/
def ancestors : Nat → Path → List Path
  | 0, _ => []
  | fuel + 1, path =>
    if path = [] then []
    else
      match path.parent? with
      | none => [path]
      | some parent => path :: ancestors fuel parent

/-- Makes a directory if the directory above it exists. A directory that is there already will
do. -/
def ensureDirectory (t : FileTree) (path : Path) : Except IoFault FileTree :=
  match t.makeDirectory path with
  | .ok t => .ok t
  | .error fault => if t.isDirectory path then .ok t else .error fault

/-- Makes directories from the last path of a list to the first. What is made stays, also when a
later one fails. -/
def ensureAll (t : FileTree) : List Path → FileTree × Option IoFault
  | [] => (t, none)
  | path :: above =>
    match t.ensureDirectory path with
    | .ok t => (t, none)
    | .error .notFound =>
      match ensureAll t above with
      | (t, some fault) => (t, some fault)
      | (t, none) =>
        match t.ensureDirectory path with
        | .ok t => (t, none)
        | .error fault => (t, some fault)
    | .error fault => (t, some fault)

/-- Makes a directory and those above it that are missing. -/
def makeDirectories (t : FileTree) (path : Path) : FileTree × Option IoFault :=
  ensureAll t (ancestors (path.length + 1) path)

/-- Puts a file at a path with the directories above it. -/
def install (t : FileTree) (path : Path) (bytes : List UInt8) (executable : Bool) :
    Except IoFault FileTree := do
  let above := (path.parent?.map fun parent ↦ (t.makeDirectories parent).1).getD t
  let t ← above.writeBytes path bytes
  return t.put (← t.find path).1 (.file bytes executable)

/-- Writes a text, making the directories above the file first. -/
def writeText (t : FileTree) (path : Path) (text : String) : FileTree × Option IoFault :=
  let (t, fault) :=
    match path.parent? with
    | some parent => if parent.isEmpty then (t, none) else makeDirectories t parent
    | none => (t, none)
  match fault with
  | some fault => (t, some fault)
  | none =>
    match t.writeBytes path (Text.Utf8.encoded text) with
    | .ok t => (t, none)
    | .error fault => (t, some fault)

end FlexGate.FileTree
