import FlexGate.FileTree.Basic

/-!
Walking a path. Every name but the last has to lead into a directory. What the last name needs is
left to the access that asks for it, so a walk ends in a directory with the last step not taken.
-/

set_option autoImplicit false
set_option relaxedAutoImplicit false

namespace FlexGate.FileTree

/-- The last step of a path: to stay, to go up, or to a name in the directory reached. A path that
ends in a slash can only mean a directory. -/
inductive LastStep
  | stay
  | up
  | name (name : List Char) (slash : Bool)

/-- The longest name in bytes. -/
def maxNameBytes : Nat := 255

/-- The length in bytes that a path has to stay below. -/
def maxPathBytes : Nat := 4096

def byteLength (text : List Char) : Nat := text.foldl (fun n c ↦ n + c.utf8Size) 0

/-- The directory entered by one name of a directory. -/
def enter (t : FileTree) (place : Place) (name : List Char) : Except IoFault Place :=
  if name = ['.'] then .ok place
  else if name = ['.', '.'] then .ok place.dropLast
  else if maxNameBytes < byteLength name then .error .nameTooLong
  else
    match t.get? (place ++ [name]) with
    | some .directory => .ok (place ++ [name])
    | some (.file _ _) => .error .notADirectory
    | none => .error .notFound

def enterAll (t : FileTree) (place : Place) : List (List Char) → Except IoFault Place
  | [] => .ok place
  | name :: rest => do enterAll t (← enter t place name) rest

def lastStep (name : List Char) (slash : Bool) : LastStep :=
  if name = ['.'] then .stay
  else if name = ['.', '.'] then .up
  else .name name slash

/-- The directory that a path leads to with its last step not taken, and that step. -/
def walk (t : FileTree) (path : Path) : Except IoFault (Place × LastStep) :=
  if path = [] then .error .notFound
  else if path.contains '\x00' then .error .invalidPath
  else if maxPathBytes ≤ byteLength path then .error .nameTooLong
  else
    let origin := if path.isAbsolute then [] else t.here
    let names := path.segments.filter fun s ↦ !s.isEmpty
    match names.getLast? with
    | none => .ok (origin, .stay)
    | some last => do
      let place ← enterAll t origin names.dropLast
      return (place, lastStep last (path.getLast? == some '/'))

/-- The place of something that exists, and what is there. -/
def find (t : FileTree) (path : Path) : Except IoFault (Place × FileNode) := do
  match ← walk t path with
  | (place, .stay) => return (place, .directory)
  | (place, .up) => return (place.dropLast, .directory)
  | (place, .name name slash) =>
    if maxNameBytes < byteLength name then throw .nameTooLong
    match t.get? (place ++ [name]) with
    | none => throw .notFound
    | some .directory => return (place ++ [name], .directory)
    | some (.file bytes executable) =>
      if slash then throw .notADirectory else return (place ++ [name], .file bytes executable)

def exists? (t : FileTree) (path : Path) : Bool :=
  match find t path with
  | .ok _ => true
  | .error _ => false

def isFile (t : FileTree) (path : Path) : Bool :=
  match find t path with
  | .ok (_, .file _ _) => true
  | _ => false

def isDirectory (t : FileTree) (path : Path) : Bool :=
  match find t path with
  | .ok (_, .directory) => true
  | _ => false

end FlexGate.FileTree
