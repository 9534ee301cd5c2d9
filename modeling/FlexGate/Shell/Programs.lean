import FlexGate.Number.Decimal
import FlexGate.Shell.Session
import FlexGate.Text.Order

/-!
Programs that scripts call for files. Each writes to its output and leaves a status.
-/

set_option autoImplicit false
set_option relaxedAutoImplicit false

namespace FlexGate.Shell.Programs

open Eval

def failWith (code : Nat) (message : List Char) : Eval Unit := do
  write 2 (message ++ ['\n'])
  setStatus code

def reason (fault : IoFault) : String :=
  match fault with
  | .notFound => "No such file or directory"
  | .alreadyExists => "File exists"
  | .notADirectory => "Not a directory"
  | .isADirectory => "Is a directory"
  | .permissionDenied => "Permission denied"
  | .nameTooLong => "File name too long"
  | other => other.message

/-- The lines of a text, each with its line feed. -/
def linesOf : List Char → List (List Char)
  | [] => []
  | '\n' :: rest => ['\n'] :: linesOf rest
  | c :: rest =>
    match linesOf rest with
    | [] => [[c]]
    | line :: others => if c = '\n' then [c] :: line :: others else (c :: line) :: others

/-- How a program tells that it could not read a file. -/
def unread (program : String) (path : List Char) (fault : IoFault) : List Char :=
  let front := ofString (program ++ ": ")
  let why := ofString (reason fault)
  if (program = "head" ∨ program = "tail") ∧ fault ≠ .isADirectory then
    front ++ ofString "cannot open '" ++ path ++ ofString "' for reading: " ++ why
  else if program = "head" ∨ program = "tail" then
    front ++ ofString "error reading '" ++ path ++ ofString "': " ++ why
  else front ++ path ++ ofString ": " ++ why

/-- The bytes of a file, or of the input for a dash. -/
def contents (program : String) (path : List Char) : Eval (Option (List Char)) := do
  if path = ['-'] then return some (← takeInput)
  if path = "/dev/null".toList then return some []
  if path = "/dev/stdin".toList then return some (← takeInput)
  match (← get).files.readBytes (toText path) with
  | .ok bytes => return some (ofBytes bytes)
  | .error fault =>
    failWith 1 (unread program path fault)
    return none

/-- Everything that files hold, or the input if none is named. -/
def everything (program : String) (paths : List (List Char)) : Eval (List Char) := do
  let texts ← (if paths.isEmpty then [['-']] else paths).mapM (contents program)
  return (texts.filterMap id).flatten

def cat (arguments : List (List Char)) : Eval Unit := do
  let numbered := arguments.head? = some ['-', 'n']
  let paths := if numbered then arguments.drop 1 else arguments
  let texts ← (if paths.isEmpty then [['-']] else paths).mapM (contents "cat")
  if numbered then
    let rows := (linesOf (texts.filterMap id).flatten).zipIdx 1
    write 1 (rows.flatMap fun (row, k) ↦
      let number := ofString (toString k)
      List.replicate (6 - number.length) ' ' ++ number ++ '\t' :: row)
  else for text in texts do write 1 (text.getD [])

/-- A program was given nothing to work on. -/
def missingOperand (program what : String) : Eval Unit :=
  failWith 1 (ofString (program ++ ": missing " ++ what ++ "\nTry '" ++ program ++
    " --help' for more information."))

/-- Options before operands, and the operands. -/
def options (arguments : List (List Char)) : List (List Char) × List (List Char) :=
  let isOption (a : List Char) := a.head? = some '-' && a.length > 1
  let front := arguments.takeWhile fun a ↦ isOption a && a != ['-', '-']
  let rest := arguments.drop front.length
  (front, if rest.head? = some ['-', '-'] then rest.drop 1 else rest)

def hasFlag (flags : List (List Char)) (c : Char) : Bool :=
  flags.any fun f ↦ (f.drop 1).contains c

def removeBelow (files : FileTree) (place : Place) : FileTree :=
  { files with nodes := files.nodes.filter fun entry ↦ !place.isPrefixOf entry.1 }

def rm (arguments : List (List Char)) : Eval Unit := do
  let (flags, paths) := options arguments
  let force := hasFlag flags 'f'
  if paths.isEmpty && !force then missingOperand "rm" "operand"
  for path in paths do
    let s ← get
    let cannot (why : String) :=
      failWith 1 (ofString "rm: cannot remove '" ++ path ++ ofString ("': " ++ why))
    match s.files.find (toText path) with
    | .ok (place, .directory) =>
      if hasFlag flags 'r' || hasFlag flags 'R' then
        set { s with files := removeBelow s.files place }
      else cannot "Is a directory"
    | .ok (place, .file _ _) => set { s with files := s.files.erase place }
    | .error fault => if force && fault == .notFound then pure () else cannot (reason fault)

/-- A time in milliseconds: a decimal number with or without a unit. -/
def duration? (text : List Char) : Option Nat :=
  let (digits, unit) :=
    match text.getLast? with
    | some 's' => (text.dropLast, 1)
    | some 'm' => (text.dropLast, 60)
    | some 'h' => (text.dropLast, 3600)
    | some 'd' => (text.dropLast, 86400)
    | _ => (text, 1)
  if text = "infinity".toList then some 1000000000000
  else
    (Decimal.readUnsigned? digits).map fun d ↦
      let (num, den) := d.quotient
      num * unit * 1000 / den

/-- The milliseconds of all durations together. -/
def totalDuration (texts : List (List Char)) : Nat :=
  (texts.filterMap duration?).foldl (· + ·) 0

def sleep (run : Statement → Eval Unit) (arguments : List (List Char)) : Eval Unit := do
  if arguments.isEmpty then missingOperand "sleep" "operand"
  else
    match arguments.find? fun a ↦ (duration? a).isNone with
    | some ('-' :: letter :: _) =>
      failWith 1 (ofString "sleep: invalid option -- '" ++ [letter] ++
        ofString "'\nTry 'sleep --help' for more information.")
    | some bad =>
      failWith 1 (ofString "sleep: invalid time interval '" ++ bad ++
        ofString "'\nTry 'sleep --help' for more information.")
    | none => Eval.sleep run (totalDuration arguments)

def mkdir (arguments : List (List Char)) : Eval Unit := do
  let (flags, paths) := options arguments
  if paths.isEmpty then missingOperand "mkdir" "operand"
  for path in paths do
    let s ← get
    let cannot (fault : IoFault) :=
      failWith 1 (ofString "mkdir: cannot create directory '" ++ path ++
        ofString ("': " ++ reason fault))
    if hasFlag flags 'p' then
      let (files, fault) := s.files.makeDirectories (toText path)
      set { s with files := files }
      match fault with
      | some fault => cannot fault
      | none => pure ()
    else
      match s.files.makeDirectory (toText path) with
      | .ok files => set { s with files := files }
      | .error fault => cannot fault

def touch (arguments : List (List Char)) : Eval Unit := do
  if arguments.isEmpty then missingOperand "touch" "file operand"
  for path in arguments do
    let s ← get
    if !s.files.exists? (toText path) then
      match s.files.writeBytes (toText path) [] with
      | .ok files => set { s with files := files }
      | .error fault =>
        failWith 1 (ofString "touch: cannot touch '" ++ path ++ ofString ("': " ++ reason fault))

/-- The names in a directory, sorted. -/
def namesIn (files : FileTree) (place : Place) : List (List Char) :=
  Text.sort (files.nodes.filterMap fun entry ↦
    if entry.1.dropLast = place then entry.1.getLast?.map ofText else none)

def lines (texts : List (List Char)) : List Char := texts.flatMap fun t ↦ t ++ ['\n']

def ls (arguments : List (List Char)) : Eval Unit := do
  let (flags, paths) := options arguments
  let shown (names : List (List Char)) : List (List Char) :=
    if hasFlag flags 'a' then ".".toList :: "..".toList :: names
    else if hasFlag flags 'A' then names
    else names.filter fun n ↦ n.head? ≠ some '.'
  let mut plain := []
  let mut directories := []
  let mut status := 0
  for path in (if paths.isEmpty then [['.']] else paths) do
    match (← get).files.find (toText path) with
    | .error fault =>
      write 2 (ofString "ls: cannot access '" ++ path ++ ofString ("': " ++ reason fault ++ "\n"))
      status := 2
    | .ok (_, .file _ _) => plain := plain ++ [path]
    | .ok (place, .directory) =>
      if hasFlag flags 'd' then plain := plain ++ [path]
      else directories := directories ++ [(path, place)]
  let sorted := Text.sort plain
  write 1 (lines sorted)
  let titled := 1 < paths.length
  let mut first := plain.isEmpty
  for (path, place) in directories do
    let names := shown (namesIn (← get).files place)
    write 1 ((if first then [] else ['\n']) ++ (if titled then path ++ ofString ":\n" else []) ++
      lines names)
    first := false
  setStatus status

def basenameOf (path : List Char) : List Char :=
  let trimmed := (path.reverse.dropWhile (· = '/'))
  if trimmed.isEmpty then path.take 1 else (trimmed.takeWhile (· ≠ '/')).reverse

def basename (arguments : List (List Char)) : Eval Unit := do
  match arguments with
  | [path] => write 1 (basenameOf path ++ ['\n'])
  | path :: ending :: _ =>
    let name := basenameOf path
    write 1 ((if ending.isSuffixOf name ∧ ending ≠ name then name.take (name.length - ending.length)
      else name) ++ ['\n'])
  | [] => missingOperand "basename" "operand"

def dirname (arguments : List (List Char)) : Eval Unit := do
  for path in arguments do
    let above := ((path.reverse.dropWhile (· = '/')).dropWhile (· ≠ '/')).dropWhile (· = '/')
    let text :=
      if !above.isEmpty then above.reverse else if path.head? = some '/' then ['/'] else ['.']
    write 1 (text ++ ['\n'])

/-- Where something goes that is put into a directory or at a path. -/
def destination (files : FileTree) (source target : List Char) : List Char :=
  if files.isDirectory (toText target) then
    (if target.getLast? = some '/' then target else target ++ ['/']) ++ basenameOf source
  else target

/-- Copies a file, or moves it. -/
def transfer (program : String) (moves : Bool) (arguments : List (List Char)) : Eval Unit := do
  let (_, paths) := options arguments
  match paths.reverse with
  | target :: first :: others =>
    for source in (first :: others).reverse do
      let s ← get
      let path := destination s.files source target
      match s.files.find (toText source) with
      | .error fault =>
        failWith 1 (ofString (program ++ ": cannot stat '") ++ source ++
          ofString ("': " ++ reason fault))
      | .ok (_, .directory) =>
        failWith 1
          (ofString (program ++ ": -r not specified; omitting directory '") ++ source ++ ['\''])
      | .ok (place, .file bytes executable) =>
        match s.files.writeBytes (toText path) bytes with
        | .error fault =>
          failWith 1 (ofString (program ++ ": cannot create regular file '") ++ path ++
            ofString ("': " ++ reason fault))
        | .ok files =>
          let files :=
            match files.find (toText path) with
            | .ok (new, _) => files.put new (.file bytes executable)
            | .error _ => files
          set { s with files := if moves then files.erase place else files }
  | _ => missingOperand program "file operand"

def rmdir (arguments : List (List Char)) : Eval Unit := do
  for path in arguments do
    let s ← get
    let cannot (why : String) :=
      failWith 1 (ofString "rmdir: failed to remove '" ++ path ++ ofString ("': " ++ why))
    match s.files.find (toText path) with
    | .error fault => cannot (reason fault)
    | .ok (_, .file _ _) => cannot "Not a directory"
    | .ok (place, .directory) =>
      if (namesIn s.files place).isEmpty then set { s with files := s.files.erase place }
      else cannot "Directory not empty"

/-- Sets whether files can be run, by a letter or by a number. -/
def chmod (arguments : List (List Char)) : Eval Unit := do
  match arguments with
  | mode :: paths =>
    let executable :=
      if mode.all Char.isDigit then
        mode.any fun c ↦ (c.toNat - '0'.toNat) % 2 = 1
      else mode.contains '+' && mode.contains 'x'
    let speaks := mode.all Char.isDigit || mode.contains 'x'
    for path in paths do
      let s ← get
      match s.files.find (toText path) with
      | .ok (place, .file bytes _) =>
        if speaks then set { s with files := s.files.put place (.file bytes executable) }
      | .ok _ => pure ()
      | .error fault =>
        failWith 1 (ofString "chmod: cannot access '" ++ path ++ ofString ("': " ++ reason fault))
  | [] => missingOperand "chmod" "operand"

/-- What programs see of the variables. -/
def surroundings : Eval Variables := do
  let s ← get
  return s.bindings.filter fun v ↦ s.exported.contains v.1

def printenv (arguments : List (List Char)) : Eval Unit := do
  let bindings ← surroundings
  match arguments with
  | [] => write 1 (lines (bindings.map fun (name, value) ↦ name ++ '=' :: value))
  | names =>
    for name in names do
      match bindings.lookup name with
      | some value => write 1 (value ++ ['\n'])
      | none => setStatus 1

def echo (arguments : List (List Char)) : Eval Unit := do
  let (texts, ended) :=
    match arguments with
    | ['-', 'n'] :: rest => (rest, [])
    | rest => (rest, ['\n'])
  write 1 ([' '].intercalate texts ++ ended)

/-- A program that writes the same whatever it is given. -/
def telling (text : String) (_ : List (List Char)) : Eval Unit := write 1 (ofString text)

def identity (arguments : List (List Char)) : Eval Unit := do
  let (flags, _) := options arguments
  if flags.isEmpty then write 1 (ofString "uid=0(root) gid=0(root) groups=0(root)\n")
  else write 1 (ofString (if hasFlag flags 'n' then "root\n" else "0\n"))

/-- The programs for files, and some that only tell something. -/
def table : List (String × ((Statement → Eval Unit) → List (List Char) → Eval Unit)) :=
  [ ("cat", fun _ ↦ cat), ("rm", fun _ ↦ rm), ("sleep", sleep), ("mkdir", fun _ ↦ mkdir),
    ("touch", fun _ ↦ touch), ("ls", fun _ ↦ ls), ("basename", fun _ ↦ basename),
    ("dirname", fun _ ↦ dirname), ("cp", fun _ ↦ transfer "cp" false),
    ("mv", fun _ ↦ transfer "mv" true), ("rmdir", fun _ ↦ rmdir), ("chmod", fun _ ↦ chmod),
    ("printenv", fun _ ↦ printenv), ("echo", fun _ ↦ echo), ("true", fun _ _ ↦ setStatus 0),
    ("false", fun _ _ ↦ setStatus 1), ("id", fun _ ↦ identity),
    ("whoami", fun _ ↦ telling "root\n"), ("uname", fun _ ↦ telling "Linux\n") ]

end FlexGate.Shell.Programs
