import FlexGate.Shell.Filters
import FlexGate.Shell.Redirections

/-!
Starting programs: a shell on a script, a file that names its interpreter, or a program that is
there besides the shell.
-/

set_option autoImplicit false
set_option relaxedAutoImplicit false

namespace FlexGate.Shell.Eval

section

variable (run : Statement → Eval Unit)

/-- Ends a shell: what it left is taken for its status, and it runs what is to be run at its end. -/
def ending (body : Eval Unit) : Eval Unit := do
  try
    body
  catch
    | .exit code => setStatus code
    | .return code => setStatus code
    | .leave _ => pure ()
    | .again _ => pure ()
    | stop => throw stop
  let s ← get
  match s.traps.lookup 0 with
  | some (.run script) =>
    set { s with traps := s.traps.filter fun t ↦ t.1 ≠ 0 }
    try
      run (.script 1 script)
      setStatus s.status
    catch
      | .exit code => setStatus code
      | stop => throw stop
  | _ => pure ()

/-- What a shell begins with besides what it is given. -/
def initialVariables : Variables :=
  [("IFS".toList, usualSeparators), ("OPTIND".toList, ['1']), ("PS4".toList, ['+', ' '])]

/-- Runs a script in a shell that begins anew. -/
def runShell (strict : Bool) (name : List Char) (arguments : List (List Char))
    (script : List Char) : Eval Unit := do
  modify fun s ↦
    { s with
      name := name
      readIn := none
      arguments := arguments
      bindings := initialVariables ++ s.bindings.filter fun v ↦ s.exported.contains v.1
      readOnly := []
      aside := []
      functions := []
      status := 0
      shell := s.process
      loops := 0
      strict := strict
      needsSet := false
      traces := false
      plainPaths := false
      asked := false
      traps := kept s.traps }
  ending run (run (.script 1 script))

/-- How a shell is started: whether a command that fails ends it, whether its script is an argument,
and what follows the options. A letter that is no option is refused. -/
structure ShellStart where
  strict : Bool := false
  inline : Bool := false
  rest : List (List Char) := []

def shellLetters : List Char := "aefhimnsuvxcbIEVlpqC".toList

def shellStart (start : ShellStart) : List (List Char) → Except Char ShellStart
  | [] => .ok start
  | ['-'] :: rest => .ok { start with rest := rest }
  | ['-', '-'] :: rest => .ok { start with rest := rest }
  | ('-' :: flags) :: rest =>
    match flags.find? fun c ↦ !shellLetters.contains c with
    | some c => .error c
    | none =>
      shellStart
        { start with
          strict := start.strict || flags.contains 'e'
          inline := start.inline || flags.contains 'c' } rest
  | rest => .ok { start with rest := rest }

/-- The shell as a program under a name: it runs a file, or an argument, or its input. -/
def shellProgram (name : List Char) (arguments : List (List Char)) : Eval Unit := do
  let refuse (message : List Char) :=
    Programs.failWith 2 (name ++ ofString ": 0: " ++ message)
  match shellStart {} arguments with
  | .error letter => refuse (ofString "Illegal option -" ++ [letter])
  | .ok start =>
    match start.rest, start.inline with
    | [], true => refuse (ofString "-c requires an argument")
    | script :: own :: rest, true => runShell run start.strict own rest script
    | [script], true => runShell run start.strict name [] script
    | path :: rest, false =>
      match (← get).files.readBytes (toText path) with
      | .ok bytes => runShell run start.strict path rest (ofBytes bytes)
      | .error fault =>
        refuse (ofString "cannot open " ++ path ++ ofString (": " ++ openReason false fault))
    | [], false => runShell run start.strict name [] (← takeInput)

def shellNames : List String := ["sh", "dash"]

def systemDirectories : List String := ["/bin/", "/usr/bin/"]

/-- The name of a program without the system directory in front. -/
def bareName (name : List Char) : List Char :=
  match systemDirectories.find? fun d ↦ d.toList.isPrefixOf name with
  | some d => name.drop d.length
  | none => name

/-- The interpreter that the first line of a script names, and the argument that it may give. -/
def interpreterOf (script : List Char) : Option (List (List Char)) :=
  match script with
  | '#' :: '!' :: rest =>
    let isSpace (c : Char) : Bool := c = ' ' || c = '\t'
    let trimmed (text : List Char) := ((text.dropWhile isSpace).reverse.dropWhile isSpace).reverse
    let line := trimmed (rest.takeWhile (· ≠ '\n'))
    let name := line.takeWhile fun c ↦ !isSpace c
    let argument := trimmed (line.drop name.length)
    if name.isEmpty then none
    else some (if argument.isEmpty then [name] else [name, argument])
  | _ => none

/-- A program that sets variables and runs another. -/
def environmentProgram : String := "env"

def isAssignment (argument : List Char) : Bool := argument.contains '='

/-- The programs that need no file, besides the shell. -/
def programTable : List (String × ((Statement → Eval Unit) → List (List Char) → Eval Unit)) :=
  Programs.table ++ Filters.table

/-- A program that needs no file: the shell, or one that is there besides it. -/
def systemProgram? (name : List Char) (arguments : List (List Char)) : Option (Eval Unit) :=
  let bare := String.ofList (bareName name)
  if shellNames.contains bare then some (shellProgram run name arguments)
  else
    (programTable.lookup bare).map fun program ↦ do
      setStatus 0
      program run arguments

/-- A command cannot be run, for a reason and with a status. -/
def cannotRun (name : List Char) (why : String) (status : Nat) : Eval Unit := do
  complainWithin (name ++ ofString (": " ++ why))
  setStatus status

def notFound (name : List Char) : Eval Unit :=
  let isLong := (Path.segments name).any fun s ↦ FileTree.maxNameBytes < s.length
  cannotRun name (if isLong then "File name too long" else "not found") 127

/-- Sets variables for programs, written as assignments. -/
def exportAll (assignments : List (List Char)) : Eval Unit := do
  for assignment in assignments do
    let name := assignment.takeWhile (· ≠ '=')
    setVariable name (assignment.drop (name.length + 1))
    modify fun s ↦ { s with exported := name :: s.exported.filter (· ≠ name) }

/-- Runs a program that needs no file, also through the program that sets variables. -/
def runSystem (name : List Char) (arguments : List (List Char)) : Option (Eval Unit) :=
  if bareName name = environmentProgram.toList then
    let assignments := arguments.takeWhile isAssignment
    some do
      exportAll assignments
      setStatus 0
      match arguments.drop assignments.length with
      | inner :: rest =>
        (systemProgram? run inner rest).getD
          (Programs.failWith 127 (ofString "env: '" ++ inner ++
            ofString "': No such file or directory"))
      | [] => Programs.printenv []
  else systemProgram? run name arguments

def notPermitted (name : List Char) : Eval Unit := cannotRun name "Permission denied" 126

/-- Runs a file of a tree as a program. A script whose interpreter is a script again is run by that,
up to a number of times. -/
def runFile : Nat → List Char → List (List Char) → Eval Unit
  | 0, name, _ => notPermitted name
  | depth + 1, name, arguments => do
    match (← get).files.find (toText name) with
    | .error _ => notFound name
    | .ok (_, .directory) => notPermitted name
    | .ok (_, .file bytes executable) =>
      let script := ofBytes bytes
      if !executable then notPermitted name
      else
        match interpreterOf script with
        | some (interpreter :: argument) =>
          let all := argument ++ name :: arguments
          match runSystem run interpreter all with
          | some program => program
          | none =>
            match (← get).files.find (toText interpreter) with
            | .ok _ => runFile depth interpreter all
            | .error _ => notFound name
        | _ => runShell run false name arguments script

/-- How many interpreters may stand behind each other. -/
def interpreterDepth : Nat := 4

/-- Runs a program by its name, in place of the process that does it. -/
def runProgram (name : List Char) (arguments : List (List Char)) : Eval Unit :=
  match runSystem run name arguments with
  | some program => program
  | none =>
    if name.isEmpty then cannotRun name "Permission denied" 127
    else if name.contains '/' then runFile run interpreterDepth name arguments else notFound name

end

end FlexGate.Shell.Eval
