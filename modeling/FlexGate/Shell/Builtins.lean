import FlexGate.Number.Word
import FlexGate.Shell.Launching
import FlexGate.Shell.Reader

/-!
Commands that the shell carries out itself, and how a command is found by its name.
-/

set_option autoImplicit false
set_option relaxedAutoImplicit false

namespace FlexGate.Shell.Eval

/-- The number of a signal from its number or its name. -/
def signalNumber? (text : List Char) : Option Nat :=
  if !text.isEmpty && text.all Char.isDigit then
    (String.ofList text).toNat?.filter fun n ↦ n < 65
  else
    let name := String.ofList (text.map Char.toUpper)
    if name = "EXIT" then some 0
    else (ExitStatus.signalNames.find? fun s ↦ s.2 = "SIG" ++ name).map Prod.fst

/-- Signals that do nothing to a process that does not ask for them. -/
def harmlessSignals : List Nat := [17, 18, 23, 28]

/-- The shell gets a signal that is for itself, or for all processes. -/
def signalled (run : Statement → Eval Unit) (signal : Nat) (all : Bool) : Eval Unit := do
  setStatus 0
  let s ← get
  if signal = 0 ∨ harmlessSignals.contains signal then return
  let lost : Stop := .killed signal (if all then none else some s.shell)
  if signal = killSignal then throw lost
  match s.traps.lookup signal with
  | some .ignore => pure ()
  | some (.run script) =>
    run (.script 1 script)
    setStatus 0
  | none => throw lost

/-- Sends a signal to a process by its number. -/
def sendSignal (run : Statement → Eval Unit) (signal : Nat) (target : List Char) : Eval Unit := do
  let s ← get
  let (group, digits) :=
    match target with
    | '-' :: digits => (true, digits)
    | digits => (false, digits)
  match (if digits.all Char.isDigit then (String.ofList digits).toNat? else none) with
  | none =>
    complain (ofString "kill: Illegal number: " ++ target)
    throw (.exit 2)
  | some n =>
    if n = 0 ∨ (group ∧ n = s.shell) then signalled run signal true
    else if n = s.shell then signalled run signal false
    else
      match s.jobs.find? fun j ↦ j.process = n with
      | some job =>
        if signal ≠ 0 ∧ !harmlessSignals.contains signal then
          endJob ⟨job.process, signalStatus signal, some signal⟩
      | none =>
        if s.ended.any fun e ↦ e.process = n then pure ()
        else
          complain (ofString "kill: No such process\n")
          setStatus 1

def kill (run : Statement → Eval Unit) (arguments : List (List Char)) : Eval Unit := do
  setStatus 0
  let refuse (message : List Char) : Eval Unit := do
    complain (ofString "kill: " ++ message)
    throw (.exit 2)
  let send (signal : Nat) (targets : List (List Char)) : Eval Unit := do
    for target in targets do sendSignal run signal target
  match arguments with
  | [] =>
    refuse (ofString ("Usage: kill [-s sigspec | -signum | -sigspec] [pid | job]... or\n" ++
      "kill -l [exitstatus]"))
  | ['-', 's'] :: name :: rest =>
    match signalNumber? name with
    | some signal => send signal rest
    | none => refuse (ofString "invalid signal number or name: " ++ name)
  | ['-', '-'] :: rest => send terminateSignal rest
  | ('-' :: name) :: rest =>
    match signalNumber? name with
    | some signal => send signal (if rest.head? = some ['-', '-'] then rest.drop 1 else rest)
    | none => refuse (ofString "Illegal option -" ++ name.take 1)
  | rest => send terminateSignal rest

/-- Waits for jobs until they are over. -/
def waitFor (run : Statement → Eval Unit) : List Job → Eval Unit
  | [] => pure ()
  | job :: rest => do
    let ending ←
      try runJob run job none
      catch
        | .killed signal none => do
          onSignal run signal
          return
        | stop => throw stop
    match ending with
    | some ended => endJob ended
    | none => pure ()
    waitFor run rest

def wait (run : Statement → Eval Unit) (arguments : List (List Char)) : Eval Unit := do
  let s ← get
  match arguments with
  | [] =>
    setStatus 0
    waitFor run (s.jobs.filter fun j ↦ j.owner = s.process)
  | targets =>
    for target in targets do
      let n := (String.ofList target).toNat?.getD 0
      waitFor run (s.jobs.filter fun j ↦ j.process = n)
      let s ← get
      match s.ended.find? fun e ↦ e.process = n with
      | some ended =>
        match ended.signal with
        | some signal => lostTo signal
        | none => setStatus ended.status
      | none => if s.interruption = none then setStatus 127

/-- The name of a signal in a list of traps. -/
def trapName (signal : Nat) : List Char :=
  if signal = 0 then ofString "EXIT"
  else (((ExitStatus.signalNames.lookup signal).map fun n ↦ ofString n).getD []).drop 3

/-- A text in single quotes. -/
def inQuotes (text : List Char) : List Char :=
  '\'' :: (text.flatMap fun c ↦ if c = '\'' then ofString "'\"'\"'" else [c]) ++ ['\'']

def showTraps : Eval Unit := do
  let traps := (← get).traps.mergeSort fun a b ↦ decide (a.1 ≤ b.1)
  for (signal, trap) in traps do
    let script := match trap with
      | .ignore => []
      | .run script => script
    write 1 (ofString "trap -- " ++ inQuotes script ++ ' ' :: trapName signal ++ ['\n'])

def setTraps (action : List Char) (names : List (List Char)) : Eval Unit := do
  for name in names do
    match signalNumber? name with
    | none =>
      write 2 (ofString "trap: " ++ name ++ ofString ": bad trap\n")
      setStatus 1
    | some signal =>
      modify fun s ↦
        let others := s.traps.filter fun t ↦ t.1 ≠ signal
        { s with
          traps :=
            if action = ['-'] then others
            else if action = [] then (signal, .ignore) :: others
            else (signal, .run action) :: others }

def trap (arguments : List (List Char)) : Eval Unit := do
  setStatus 0
  match (if arguments.head? = some ['-', '-'] then arguments.drop 1 else arguments) with
  | [] => showTraps
  | [name] => setTraps ['-'] [name]
  | action :: names => setTraps action names

/-- A line with whether each character is kept from being a separator, and what follows the line if
it ends. Unless backslashes are plain, they keep the next character, or join the next line. -/
def readMarked (plain : Bool) : List Char → List (Char × Bool) × Option (List Char)
  | [] => ([], none)
  | '\n' :: rest => ([], some rest)
  | '\\' :: '\n' :: rest =>
    if plain then ([('\\', false)], some rest) else readMarked plain rest
  | '\\' :: c :: rest =>
    let (line, left) := readMarked plain rest
    if plain then (('\\', false) :: (c, false) :: line, left) else ((c, true) :: line, left)
  | c :: rest =>
    let (line, left) := readMarked plain rest
    ((c, false) :: line, left)

def isSpace (c : Char) : Bool := c = ' ' || c = '\t' || c = '\n'

/-- Splits a line over variables. The last one gets all that is left. -/
def assignLine (between : List Char) : List (List Char) → List (Char × Bool) → Eval Unit
  | [], _ => pure ()
  | name :: others, line => do
    let isGap (x : Char × Bool) : Bool := !x.2 && between.contains x.1 && isSpace x.1
    let isBetween (x : Char × Bool) : Bool := !x.2 && between.contains x.1
    let line := line.dropWhile isGap
    if others.isEmpty then
      let line := (line.reverse.dropWhile isGap).reverse
      let single := line.getLast?.any isBetween && !line.dropLast.any isBetween
      setVariable name ((if single then line.dropLast else line).map Prod.fst)
    else
      let field := line.takeWhile fun x ↦ !isBetween x
      setVariable name (field.map Prod.fst)
      let rest := (line.drop field.length).dropWhile isGap
      assignLine between others
        (if rest.head?.any isBetween then (rest.drop 1).dropWhile isGap else rest)

def read (arguments : List (List Char)) : Eval Unit := do
  let plain := arguments.head? = some ['-', 'r']
  let names := if plain then arguments.drop 1 else arguments
  if names.isEmpty then
    complain (ofString "read: arg count")
    setStatus 2
  else
    let (line, left) := readMarked plain (← input)
    setInput (left.getD [])
    assignLine (← separators) names line
    setStatus (if left.isSome then 0 else 1)

/-- Writes the output of a builtin, if there is something to write to. -/
def writeFor (name : String) (text : List Char) : Eval Unit := do
  if ((← get).channels.lookup 1).isNone then
    complain (ofString (name ++ ": " ++ name ++ ": I/O error"))
    setStatus 1
  else
    setStatus 0
    write 1 text

def echo (arguments : List (List Char)) : Eval Unit := do
  let (arguments, ended) :=
    match arguments with
    | ['-', 'n'] :: rest => (rest, [])
    | rest => (rest, ['\n'])
  let text := [' '].intercalate arguments
  let (text, stop) := Format.unescape true (text.length + 1) text
  writeFor "echo" (text ++ if stop then [] else ended)

def unlimited : String := "unlimited"

/-- A ceiling with its unit, and how to set it. -/
def ceilingOf (letter : Char) :
    Option ((Ceilings → Nat) × Nat × (Nat → Ceilings → Ceilings)) :=
  match letter with
  | 't' => some (Ceilings.cpuSeconds, 1, fun n c ↦ { c with cpuSeconds := n })
  | 'v' => some (Ceilings.memoryBytes, 1024, fun n c ↦ { c with memoryBytes := n })
  | 'f' => some (Ceilings.fileSizeBytes, 512, fun n c ↦ { c with fileSizeBytes := n })
  | _ => none

def ulimitLetters : List Char := "HSatfdscmlpnvwr".toList

/-- Reports or sets a ceiling in the unit of its option. -/
def ulimit (arguments : List (List Char)) : Eval Unit := do
  setStatus 0
  let letters := (arguments.filter fun a ↦ a.head? = some '-').flatMap (·.drop 1)
  match letters.find? fun c ↦ !ulimitLetters.contains c with
  | some c =>
    complain (ofString "ulimit: Illegal option -" ++ [c])
    throw (.exit 2)
  | none => pure ()
  let letter := (letters.find? fun c ↦ c ≠ 'S' ∧ c ≠ 'H').getD 'f'
  let open_ : Ceilings := ⟨Word.greatest, Word.greatest, Word.greatest⟩
  let ceilings := ((← get).ceilings).getD open_
  match arguments.filter fun a ↦ a.head? ≠ some '-' with
  | [] =>
    let text :=
      match ceilingOf letter with
      | some (value, unit, _) =>
        if value ceilings = Word.greatest then unlimited else toString (value ceilings / unit)
      | none => unlimited
    write 1 (ofString (text ++ "\n"))
  | value :: _ =>
    match ceilingOf letter with
    | none => pure ()
    | some (current, unit, put) =>
      let n :=
        if String.ofList value = unlimited then some Word.greatest
        else if value.all Char.isDigit then (String.ofList value).toNat?.map (· * unit)
        else none
      match n with
      | some n =>
        if current ceilings < n then
          complain (ofString "ulimit: error setting limit (Operation not permitted)")
          throw (.exit 2)
        else modify fun s ↦ { s with ceilings := some (put n ceilings) }
      | none =>
        complain (ofString "ulimit: Illegal number: " ++ value)
        throw (.exit 2)

def test (name : String) (arguments : List (List Char)) : Eval Unit := do
  match Test.evaluate (← get).files (arguments.length + 1) arguments with
  | .ok b => setStatus (if b then 0 else 1)
  | .error message =>
    complain (ofString (name ++ ": " ++ message))
    setStatus 2

def printf (arguments : List (List Char)) : Eval Unit := do
  setStatus 0
  match (if arguments.head? = some ['-', '-'] then arguments.drop 1 else arguments) with
  | [] =>
    complain (ofString "printf: usage: printf format [arg ...]")
    setStatus 2
  | format :: rest =>
    let p := Format.all (rest.length + 1) format rest
    writeFor "printf" p.text
    for warning in p.warnings do
      complain (ofString "printf: " ++ warning)
      setStatus 1
    match p.fault with
    | some fault =>
      complain (ofString "printf: " ++ fault)
      setStatus 2
    | none => pure ()

/-- The number that an argument of a builtin gives. -/
def numberArgument (name : String) (arguments : List (List Char)) (usual : Nat) : Eval Nat := do
  match arguments with
  | [] => return usual
  | text :: _ =>
    match (if text.all Char.isDigit then (String.ofList text).toNat? else none) with
    | some n => return n
    | none =>
      complain (ofString (name ++ ": Illegal number: ") ++ text)
      throw (.exit 2)

/-- The name and the value of a field that is an assignment. -/
def fieldParts (field : List Char) : List Char × Option (List Char) :=
  let name := field.takeWhile (· ≠ '=')
  (name, match field.drop name.length with
    | _ :: value => some value
    | [] => none)

/-- Does something with each variable that fields name, after it got its value if one is given. -/
def eachVariable (fields : List (List Char)) (act : List Char → Eval Unit) : Eval Unit := do
  setStatus 0
  for field in fields do
    match fieldParts field with
    | (name, some value) =>
      setVariable name value
      act name
    | (name, none) => act name

def exportName (name : List Char) : Eval Unit :=
  modify fun s ↦ { s with exported := name :: s.exported.filter (· ≠ name) }

def protectName (name : List Char) : Eval Unit :=
  modify fun s ↦ { s with readOnly := name :: s.readOnly }

/-- Puts variables aside until the call of a function is over. -/
def declareLocal (fields : List (List Char)) : Eval Unit := do
  setStatus 0
  match (← get).aside with
  | [] =>
    complain (ofString "local: not in a function")
    throw (.exit 2)
  | _ =>
    for field in fields do
      let (name, value) := fieldParts field
      modify fun s ↦
        match s.aside with
        | frame :: outer =>
          { s with aside := ((name, s.bindings.lookup name) :: frame) :: outer }
        | [] => s
      match value with
      | some value => setVariable name value
      | none => pure ()

/-- Gives variables back what was put aside. -/
def restoreAside (frame : List (List Char × Option (List Char))) (bindings : Variables) :
    Variables :=
  frame.foldl (fun all (name, value) ↦
    let others := all.filter fun v ↦ v.1 ≠ name
    match value with
    | some value => (name, value) :: others
    | none => others) bindings

def unset (arguments : List (List Char)) : Eval Unit := do
  setStatus 0
  match arguments with
  | ['-', 'f'] :: names =>
    modify fun s ↦ { s with functions := s.functions.filter fun f ↦ !names.contains f.1 }
  | arguments =>
    let names := if arguments.head? = some ['-', 'v'] then arguments.drop 1 else arguments
    for name in names do
      if (← get).readOnly.contains name then
        complain (ofString "unset: " ++ name ++ ofString ": is read only")
        throw (.exit 2)
      modify fun s ↦
        { s with
          bindings := s.bindings.filter fun v ↦ v.1 ≠ name
          exported := s.exported.filter (· ≠ name) }

def setLetter (on : Bool) (c : Char) : Eval Unit :=
  modify fun s ↦
    match c with
    | 'e' => { s with strict := on }
    | 'u' => { s with needsSet := on }
    | 'x' => { s with traces := on }
    | 'f' => { s with plainPaths := on }
    | _ => s

/-- Long names of options of the shell. -/
def optionNames : List (String × Char) :=
  [("errexit", 'e'), ("nounset", 'u'), ("xtrace", 'x'), ("noglob", 'f')]

def setOptions : List (List Char) → Eval Unit
  | [] => pure ()
  | ['-', '-'] :: rest => modify fun s ↦ { s with arguments := rest }
  | (sign :: 'o' :: more) :: name :: rest => do
    if sign = '-' ∨ sign = '+' then
      match optionNames.lookup (String.ofList name) with
      | some c => setLetter (sign = '-') c
      | none => pure ()
      setOptions rest
    else modify fun s ↦ { s with arguments := (sign :: 'o' :: more) :: name :: rest }
  | ('-' :: flags) :: rest => do
    match flags.find? fun c ↦ !shellLetters.contains c with
    | some c =>
      complain (ofString "set: Illegal option -" ++ [c])
      throw (.exit 2)
    | none => pure ()
    for c in flags do setLetter true c
    setOptions rest
  | ('+' :: flags) :: rest => do
    for c in flags do setLetter false c
    setOptions rest
  | rest => modify fun s ↦ { s with arguments := rest }

def changeDirectory (arguments : List (List Char)) : Eval Unit := do
  let s ← get
  let path := arguments.headD ['/']
  match s.files.find (toText path) with
  | .ok (place, .directory) =>
    set { s with files := { s.files with here := place }, status := 0 }
  | _ =>
    complain (ofString "cd: can't cd to " ++ path)
    setStatus 2

/-- Calls a function of the script. -/
def call (run : Statement → Eval Unit) (body : Statement) (arguments : List (List Char)) :
    Eval Unit := do
  let before ← get
  modify fun s ↦ { s with arguments := arguments, aside := [] :: s.aside, loops := 0 }
  let leave : Eval Unit := modify fun s ↦
    { s with
      arguments := before.arguments
      loops := before.loops
      aside := before.aside
      bindings := restoreAside (s.aside.headD []) s.bindings }
  try
    run body
    leave
  catch stop =>
    leave
    match stop with
    | .return code => setStatus code
    | .leave _ => pure ()
    | .again _ => pure ()
    | stop => throw stop

/-- Reads a text as a part of the script, under a name. -/
def within (run : Statement → Eval Unit) (name : List Char) (line : Nat) (text : List Char) :
    Eval Unit := do
  let before := (← get).readIn
  setStatus 0
  modify fun s ↦ { s with readIn := some name }
  try
    run (.script line text)
    modify fun s ↦ { s with readIn := before }
  catch stop =>
    modify fun s ↦ { s with readIn := before }
    throw stop

/-- Reads a file as a part of the script. -/
def readFile (run : Statement → Eval Unit) (arguments : List (List Char)) : Eval Unit := do
  let path := arguments.headD []
  if !path.contains '/' then
    complain (ofString ".: " ++ path ++ ofString ": not found")
    throw (.exit 2)
  else
    match (← get).files.readBytes (toText path) with
    | .ok bytes =>
      try within run path 1 (ofBytes bytes)
      catch
        | .return code => setStatus code
        | stop => throw stop
    | .error _ =>
      complain (ofString ".: cannot open " ++ path ++ ofString ": No such file")
      throw (.exit 2)

/-- Leaves loops, or begins them again: as many as there are, and at least one is asked for. -/
def leaveLoops (name : String) (arguments : List (List Char)) (stop : Nat → Stop) : Eval Unit := do
  let n ← numberArgument name arguments 1
  if n = 0 then
    complain (ofString (name ++ ": Illegal number: 0"))
    throw (.exit 2)
  let loops := (← get).loops
  setStatus 0
  if loops ≠ 0 then throw (stop (min n loops))

/-- Builtins after which a failed redirection ends the script. -/
def specialBuiltins : List String :=
  [":", ".", "break", "continue", "eval", "exec", "exit", "export", "readonly", "return", "set",
    "shift", "trap", "unset"]

def plainBuiltins : List String :=
  ["[", "bg", "cd", "command", "echo", "false", "fg", "getopts", "hash", "jobs", "kill", "local",
    "printf", "pwd", "read", "test", "true", "type", "ulimit", "umask", "wait"]

/-- What a name stands for as a command. -/
def meaning (name : List Char) : Eval (Option (List Char × List Char)) := do
  let s ← get
  let text := String.ofList name
  if reservedWords.contains text then return some (name, ofString " is a shell keyword")
  else if (s.functions.lookup name).isSome then return some (name, ofString " is a shell function")
  else if specialBuiltins.contains text then
    return some (name, ofString " is a special shell builtin")
  else if plainBuiltins.contains text then return some (name, ofString " is a shell builtin")
  else if (programTable.lookup text).isSome || shellNames.contains text then
    let path := ofString "/usr/bin/" ++ name
    return some (path, ofString " is " ++ path)
  else if name.contains '/' && s.files.isFile (toText name) then
    return some (name, ofString " is " ++ name)
  else return none

/-- Tells where commands are, or that they are nowhere. -/
def locate (arguments : List (List Char)) : Eval Unit := do
  setStatus 0
  for name in arguments do
    match ← meaning name with
    | some (found, _) => write 1 (found ++ ['\n'])
    | none => setStatus 127

def describe (arguments : List (List Char)) : Eval Unit := do
  setStatus 0
  for name in arguments do
    match ← meaning name with
    | some (_, text) => write 1 (name ++ text ++ ['\n'])
    | none =>
      write 1 (name ++ ofString ": not found\n")
      setStatus 127

/-- Carries out a builtin whose failure does not end the shell. -/
def gently (body : Eval Unit) : Eval Unit := do
  try body
  catch
    | .exit code => setStatus code
    | stop => throw stop

/-- Programs that run others as they are. -/
def carriers : List String := ["setsid", "nohup", "nice"]

/-- Runs a program that runs another. -/
def carry (run : Statement → Eval Unit) (name : String) : List (List Char) → Eval Unit
  | inner :: rest => forked run (runProgram run inner rest)
  | [] => Programs.failWith 1 (ofString (name ++ ": no command specified"))

/-- The status of a program that took longer than it was given. -/
def overtimeStatus : Nat := 124

/-- Runs a program for a time. Only one that sleeps takes time. -/
def timed (run : Statement → Eval Unit) (arguments : List (List Char)) : Eval Unit := do
  match (Programs.options arguments).2 with
  | limit :: name :: rest =>
    let given := (Programs.duration? limit).getD 0
    let wanted := Programs.totalDuration rest
    if Eval.bareName name = "sleep".toList ∧ 0 < given ∧ given < wanted then
      forked run (Eval.sleep run given)
      setStatus overtimeStatus
    else forked run (runProgram run name rest)
  | _ => Programs.failWith 125 (ofString "timeout: missing operand")

/-- Runs a command that is no function: a builtin or a program. -/
def invokeCommand (run : Statement → Eval Unit) (name : List Char) (arguments : List (List Char)) :
    Eval Unit := do
  let s ← get
  match String.ofList name with
  | ":" => setStatus 0
  | "true" => setStatus 0
  | "false" => setStatus 1
  | "echo" => echo arguments
  | "printf" => printf arguments
  | "exit" => throw (.exit ((← numberArgument "exit" arguments s.status) % 256))
  | "return" => throw (.return ((← numberArgument "return" arguments s.status) % 256))
  | "break" => leaveLoops "break" arguments .leave
  | "continue" => leaveLoops "continue" arguments .again
  | "shift" =>
    let n ← numberArgument "shift" arguments 1
    if s.arguments.length < n then
      complain (ofString "shift: can't shift that many")
      throw (.exit 2)
    set { s with arguments := s.arguments.drop n, status := 0 }
  | "read" => gently (read arguments)
  | "kill" => gently (kill run arguments)
  | "trap" => trap arguments
  | "ulimit" => gently (ulimit arguments)
  | "test" => test "test" arguments
  | "[" =>
    if arguments.getLast? = some [']'] then test "[" arguments.dropLast
    else
      complain (ofString "[: missing ]")
      setStatus 2
  | "export" => eachVariable arguments exportName
  | "readonly" => eachVariable arguments protectName
  | "local" => declareLocal arguments
  | "unset" => unset arguments
  | "set" =>
    setStatus 0
    setOptions arguments
  | "cd" => changeDirectory arguments
  | "pwd" =>
    let path := s.files.here.flatMap fun n ↦ '/' :: n
    write 1 (ofText (if path.isEmpty then ['/'] else path) ++ ['\n'])
    setStatus 0
  | "eval" => within run (ofString "eval") s.line ([' '].intercalate arguments)
  | "." => readFile run arguments
  | "wait" => wait run arguments
  | "umask" =>
    setStatus 0
    if arguments.isEmpty then write 1 (ofString "0022\n")
  | "type" => describe arguments
  | "hash" => setStatus 0
  | "jobs" => setStatus 0
  | "timeout" => timed run arguments
  | text =>
    if carriers.contains text then carry run text arguments
    else forked run (runProgram run name arguments)

/-- Runs a command by its name: a function, a builtin or a program. -/
def invoke (run : Statement → Eval Unit) (name : List Char) (arguments : List (List Char)) :
    Eval Unit := do
  if name = "command".toList then
    match arguments with
    | ['-', 'v'] :: names => locate names
    | ['-', 'V'] :: names => describe names
    | name :: rest => invokeCommand run name rest
    | [] => setStatus 0
  else
    match (← get).functions.lookup name with
    | some body => call run body arguments
    | none => invokeCommand run name arguments

end FlexGate.Shell.Eval
