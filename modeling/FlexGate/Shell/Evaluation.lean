import FlexGate.Shell.Builtins

/-!
Evaluating statements. One step of evaluation is a function of the evaluation of what a statement
is made of, and a number bounds how deep the steps go.
-/

set_option autoImplicit false
set_option relaxedAutoImplicit false

namespace FlexGate.Shell

namespace Eval

/-- Evaluates a statement that is only asked whether it succeeds. -/
def ask (run : Statement → Eval Unit) (statement : Statement) : Eval Bool := do
  let before := (← get).asked
  modify fun s ↦ { s with asked := true }
  try
    run statement
    modify fun s ↦ { s with asked := before }
  catch stop =>
    modify fun s ↦ { s with asked := before }
    throw stop
  return (← get).status == 0

def assignAll (run : Statement → Eval Unit) (assignments : List (List Char × Word)) :
    Eval Unit := do
  for (name, value) in assignments do
    setVariable name (← expandText run value)

/-- Sets variables for one command only, so that programs see them. -/
def assignAround (run : Statement → Eval Unit) (assignments : List (List Char × Word))
    (body : Eval Unit) : Eval Unit := do
  if assignments = [] then body
  else
    let before ← get
    let frame := assignments.map fun a ↦ (a.1, before.bindings.lookup a.1)
    assignAll run assignments
    for (name, _) in assignments do exportName name
    let leave : Eval Unit := modify fun s ↦
      { s with bindings := restoreAside frame s.bindings, exported := before.exported }
    try
      body
      leave
    catch stop =>
      leave
      throw stop

/-- Runs a program in place of the shell, or keeps redirections if none is named. -/
def replace (run : Statement → Eval Unit) (c : SimpleCommand) (fields : List (List Char)) :
    Eval Unit := do
  if !(← redirectAll run c.redirections) then throw (.exit 2)
  match fields with
  | [] =>
    setStatus 0
    assignAll run c.assignments
  | name :: arguments =>
    modify fun s ↦ { s with traps := kept s.traps, readIn := some (ofString "exec") }
    assignAround run c.assignments (runProgram run name arguments)
    throw (.exit (← get).status)

/-- Shows a command before it is carried out, if that is wanted. -/
def trace (assignments : List (List Char × List Char)) (fields : List (List Char)) : Eval Unit := do
  let s ← get
  if s.traces then
    let front := assignments.map fun (name, value) ↦ name ++ '=' :: value
    write 2 (ofString "+ " ++ [' '].intercalate (front ++ fields) ++ ['\n'])

/-- Commands whose arguments are not cut if they are assignments. -/
def declares (word : Word) : Bool :=
  [some "export", some "readonly", some "local"].contains ((plainText? word).map String.ofList)

def expandCommand (run : Statement → Eval Unit) : List Word → Eval (List (List Char))
  | [] => return []
  | first :: rest => do
    let front ← expandWords run [first]
    if declares first then
      let fields ← rest.mapM fun word ↦
        if (assignment? word).isSome then return [← expandText run word] else expandWords run [word]
      return front ++ fields.flatten
    else return front ++ (← expandWords run rest)

/-- Ends the shell if it is strict and a command failed that was not only asked. -/
def checkStrict : Eval Unit := do
  let s ← get
  if s.strict && !s.asked && s.status != 0 then throw (.exit s.status)

def runSimple (run : Statement → Eval Unit) (c : SimpleCommand) : Eval Unit := do
  modify fun s ↦ { s with line := c.line }
  match ← expandCommand run c.words with
  | [] =>
    let before := (← get).status
    setStatus 0
    let ok ← withChannels (redirectAll run c.redirections)
    assignAll run c.assignments
    let values := (← get).bindings
    trace (c.assignments.map fun a ↦ (a.1, (values.lookup a.1).getD [])) []
    if !ok then setStatus 2
    else if c.assignments = [] ∧ c.redirections = [] ∧ c.words = [] then setStatus before
  | name :: arguments =>
    trace [] (name :: arguments)
    if name = "exec".toList then replace run c arguments
    else
      withChannels do
        if ← redirectAll run c.redirections then
          if specialBuiltins.contains (String.ofList name) then
            assignAll run c.assignments
            invoke run name arguments
          else assignAround run c.assignments (invoke run name arguments)
        else
          setStatus 2
          if specialBuiltins.contains (String.ofList name) then throw (.exit 2)
  checkStrict

/-- Runs the stages of a pipeline, each on what the one before wrote. -/
def runStages (run : Statement → Eval Unit) : List Statement → Eval Unit
  | [] => pure ()
  | [last] => forked run (run last)
  | stage :: rest => do
    let text ← captured (forked run (run stage))
    let source ← newSource text
    withChannels do
      connect 0 source
      runStages run rest

/-- Runs the body of a loop. Gives whether the loop goes on. -/
def runBody (run : Statement → Eval Unit) (body : Statement) : Eval Bool := do
  let loops := (← get).loops
  modify fun s ↦ { s with loops := loops + 1 }
  let leave : Eval Unit := modify fun s ↦ { s with loops := loops }
  try
    run body
    leave
    return true
  catch stop =>
    leave
    match stop with
    | .leave n => if 1 < n then throw (.leave (n - 1)) else return false
    | .again n => if 1 < n then throw (.again (n - 1)) else return true
    | stop => throw stop

def runEach (run : Statement → Eval Unit) (name : List Char) (body : Statement) :
    List (List Char) → Eval Unit
  | [] => pure ()
  | value :: rest => do
    setVariable name value
    if ← runBody run body then runEach run name body rest

def fitsAny (run : Statement → Eval Unit) (subject : List Char) : List Word → Eval Bool
  | [] => return false
  | word :: rest => do
    if Wildcard.fits (← expandPattern run word) subject then return true
    else fitsAny run subject rest

def runCases (run : Statement → Eval Unit) (subject : List Char) :
    List (List Word × Statement) → Eval Unit
  | [] => setStatus 0
  | (words, body) :: rest => do
    if ← fitsAny run subject words then
      setStatus 0
      run body
    else runCases run subject rest

/-- One step of evaluation. -/
def step (run : Statement → Eval Unit) : Statement → Eval Unit
  | .nothing => pure ()
  | .simple c => runSimple run c
  | .pipe stages => do
    runStages run stages
    checkStrict
  | .negate body => do setStatus (if ← ask run body then 1 else 0)
  | .both a b => do if ← ask run a then run b
  | .either a b => do if !(← ask run a) then run b
  | .chain a b => do
    run a
    run b
  | .background body => do
    let s ← get
    let job : Job :=
      { process := s.nextProcess
        body := body
        bindings := s.bindings
        functions := s.functions
        arguments := s.arguments
        channels := update 0 .nowhere s.channels
        launched := s.clock
        owner := s.process }
    set { s with nextProcess := s.nextProcess + 1, jobs := s.jobs ++ [job] }
    runJobs run s.clock [job]
    setStatus 0
  | .choose condition body otherwise => do
    if ← ask run condition then run body
    else
      setStatus 0
      run otherwise
  | .loop wanted condition body => do
    countTurn run
    if (← ask run condition) == wanted then
      if ← runBody run body then run (.loop wanted condition body)
    else setStatus 0
  | .each name words body => do
    let values ← match words with
      | some words => expandWords run words
      | none => pure (← get).arguments
    setStatus 0
    runEach run name body values
  | .select subject cases => do runCases run (← expandText run subject) cases
  | .subshell line body => do
    modify fun s ↦ { s with line := line }
    forked run (run body)
    checkStrict
  | .redirected line body redirections => do
    modify fun s ↦ { s with line := line }
    withChannels do
      if ← redirectAll run redirections then run body else setStatus 2
  | .define name body =>
    modify fun s ↦
      { s with functions := (name, body) :: s.functions.filter (fun f ↦ f.1 ≠ name), status := 0 }
  | .script line text => do
    match Reader.nextLine ⟨text, line + text.count '\n'⟩ with
    | .error fault =>
      modify fun s ↦ { s with line := fault.line }
      complainWithin (ofString ("Syntax error: " ++ fault.message))
      throw (.exit 2)
    | .ok none => pure ()
    | .ok (some (statement, rest)) =>
      run statement
      run (.script rest.line rest.text)

/-- Evaluates a statement by steps that go no deeper than a number. -/
def evaluate : Nat → Statement → Eval Unit
  | 0, _ => throw (.exit 2)
  | fuel + 1, statement => step (evaluate fuel) statement

end Eval

/-- How deep the steps of an evaluation may go. -/
def depthLimit : Nat := 10000000

/-- Runs a program in a session that is new, and gives how it ends. -/
def runCommand (s : Session) (name : List Char) (arguments : List (List Char)) :
    Session × ExitStatus :=
  match (Eval.runProgram (Eval.evaluate depthLimit) name arguments).run.run s with
  | (.ok (), s) => (s, .exited s.status)
  | (.error (.killed signal _), s) => (s, .signalled signal)
  | (.error _, s) => (s, .exited s.status)

/-- What a session wrote. -/
def Session.output (s : Session) : CapturedOutput :=
  ⟨toBytes (Eval.pieces s.stdout), toBytes (Eval.pieces s.stderr)⟩

end FlexGate.Shell
