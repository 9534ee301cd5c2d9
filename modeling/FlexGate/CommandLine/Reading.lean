import FlexGate.CommandLine.Form

/-!
Reading arguments by the form of a command. The values of a switch are checked only when the next
argument shows that there are no more of them, so a fault in a later argument can be found first.
-/

set_option autoImplicit false
set_option relaxedAutoImplicit false

namespace FlexGate.CommandLine

/-- What a value is for: a switch or the operand. -/
structure Slot where
  name : String
  rule : ValueRule
  /-- The least number of values. -/
  least : Nat
  deriving DecidableEq, Repr

/-- A slot whose values are not checked yet. -/
structure Pending where
  slot : Slot
  values : List (List Char) := []
  /-- Whether the next argument may be a value of it. -/
  open? : Bool := false
  deriving DecidableEq, Repr

structure Reading where
  /-- The values that were accepted, by slot; a flag has the empty text. -/
  given : List (String × List Char) := []
  pending : Option Pending := none
  operandSeen : Bool := false
  /-- Whether every further argument is an operand. -/
  onlyOperands : Bool := false
  deriving DecidableEq, Repr

abbrev Result := Except ArgumentFault Reading

namespace Reading

/-- Takes a value over, once for each slot. -/
def accept (r : Reading) (name : String) (value : List Char) : Result :=
  if (r.given.lookup name).isSome then .error .repeated
  else .ok { r with given := (name, value) :: r.given }

/-- Checks the values of a slot and takes them over. A slot without values has the empty text. -/
def acceptValues (r : Reading) (slot : Slot) (values : List (List Char)) : Result :=
  match values with
  | [] => if 0 < slot.least then .error .invalidValue else r.accept slot.name []
  | value :: _ => do
    let r ← r.accept slot.name value
    match slot.rule.check value with
    | some fault => throw fault
    | none => return r

/-- Takes over what is pending. -/
def settle (r : Reading) : Result :=
  match r.pending with
  | none => .ok r
  | some p => acceptValues { r with pending := none } p.slot p.values

def awaitsValue (r : Reading) : Bool := r.pending.any Pending.open?

/-- Adds a value to the slot that awaits one. -/
def addValue (r : Reading) (value : List Char) : Reading :=
  { r with
    pending := r.pending.map fun p ↦ { p with values := p.values ++ [value], open? := false } }

def slotOf (s : Switch) : Slot :=
  match s.arity with
  | .one rule => ⟨s.name, rule, 1⟩
  | .upToOne rule => ⟨s.name, rule, 0⟩
  | _ => ⟨s.name, .text, 0⟩

/-- A switch that takes no value. -/
def setFlag (r : Reading) (s : Switch) : Result := do
  let r ← r.settle
  match s.arity with
  | .help => throw .helpWanted
  | .version => throw .versionWanted
  | _ => r.accept s.name []

/-- A switch that takes a value, which may be attached to it. -/
def takeSwitch (r : Reading) (s : Switch) (attached : Option (List Char)) : Result := do
  let r ← r.settle
  match attached with
  | some value => r.acceptValues (slotOf s) [value]
  | none => return { r with pending := some { slot := slotOf s, open? := true } }

/-- An argument after two dashes, with the value after the first equals sign. -/
def readLong (form : CommandForm) (r : Reading) (text : List Char) : Result :=
  let name := text.takeWhile (· ≠ '=')
  let value :=
    match text.dropWhile (· ≠ '=') with
    | [] => none
    | _ :: value => some value
  match form.long? name with
  | none => .error .unknownArgument
  | some s =>
    if s.arity.takesValue then r.takeSwitch s value
    else if value.isSome then .error .needlessValue
    else r.setFlag s

/-- The text attached to a short switch: what follows it, less an equals sign. -/
def attachedText : List Char → Option (List Char)
  | [] => none
  | '=' :: value => some value
  | value => some value

/-- Switches of one letter each, of which the last may take a value. -/
def readShort (form : CommandForm) (r : Reading) : List Char → Result
  | [] => .ok r
  | c :: rest =>
    match form.short? c with
    | none => .error .unknownArgument
    | some s =>
      if s.arity.takesValue then r.takeSwitch s (attachedText rest)
      else do readShort form (← r.setFlag s) rest

/-- The fault of an operand for which there is no place. -/
def surplus (form : CommandForm) (r : Reading) (text : List Char) : ArgumentFault :=
  if form.name ≠ mainForm.name then .unknownArgument
  else if r.onlyOperands && commandNames.contains (String.ofList text) then .unknownArgument
  else .unknownCommand

def readOperand (form : CommandForm) (r : Reading) (text : List Char) : Result :=
  match form.operand with
  | none => .error (surplus form r text)
  | some (name, rule) =>
    if r.operandSeen then .error (surplus form r text)
    else do
      let r ← r.settle
      return { r with
        operandSeen := true
        pending := some { slot := ⟨name, rule, 1⟩, values := [text] } }

/-- An argument that names no command. -/
def readArgument (form : CommandForm) (r : Reading) (text : List Char) : Result :=
  if r.onlyOperands then readOperand form r text
  else
    match text with
    | ['-', '-'] =>
      .ok { r with
        onlyOperands := true
        pending := r.pending.map fun p ↦ { p with open? := false } }
    | '-' :: '-' :: rest => readLong form r rest
    | '-' :: c :: rest => readShort form r (c :: rest)
    | _ => if r.awaitsValue then .ok (r.addValue text) else readOperand form r text

/-- The values of a command whose arguments have all been read. -/
def finish (form : CommandForm) (r : Reading) : Result := do
  let r ← r.settle
  match form.operand with
  | some (name, _) => if (r.given.lookup name).isNone then throw .missingArgument
  | none => pure ()
  return r

def value? (r : Reading) (name : String) : Option String :=
  (r.given.lookup name).map String.ofList

def has (r : Reading) (name : String) : Bool := (r.given.lookup name).isSome

end Reading

/-- Reads all arguments of a command that has no commands below it. -/
def readCommand (form : CommandForm) : Reading → List (List Char) → Result
  | r, [] => r.finish form
  | r, text :: rest => do readCommand form (← r.readArgument form text) rest

/-- The names after the command that asks for help have to be those of commands. -/
def helpFault : List (List Char) → ArgumentFault
  | [] => .helpWanted
  | [name] => if commandNames.contains (String.ofList name) then .helpWanted else .unknownCommand
  | _ => .unknownCommand

/-- Reads arguments up to the command and all arguments of the command. Gives what was read before
the command, the command, and what was read after it. -/
def readAll : Reading → List (List Char) →
    Except ArgumentFault (Reading × CommandForm × Reading)
  | r, [] => do
    let r ← r.settle
    if r.given.isEmpty then throw .nothingGiven else throw .missingCommand
  | r, text :: rest =>
    let names := !r.onlyOperands && !r.awaitsValue
    if names && String.ofList text = helpCommand then .error (helpFault rest)
    else
      match (if names then commandForms.find? fun f ↦ f.name.toList = text else none) with
      | some form => do
        let inner ← readCommand form {} rest
        return (← r.settle, form, inner)
      | none => do readAll (← r.readArgument mainForm text) rest

end FlexGate.CommandLine
