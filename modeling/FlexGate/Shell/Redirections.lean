import FlexGate.Shell.Expansion
import FlexGate.Shell.Programs
import FlexGate.Shell.Test

/-!
Carrying out redirections: channels are connected to files, to other channels or to a text.
-/

set_option autoImplicit false
set_option relaxedAutoImplicit false

namespace FlexGate.Shell.Eval

/-- The words for a failure to open a file. -/
def openReason (creating : Bool) (fault : IoFault) : String :=
  match fault with
  | .notFound => if creating then "Directory nonexistent" else "No such file"
  | fault => Programs.reason fault

def devNull : Path := Test.devNull

/-- Connects a channel to a file that is opened in a way. The message tells why it could not be. -/
def openFile (channel : Nat) (path : List Char) (creating : Bool)
    (opened : FileTree → Path → Except IoFault FileTree) : Eval Bool := do
  let s ← get
  let text := toText path
  if text = devNull then
    connect channel .nowhere
    return true
  match opened s.files text with
  | .error fault =>
    complainWithin (ofString (if creating then "cannot create " else "cannot open ") ++ path ++
      ofString (": " ++ openReason creating fault))
    return false
  | .ok files =>
    set { s with files := files }
    match files.find text with
    | .ok (place, _) =>
      connect channel (.file place)
      return true
    | .error _ => return false

def appendable (files : FileTree) (path : Path) : Except IoFault FileTree :=
  match files.readBytes path with
  | .ok _ => .ok files
  | .error _ => files.writeBytes path []

section

variable (run : Statement → Eval Unit)

/-- Carries out a redirection, if that is possible. -/
def redirect (r : Redirection) : Eval Bool := do
  let target ← expandText run r.target
  match r.kind with
  | .write => openFile r.channel target true fun files path ↦ files.writeBytes path []
  | .append => openFile r.channel target true appendable
  | .text =>
    connect r.channel (← newSource target)
    return true
  | .read =>
    if toText target = devNull then
      connect r.channel .nowhere
      return true
    match (← get).files.readBytes (toText target) with
    | .ok bytes =>
      connect r.channel (← newSource (ofBytes bytes))
      return true
    | .error fault =>
      complainWithin
        (ofString "cannot open " ++ target ++ ofString (": " ++ openReason false fault))
      return false
  | .duplicate =>
    let s ← get
    if target = ['-'] then
      set { s with channels := s.channels.filter fun c ↦ c.1 ≠ r.channel }
      return true
    match s.channels.lookup ((String.ofList target).toNat?.getD 99) with
    | some channel =>
      connect r.channel channel
      return true
    | none =>
      complainWithin (target ++ ofString ": Bad file descriptor")
      return false

def redirectAll : List Redirection → Eval Bool
  | [] => return true
  | r :: rest => do if ← redirect run r then redirectAll rest else return false

end

end FlexGate.Shell.Eval
