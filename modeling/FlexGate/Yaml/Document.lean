import FlexGate.Yaml.Node

/-!
The first document of a YAML text: its tree, what the aliases in it stand for, and what comes
after it.
-/

set_option autoImplicit false
set_option relaxedAutoImplicit false

namespace FlexGate.Yaml

structure Document where
  /-- The tree, unless the text holds nothing. -/
  root : Option Node
  /-- A fault after the tree. -/
  fault : Option Fault
  /-- Whether anything but the end of the text follows. -/
  hasMore : Bool

namespace Document

def defaultHandles : List (List Char × List Char) :=
  [(['!'], ['!']), (['!', '!'], "tag:yaml.org,2002:".toList)]

/-- Reads the directives in front of a document. -/
def directives : Nat → Bool → Builder → Except Fault Builder
  | 0, _, b => .ok b
  | fuel + 1, versioned, b =>
    match b.kind with
    | some (.version major minor) =>
      if versioned then .error (.malformed "found duplicate %YAML directive" b.start none)
      else if major = 1 ∧ (minor = 1 ∨ minor = 2) then directives fuel true b.drop
      else .error (.malformed "found incompatible YAML document" b.start none)
    | some (.tagHandle handle uri) =>
      if (b.handles.lookup handle).isSome then
        .error (.malformed "found duplicate %TAG directive" b.start none)
      else directives fuel versioned { b.drop with handles := b.handles ++ [(handle, uri)] }
    | _ => .ok b

def addDefaultHandles (b : Builder) : Builder :=
  { b with handles := b.handles ++ defaultHandles }

/-- Whether tokens other than the end of the text follow, apart from marks that end a document. -/
def continues : List Token → Bool
  | [] => true
  | token :: rest =>
    match token.kind with
    | .documentEnd => continues rest
    | .textEnd => false
    | _ => true

/-- Ends the document after its tree. -/
def close (r : Node × Builder) : Document :=
  let (root, b) := r
  if b.failed then ⟨some root, none, false⟩
  else
    match b.tokens with
    | [] => ⟨some root, b.ending, false⟩
    | tokens => ⟨some root, none, continues tokens⟩

def fuelFor (b : Builder) : Nat := 4 * b.tokens.length + 8

/-- The tree of a document after its opening dashes. -/
def explicit (b : Builder) : Node × Builder :=
  match b.kind with
  | some (.version _ _) => (Builder.empty b.start, b)
  | some (.tagHandle _ _) => (Builder.empty b.start, b)
  | some .documentStart => (Builder.empty b.start, b)
  | some .documentEnd => (Builder.empty b.start, b)
  | some .textEnd => (Builder.empty b.start, b)
  | _ => b.node (fuelFor b) true false

def startExplicit (b : Builder) : Node × Builder :=
  match directives (b.tokens.length + 1) false b with
  | .error fault => b.fail fault
  | .ok b =>
    if b.isAt [.documentStart] then explicit (addDefaultHandles b).drop
    else b.unexpected none "did not find expected <document start>"

def ofTokens (t : Tokens) : Document :=
  let b : Builder := { tokens := t.tokens, ending := t.fault }
  match b.kind with
  | some .textEnd => ⟨none, none, false⟩
  | some .documentStart => close (startExplicit b)
  | some (.version _ _) => close (startExplicit b)
  | some (.tagHandle _ _) => close (startExplicit b)
  | _ => close ((addDefaultHandles b).node (fuelFor b) true false)

/-- Whether a YAML text may hold a character. -/
def isAllowed (c : Char) : Bool :=
  let n := c.toNat
  n == 0x09 || n == 0x0A || n == 0x0D || (0x20 ≤ n && n ≤ 0x7E) || n == 0x85 ||
    (0xA0 ≤ n && n ≤ 0xD7FF) || (0xE000 ≤ n && n ≤ 0xFFFD) || 0x10000 ≤ n

/-- The offset in bytes of the first character that is not allowed. -/
def controlOffset? : Nat → List Char → Option Nat
  | _, [] => none
  | offset, c :: rest =>
    if isAllowed c then controlOffset? (offset + c.utf8Size) rest else some offset

/-- How many bytes of a text are checked at once, before any of them is read. -/
def pieceSize : Nat := 16384

/-- The pieces of a text that are checked at once. There is room for some bytes in the first. -/
def pieces (room : Nat) : List Char → List (List Char)
  | [] => [[]]
  | c :: rest =>
    if c.utf8Size ≤ room then
      match pieces (room - c.utf8Size) rest with
      | [] => [[c]]
      | piece :: more => (c :: piece) :: more
    else
      match pieces (pieceSize - c.utf8Size) rest with
      | [] => [[], [c]]
      | piece :: more => [] :: (c :: piece) :: more

/-- The text before the first piece with a character that is not allowed, and that character. -/
def readable (offset : Nat) : List (List Char) → List Char × Option Fault
  | [] => ([], none)
  | piece :: more =>
    match controlOffset? offset piece with
    | some n => ([], some (.control n))
    | none =>
      let (text, fault) := readable (piece.foldl (fun n c ↦ n + c.utf8Size) offset) more
      (piece ++ text, fault)

def ofText (text : List Char) : Document :=
  let (text, fault) := readable 0 (pieces pieceSize text)
  ofTokens (Tokens.ofText text fault)

/-- What an alias stands for; any other node is itself. -/
def resolve (d : Document) : Node → Node
  | .alias mark number => (d.root.bind (·.find? number)).getD (.alias mark number)
  | node => node

end Document

end FlexGate.Yaml
