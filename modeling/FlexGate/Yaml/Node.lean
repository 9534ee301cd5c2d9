import FlexGate.Text.Quoted
import FlexGate.Yaml.TokenReader

/-!
The tree of a YAML text. Reading stops at the first fault, which stays in the tree where it was
met, so that what stands before it can still be judged.
-/

set_option autoImplicit false
set_option relaxedAutoImplicit false

namespace FlexGate.Yaml

/-- The entries of a mapping are its keys and values in turn. A node with an anchor has the number
of the anchor, by which an alias names it. -/
inductive Node
  | scalar (mark : Mark) (anchor : Option Nat) (tag : Option String) (style : ScalarStyle)
      (text : String)
  | sequence (mark : Mark) (anchor : Option Nat) (items : List Node)
  | mapping (mark : Mark) (anchor : Option Nat) (entries : List Node)
  | alias (mark : Mark) (number : Nat)
  | broken (fault : Fault)
  deriving Repr

namespace Node

mutual

/-- The fault that ended the reading, if that happened within the node. -/
def fault? : Node → Option Fault
  | .broken fault => some fault
  | .sequence _ _ items => faultIn? items
  | .mapping _ _ entries => faultIn? entries
  | _ => none

def faultIn? : List Node → Option Fault
  | [] => none
  | node :: rest =>
    match node.fault? with
    | some fault => some fault
    | none => faultIn? rest

end

def anchor? : Node → Option Nat
  | .scalar _ anchor _ _ _ => anchor
  | .sequence _ anchor _ => anchor
  | .mapping _ anchor _ => anchor
  | _ => none

mutual

/-- The node with an anchor of the given number; of several, the one that starts last. -/
def find? (number : Nat) (node : Node) : Option Node :=
  let within := match node with
    | .sequence _ _ items => findIn? number items
    | .mapping _ _ entries => findIn? number entries
    | _ => none
  within.or (if node.anchor? = some number then some node else none)

def findIn? (number : Nat) : List Node → Option Node
  | [] => none
  | node :: rest => (findIn? number rest).or (node.find? number)

end

end Node

/-- The state of building a tree from tokens. -/
structure Builder where
  tokens : List Token
  /-- What is wrong after the last token. -/
  ending : Option Fault
  handles : List (List Char × List Char) := []
  /-- The names of the anchors seen, each with the number that it has now. -/
  anchors : List (List Char × Nat) := []
  failed : Bool := false

namespace Builder

def kind (b : Builder) : Option TokenKind := b.tokens.head?.map Token.kind

def start (b : Builder) : Mark := (b.tokens.head?.map Token.start).getD {}

def stop (b : Builder) : Mark := (b.tokens.head?.map Token.stop).getD {}

def isAt (kinds : List TokenKind) (b : Builder) : Bool :=
  match b.kind with
  | some kind => kinds.contains kind
  | none => false

def drop (b : Builder) : Builder := { b with tokens := b.tokens.drop 1 }

/-- Ends the building with a fault: the one met when the tokens ran out, or else the given one. -/
def fail (fault : Fault) (b : Builder) : Node × Builder :=
  let fault := if b.tokens.isEmpty then b.ending.getD fault else fault
  (.broken fault, { b with failed := true, tokens := [], ending := some fault })

def unexpected (context : Option (String × Mark)) (problem : String) (b : Builder) :
    Node × Builder :=
  b.fail (.malformed problem b.start context)

def empty (mark : Mark) : Node := .scalar mark none none .plain ""

/-- The anchor and the tag in front of a node. -/
structure Properties where
  anchor : Option (List Char) := none
  tag : Option (List Char × List Char × Mark) := none
  start : Option Mark := none
  stop : Option Mark := none

def properties : Nat → Properties → Builder → Properties × Builder
  | 0, props, b => (props, b)
  | fuel + 1, props, b =>
    let started := some (props.start.getD b.start)
    match b.kind with
    | some (.anchor name) =>
      if props.anchor.isNone then
        properties fuel
          { props with anchor := some name, start := started, stop := some b.stop } b.drop
      else (props, b)
    | some (.tag handle suffix) =>
      if props.tag.isNone then
        properties fuel
          { props with
            tag := some (handle, suffix, b.start), start := started, stop := some b.stop } b.drop
      else (props, b)
    | _ => (props, b)

/-- The full tag, or nothing if its handle is unknown. -/
def fullTag? (b : Builder) (handle suffix : List Char) : Option (List Char) :=
  if handle = [] then some suffix else (b.handles.lookup handle).map (· ++ suffix)

/-- Numbers an anchor with how many names were seen before it. A name that is used again does not
count again, so that two anchors can get one number. -/
def noteAnchor (anchor : Option (List Char)) (b : Builder) : Option Nat × Builder :=
  match anchor with
  | none => (none, b)
  | some name =>
    let number := b.anchors.length
    let others := b.anchors.filter fun a ↦ a.1 != name
    (some number, { b with anchors := (name, number) :: others })

def aliasNode (name : List Char) (b : Builder) : Node × Builder :=
  match b.anchors.lookup name with
  | some number => (.alias b.start number, b.drop)
  | none => b.fail (.unknownAnchor b.start)

def asSequence (mark : Mark) (number : Option Nat) (r : List Node × Builder) : Node × Builder :=
  (.sequence mark number r.1, r.2)

def asMapping (mark : Mark) (number : Option Nat) (r : List Node × Builder) : Node × Builder :=
  (.mapping mark number r.1, r.2)

/-- Puts a node in front of what is read after it, unless the reading ended within it. -/
def andThen (first : Node × Builder) (rest : Builder → List Node × Builder) :
    List Node × Builder :=
  if first.2.failed then ([first.1], first.2)
  else
    let (nodes, b) := rest first.2
    (first.1 :: nodes, b)

/-- A list of nodes that ends with a fault. -/
def ended (r : Node × Builder) : List Node × Builder := ([r.1], r.2)

mutual

def node (fuel : Nat) (inBlock indentless : Bool) (b : Builder) : Node × Builder :=
  match fuel with
  | 0 => b.fail (.malformed "the text is too long" b.start none)
  | fuel + 1 =>
    match b.kind with
    | some (.alias name) => b.aliasNode name
    | _ =>
      let (props, b) := properties 2 {} b
      let mark := props.start.getD b.start
      match props.tag with
      | none => content fuel inBlock indentless mark props none b
      | some (handle, suffix, tagMark) =>
        match b.fullTag? handle suffix with
        | some tag => content fuel inBlock indentless mark props (some tag) b
        | none =>
          b.fail (.malformed "found undefined tag handle" tagMark
            (some ("while parsing a node", mark)))

/-- What follows the properties of a node. -/
def content (fuel : Nat) (inBlock indentless : Bool) (mark : Mark) (props : Properties)
    (tag : Option (List Char)) (b : Builder) : Node × Builder :=
  match fuel with
  | 0 => b.fail (.malformed "the text is too long" b.start none)
  | fuel + 1 =>
    let number := (b.noteAnchor props.anchor).1
    let noted := (b.noteAnchor props.anchor).2
    match b.kind with
    | some .blockEntry =>
      if indentless then asSequence mark number (indentlessItems fuel noted)
      else otherwise number mark inBlock props tag noted
    | some (.scalar style text) =>
      (.scalar mark number (tag.map String.ofList) style (String.ofList text), noted.drop)
    | some .flowSequence =>
      asSequence mark number (flowItems fuel noted.start true noted.drop)
    | some .flowMapping =>
      asMapping mark number (flowEntries fuel noted.start true noted.drop)
    | some .blockSequence =>
      if inBlock then asSequence mark number (blockItems fuel noted.start noted.drop)
      else otherwise number mark inBlock props tag noted
    | some .blockMapping =>
      if inBlock then asMapping mark number (blockEntries fuel noted.start noted.drop)
      else otherwise number mark inBlock props tag noted
    | _ => otherwise number mark inBlock props tag noted

/-- A node without content, which needs properties. -/
def otherwise (number : Option Nat) (mark : Mark) (inBlock : Bool) (props : Properties)
    (tag : Option (List Char)) (b : Builder) : Node × Builder :=
  if b.tokens.isEmpty then b.unexpected none ""
  else if props.stop.isSome then
    (.scalar mark number (tag.map String.ofList) .plain "", b)
  else
    b.unexpected
      (some (if inBlock then "while parsing a block node" else "while parsing a flow node", mark))
      "did not find expected node content"

def blockItems (fuel : Nat) (opening : Mark) (b : Builder) : List Node × Builder :=
  match fuel with
  | 0 => ended (b.fail (.malformed "the text is too long" b.start none))
  | fuel + 1 =>
    match b.kind with
    | some .blockEntry =>
      let mark := b.stop
      let b := b.drop
      let item := if b.isAt [.blockEntry, .blockEnd] then (empty mark, b)
        else node fuel true false b
      andThen item (blockItems fuel opening)
    | some .blockEnd => ([], b.drop)
    | _ =>
      ended (b.unexpected (some ("while parsing a block collection", opening))
        "did not find expected '-' indicator")

def indentlessItems (fuel : Nat) (b : Builder) : List Node × Builder :=
  match fuel with
  | 0 => ended (b.fail (.malformed "the text is too long" b.start none))
  | fuel + 1 =>
    match b.kind with
    | some .blockEntry =>
      let mark := b.stop
      let b := b.drop
      let item := if b.isAt [.blockEntry, .key, .value, .blockEnd] then (empty mark, b)
        else node fuel true false b
      andThen item (indentlessItems fuel)
    | some _ => ([], b)
    | none => ended (b.unexpected none "")

def blockEntries (fuel : Nat) (opening : Mark) (b : Builder) : List Node × Builder :=
  match fuel with
  | 0 => ended (b.fail (.malformed "the text is too long" b.start none))
  | fuel + 1 =>
    match b.kind with
    | some .key =>
      let mark := b.stop
      let b := b.drop
      let key := if b.isAt [.key, .value, .blockEnd] then (empty mark, b)
        else node fuel true true b
      andThen key (blockValue fuel opening)
    | some .blockEnd => ([], b.drop)
    | _ =>
      ended (b.unexpected (some ("while parsing a block mapping", opening))
        "did not find expected key")

def blockValue (fuel : Nat) (opening : Mark) (b : Builder) : List Node × Builder :=
  match fuel with
  | 0 => ended (b.fail (.malformed "the text is too long" b.start none))
  | fuel + 1 =>
    match b.kind with
    | some .value =>
      let mark := b.stop
      let b := b.drop
      let value := if b.isAt [.key, .value, .blockEnd] then (empty mark, b)
        else node fuel true true b
      andThen value (blockEntries fuel opening)
    | some _ => andThen (empty b.start, b) (blockEntries fuel opening)
    | none => ended (b.unexpected none "")

def flowItems (fuel : Nat) (opening : Mark) (first : Bool) (b : Builder) :
    List Node × Builder :=
  match fuel with
  | 0 => ended (b.fail (.malformed "the text is too long" b.start none))
  | fuel + 1 =>
    if b.isAt [.flowSequenceEnd] then ([], b.drop)
    else if first || b.isAt [.flowEntry] then
      let b := if first then b else b.drop
      match b.kind with
      | some .flowSequenceEnd => ([], b.drop)
      | some .key =>
        andThen (asMapping b.start none (pair fuel b.drop)) (flowItems fuel opening false)
      | _ => andThen (node fuel false false b) (flowItems fuel opening false)
    else
      ended (b.unexpected (some ("while parsing a flow sequence", opening))
        "did not find expected ',' or ']'")

/-- A single key with its value among the items of a flow sequence. -/
def pair (fuel : Nat) (b : Builder) : List Node × Builder :=
  match fuel with
  | 0 => ended (b.fail (.malformed "the text is too long" b.start none))
  | fuel + 1 =>
    let key := if b.isAt [.value, .flowEntry, .flowSequenceEnd] then (empty b.stop, b.drop)
      else node fuel false false b
    andThen key (pairValue fuel)

def pairValue (fuel : Nat) (b : Builder) : List Node × Builder :=
  match fuel with
  | 0 => ended (b.fail (.malformed "the text is too long" b.start none))
  | fuel + 1 =>
    match b.kind with
    | some .value =>
      let b := b.drop
      if b.isAt [.flowEntry, .flowSequenceEnd] then ([empty b.start], b)
      else andThen (node fuel false false b) fun b ↦ ([], b)
    | some _ => ([empty b.start], b)
    | none => ended (b.unexpected none "")

def flowEntries (fuel : Nat) (opening : Mark) (first : Bool) (b : Builder) :
    List Node × Builder :=
  match fuel with
  | 0 => ended (b.fail (.malformed "the text is too long" b.start none))
  | fuel + 1 =>
    if b.isAt [.flowMappingEnd] then ([], b.drop)
    else if first || b.isAt [.flowEntry] then
      let b := if first then b else b.drop
      match b.kind with
      | some .flowMappingEnd => ([], b.drop)
      | some .key =>
        let b := b.drop
        let key := if b.isAt [.value, .flowEntry, .flowMappingEnd] then (empty b.start, b)
          else node fuel false false b
        andThen key (flowValue fuel opening)
      | _ =>
        andThen (node fuel false false b) fun b ↦
          match b.kind with
          | none => ended (b.unexpected none "")
          | some _ => andThen (empty b.start, b) (flowEntries fuel opening false)
    else
      ended (b.unexpected (some ("while parsing a flow mapping", opening))
        ("did not find expected ',' or " ++ Text.inQuotes '}'))

def flowValue (fuel : Nat) (opening : Mark) (b : Builder) : List Node × Builder :=
  match fuel with
  | 0 => ended (b.fail (.malformed "the text is too long" b.start none))
  | fuel + 1 =>
    match b.kind with
    | some .value =>
      let b := b.drop
      let value := if b.isAt [.flowEntry, .flowMappingEnd] then (empty b.start, b)
        else node fuel false false b
      andThen value (flowEntries fuel opening false)
    | some _ => andThen (empty b.start, b) (flowEntries fuel opening false)
    | none => ended (b.unexpected none "")

end

end Builder

end FlexGate.Yaml
