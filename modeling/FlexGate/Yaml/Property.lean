import FlexGate.Yaml.Token

/-!
Reading of node properties, which are anchors and tags, of aliases and of directives.
-/

set_option autoImplicit false
set_option relaxedAutoImplicit false

namespace FlexGate.Yaml

def isNameChar (c : Char) : Bool :=
  ('0' ≤ c && c ≤ '9') || ('A' ≤ c && c ≤ 'Z') || ('a' ≤ c && c ≤ 'z') || c == '_' || c == '-'

def isDecimalDigit (c : Char) : Bool := '0' ≤ c && c ≤ '9'

namespace Property

/-- Whether an anchor may be followed by these characters. -/
def endsAnchor (rest : List Char) : Bool :=
  endsWord rest || rest.head?.any ['?', ':', ',', ']', '}', '%', '@', '`'].contains

/-- An anchor or an alias, at its first character. -/
def anchor (isAlias : Bool) (p : Place) : Except Fault (Token × Place) :=
  let start := p.mark
  let p := p.next
  let name := p.rest.takeWhile isNameChar
  let q := p.skip name.length
  if name = [] || !endsAnchor q.rest then
    faultIn (if isAlias then "while scanning an alias" else "while scanning an anchor") start
      "did not find expected alphabetic or numeric character" q
  else .ok (⟨if isAlias then .alias name else .anchor name, start, q.mark⟩, q)

def tagContext (isDirective : Bool) : String :=
  if isDirective then "while parsing a %TAG directive" else "while parsing a tag"

/-- The octet that two hexadecimal digits after a percent sign stand for. -/
def octet? : List Char → Option Nat
  | '%' :: a :: b :: _ => do return (← Scalar.hexValue? a) * 16 + (← Scalar.hexValue? b)
  | _ => none

/-- The character that stands for an octet in a tag. A tag is a sequence of octets, which need not
make up characters. -/
def octetChar (octet : Nat) : Char := Char.ofNat octet

/-- How many octets a character takes that starts with the given one. -/
def octetWidth (octet : Nat) : Nat :=
  if octet < 0x80 then 1
  else if 0xC0 ≤ octet ∧ octet < 0xE0 then 2
  else if 0xE0 ≤ octet ∧ octet < 0xF0 then 3
  else if 0xF0 ≤ octet ∧ octet < 0xF8 then 4
  else 0

/-- The further octets of an escaped character. -/
def trailingOctets (context : String) (start : Mark) :
    Nat → List Char → Place → Except Fault (List Char × Place)
  | 0, text, p => .ok (text, p)
  | k + 1, text, p =>
    match octet? p.rest with
    | none => faultIn context start "did not find URI escaped octet" p
    | some o =>
      if o / 64 = 2 then trailingOctets context start k (text ++ [octetChar o]) (p.skip 3)
      else faultIn context start "found an incorrect trailing UTF-8 octet" p

/-- The octets of an escaped character. -/
def escapedOctets (context : String) (start : Mark) (p : Place) :
    Except Fault (List Char × Place) :=
  match octet? p.rest with
  | none => faultIn context start "did not find URI escaped octet" p
  | some o =>
    match octetWidth o with
    | 0 => faultIn context start "found an incorrect leading UTF-8 octet" p
    | width + 1 => trailingOctets context start width [octetChar o] (p.skip 3)

def isUriChar (withFlowMarks : Bool) (c : Char) : Bool :=
  isNameChar c || ";/?:@&=+$.!~*'()%".toList.contains c ||
    (withFlowMarks && [',', '[', ']'].contains c)

def uriFrom (withFlowMarks : Bool) (context : String) (start : Mark) :
    Nat → List Char → Place → Except Fault (List Char × Place)
  | 0, text, p => .ok (text, p)
  | fuel + 1, text, p =>
    match p.rest with
    | [] => .ok (text, p)
    | c :: _ =>
      if !isUriChar withFlowMarks c then .ok (text, p)
      else if c = '%' then
        match escapedOctets context start p with
        | .error e => .error e
        | .ok (octets, q) => uriFrom withFlowMarks context start fuel (text ++ octets) q
      else uriFrom withFlowMarks context start fuel (text ++ [c]) p.next

/-- The rest of a tag, which goes as far as the first octet that is zero. What was read of it as a
handle is its head. -/
def uri (withFlowMarks isDirective : Bool) (head : List Char) (start : Mark) (p : Place) :
    Except Fault (List Char × Place) :=
  match uriFrom withFlowMarks (tagContext isDirective) start (p.rest.length + 1) (head.drop 1) p
  with
  | .error e => .error e
  | .ok (text, q) =>
    if head = [] ∧ q.rest.length = p.rest.length then
      faultIn (tagContext isDirective) start "did not find expected tag URI" q
    else .ok (text.takeWhile (· != '\x00'), q)

/-- Exclamation marks with a name between them, or one with what looks like a name after it. -/
def handle (isDirective : Bool) (start : Mark) (p : Place) : Except Fault (List Char × Place) :=
  if !p.headIs '!' then
    faultIn (if isDirective then "while scanning a tag directive" else "while scanning a tag") start
      "did not find expected '!'" p
  else
    let name := p.next.rest.takeWhile isNameChar
    let q := p.next.skip name.length
    if q.headIs '!' then .ok ('!' :: name ++ ['!'], q.next)
    else if isDirective && !name.isEmpty then
      faultIn "while parsing a tag directive" start "did not find expected '!'" q
    else .ok ('!' :: name, q)

def isFullHandle (handle : List Char) : Bool :=
  decide (1 < handle.length) && handle.getLast? == some '!'

def verbatimTag (start : Mark) (p : Place) : Except Fault (TokenKind × Place) := do
  let (suffix, q) ← uri true false [] start (p.skip 2)
  if q.headIs '>' then return (.tag [] suffix, q.next)
  else faultIn "while scanning a tag" start "did not find the expected '>'" q

def shortTag (start : Mark) (p : Place) : Except Fault (TokenKind × Place) := do
  let (handle, q) ← handle false start p
  if isFullHandle handle then
    let (suffix, q) ← uri false false [] start q
    return (.tag handle suffix, q)
  else
    let (suffix, q) ← uri false false handle start q
    return (if suffix = [] then .tag [] ['!'] else .tag ['!'] suffix, q)

def tag (inFlow : Bool) (p : Place) : Except Fault (Token × Place) := do
  let start := p.mark
  let (kind, q) ←
    if p.rest[1]? = some '<' then verbatimTag start p else shortTag start p
  if endsWord q.rest || (inFlow && q.headIs ',') then return (⟨kind, start, q.mark⟩, q)
  else faultIn "while scanning a tag" start "did not find expected whitespace or line break" q

def versionContext : String := "while scanning a %YAML directive"

def versionNumber (start : Mark) (p : Place) : Except Fault (Nat × Place) :=
  let digits := p.rest.takeWhile isDecimalDigit
  if 9 < digits.length then
    faultIn versionContext start "found extremely long version number" (p.skip 9)
  else if digits = [] then
    faultIn versionContext start "did not find expected version number" p
  else .ok (digits.foldl (fun n c ↦ n * 10 + (c.toNat - '0'.toNat)) 0, p.skip digits.length)

def version (start : Mark) (p : Place) : Except Fault (TokenKind × Place) := do
  let (major, p) ← versionNumber start (p.skipWhile isGap)
  if p.headIs '.' then
    let (minor, p) ← versionNumber start p.next
    return (.version major minor, p)
  else faultIn versionContext start "did not find expected digit or '.' character" p

def tagDirective (start : Mark) (p : Place) : Except Fault (TokenKind × Place) := do
  let (handle, p) ← handle true start (p.skipWhile isGap)
  if !p.atGap then
    faultIn "while scanning a %TAG directive" start "did not find expected whitespace" p
  else
    let (value, p) ← uri true true [] start (p.skipWhile isGap)
    if endsWord p.rest then return (.tagHandle handle value, p)
    else
      faultIn "while scanning a %TAG directive" start
        "did not find expected whitespace or line break" p

def directiveContext : String := "while scanning a directive"

def directiveBody (start : Mark) (name : List Char) (p : Place) :
    Except Fault (TokenKind × Place) :=
  if name = [] then faultIn directiveContext start "could not find expected directive name" p
  else if !endsWord p.rest then
    faultIn directiveContext start "found unexpected non-alphabetical character" p
  else if name = "YAML".toList then version start p
  else if name = "TAG".toList then tagDirective start p
  else faultIn directiveContext start "found unknown directive name" p

/-- A directive, at its percent sign, with the rest of its line. -/
def directive (p : Place) : Except Fault (Token × Place) := do
  let start := p.mark
  let name := p.next.rest.takeWhile isNameChar
  let (kind, p) ← directiveBody start name (p.next.skip name.length)
  let stop := p.mark
  let p := p.skipComment
  if p.rest.isEmpty || p.atBreak then return (⟨kind, start, stop⟩, p.nextLine)
  else faultIn directiveContext start "did not find expected comment or line break" p

end Property

end FlexGate.Yaml
