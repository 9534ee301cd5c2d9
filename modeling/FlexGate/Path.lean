/-!
Paths as texts. A path is read as names between slashes; empty names and the name of a single
point count only where they say something. Joining and cutting keep the text as it was written.
-/

set_option autoImplicit false
set_option relaxedAutoImplicit false

namespace FlexGate

/-- The text of a path. -/
abbrev Path := List Char

namespace Path

/-- The texts between slashes, empty ones included. -/
def segments : Path → List (List Char)
  | [] => [[]]
  | c :: rest =>
    if c = '/' then [] :: segments rest
    else
      match segments rest with
      | [] => [[c]]
      | first :: others => (c :: first) :: others

def isAbsolute (p : Path) : Bool := p.head? == some '/'

/-- Whether a segment says nothing: it is empty or a single point. -/
def isVoid (segment : List Char) : Bool := segment == [] || segment == ['.']

inductive Component
  | root
  | here
  | parent
  | named (name : List Char)
  deriving DecidableEq, Repr

def Component.ofSegment (segment : List Char) : Component :=
  if segment = ['.', '.'] then .parent else .named segment

/-- A single point is a component only at the start of a relative path. -/
def components (p : Path) : List Component :=
  let named := ((segments p).filter fun s ↦ !isVoid s).map Component.ofSegment
  if isAbsolute p then .root :: named
  else if (segments p).head? = some ['.'] then .here :: named
  else named

/-- The path reached from a base. An absolute path does not depend on the base. -/
def join (base p : Path) : Path :=
  if isAbsolute p then p
  else if base = [] ∨ base.getLast? = some '/' then base ++ p
  else base ++ '/' :: p

/-- The name that the path ends in, unless it ends in the root or in a step up. -/
def fileName? (p : Path) : Option (List Char) :=
  match (components p).getLast? with
  | some (.named name) => some name
  | _ => none

/-- What follows the last point of a name, if something stands before that point. -/
def extensionOf? (name : List Char) : Option (List Char) :=
  if name = ['.', '.'] then none
  else
    let after := name.reverse.takeWhile (· ≠ '.')
    match name.reverse.dropWhile (· ≠ '.') with
    | [] => none
    | [_] => none
    | _ :: _ :: _ => some after.reverse

def extension? (p : Path) : Option (List Char) := (fileName? p).bind extensionOf?

/-- The segments of a path without void ones at the end. The first segment of an absolute path and a
point that starts a relative path are not void. -/
def dropVoidEnd : List (List Char) → List (List Char)
  | [] => []
  | first :: rest => first :: (rest.reverse.dropWhile isVoid).reverse

/-- The path of the directory that holds what the path names. -/
def parent? (p : Path) : Option Path :=
  match dropVoidEnd (segments p) with
  | [] => none
  | [only] => if only.isEmpty then none else some []
  | first :: rest =>
    match dropVoidEnd (first :: rest.dropLast) with
    | [[]] => some ['/']
    | kept => some (['/'].intercalate kept)

theorem join_of_isAbsolute {base p : Path} (h : p.isAbsolute = true) : join base p = p := by
  simp [join, h]

theorem segments_ne_nil (p : Path) : segments p ≠ [] := by
  cases p with
  | nil => simp [segments]
  | cons c rest =>
    simp only [segments]
    split
    · simp
    · split <;> simp

end Path

end FlexGate
