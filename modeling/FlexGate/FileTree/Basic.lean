import FlexGate.Path

/-!
A tree of files and directories. A place in the tree is the list of names that lead to it from the
root; the root is always a directory. A tree also holds the place that relative paths start from.
-/

set_option autoImplicit false
set_option relaxedAutoImplicit false

namespace FlexGate

inductive FileNode
  | file (bytes : List UInt8) (executable : Bool)
  | directory
  deriving DecidableEq, Repr

abbrev Place := List (List Char)

/-- Why an access to a file failed. -/
inductive IoFault
  | notFound
  | alreadyExists
  | notADirectory
  | isADirectory
  | permissionDenied
  | nameTooLong
  | invalidPath
  | invalidText
  | other (reason : String)
  deriving DecidableEq, Repr

namespace IoFault

def message : IoFault → String
  | .notFound => "No such file or directory (os error 2)"
  | .permissionDenied => "Permission denied (os error 13)"
  | .alreadyExists => "File exists (os error 17)"
  | .notADirectory => "Not a directory (os error 20)"
  | .isADirectory => "Is a directory (os error 21)"
  | .nameTooLong => "File name too long (os error 36)"
  | .invalidPath => "file name contained an unexpected NUL byte"
  | .invalidText => "stream did not contain valid UTF-8"
  | .other reason => reason

end IoFault

structure FileTree where
  nodes : List (Place × FileNode) := []
  /-- Where relative paths start. -/
  here : Place := []
  deriving DecidableEq, Repr

namespace FileTree

def get? (t : FileTree) (place : Place) : Option FileNode :=
  if place = [] then some .directory else t.nodes.lookup place

def putNode (place : Place) (node : FileNode) : List (Place × FileNode) → List (Place × FileNode)
  | [] => [(place, node)]
  | (p, n) :: rest =>
    if p = place then (place, node) :: rest else (p, n) :: putNode place node rest

/-- Replaces what is at a place, or adds it. -/
def put (t : FileTree) (place : Place) (node : FileNode) : FileTree :=
  { t with nodes := putNode place node t.nodes }

def erase (t : FileTree) (place : Place) : FileTree :=
  { t with nodes := t.nodes.filter fun entry ↦ entry.1 ≠ place }

theorem lookup_putNode (place q : Place) (node : FileNode) (nodes : List (Place × FileNode)) :
    (putNode place node nodes).lookup q = if q = place then some node else nodes.lookup q := by
  induction nodes with
  | nil =>
    by_cases h : q = place
    · simp [putNode, h]
    · have : (q == place) = false := by simpa using h
      simp [putNode, List.lookup_cons, h, this]
  | cons entry rest ih =>
    obtain ⟨p, n⟩ := entry
    by_cases hp : p = place
    · subst hp
      by_cases h : q = p
      · simp [putNode, h]
      · have : (q == p) = false := by simpa using h
        simp [putNode, List.lookup_cons, h, this]
    · by_cases h : q = p
      · subst h
        simp [putNode, hp]
      · have : (q == p) = false := by simpa using h
        simp [putNode, hp, List.lookup_cons, this, ih]

theorem get?_put (t : FileTree) (place q : Place) (node : FileNode) (h : place ≠ []) :
    (t.put place node).get? q = if q = place then some node else t.get? q := by
  by_cases hq : q = []
  · subst hq
    simp [get?, Ne.symm h]
  · simp [get?, hq, put, lookup_putNode]

theorem lookup_filter_ne (place q : Place) (nodes : List (Place × FileNode)) :
    (nodes.filter fun entry ↦ entry.1 ≠ place).lookup q =
      if q = place then none else nodes.lookup q := by
  induction nodes with
  | nil => simp
  | cons entry rest ih =>
    obtain ⟨p, n⟩ := entry
    by_cases hp : p = place
    · subst hp
      by_cases h : q = p
      · subst h
        simpa using ih
      · have : (q == p) = false := by simpa using h
        simpa [List.lookup_cons, h, this] using ih
    · by_cases h : q = p
      · subst h
        simp [hp]
      · have : (q == p) = false := by simpa using h
        simpa [hp, List.lookup_cons, this] using ih

theorem get?_erase (t : FileTree) (place q : Place) (h : place ≠ []) :
    (t.erase place).get? q = if q = place then none else t.get? q := by
  by_cases hq : q = []
  · subst hq
    simp [get?, Ne.symm h]
  · simp only [get?, hq, if_false, erase]
    exact lookup_filter_ne place q t.nodes

end FileTree

end FlexGate
