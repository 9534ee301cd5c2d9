import FlexGate.FileTree.Access

/-!
Where sources are written, read and removed. A store works on a state of its own; the usual one is
a tree of files.
-/

set_option autoImplicit false
set_option relaxedAutoImplicit false

namespace FlexGate

structure SourceStore (σ : Type) where
  write : Path → String → σ → σ × Option IoFault
  read : Path → σ → Except IoFault String
  remove : Path → σ → σ × Option IoFault

namespace SourceStore

/-- The store that keeps sources in a tree of files. -/
def files : SourceStore FileTree where
  write path text tree := tree.writeText path text
  read path tree := tree.readText path
  remove path tree :=
    match tree.removeFile path with
    | .ok tree => (tree, none)
    | .error fault => (tree, some fault)

/-- A store on a part of a larger state. -/
def onPart {σ τ : Type} (part : τ → σ) (put : σ → τ → τ) (store : SourceStore σ) :
    SourceStore τ where
  write path text s :=
    let (inner, fault) := store.write path text (part s)
    (put inner s, fault)
  read path s := store.read path (part s)
  remove path s :=
    let (inner, fault) := store.remove path (part s)
    (put inner s, fault)

end SourceStore

end FlexGate
