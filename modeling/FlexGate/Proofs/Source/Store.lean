import FlexGate.Proofs.FileTree.Parents
import FlexGate.Source.Materialized

/-!
# Stores that keep files

What is relied on of a store is said by what its paths hold (`Keeps`): a text that was written is
held, a write that failed made no file, and a file that was to be removed is gone. The store on a
tree of files is such a store (`keeps_files`), and so is one on a part of a larger state
(`Keeps.onPart`).
-/

set_option autoImplicit false
set_option relaxedAutoImplicit false

namespace FlexGate.SourceStore

variable {σ τ : Type}

/-- What holds of a store, given the bytes that a path holds in a state if it holds a file. -/
structure Keeps (store : SourceStore σ) (held : Path → σ → Option (List UInt8)) : Prop where
  held_of_write : ∀ path text s, (store.write path text s).2 = none →
    held path (store.write path text s).1 = some (Text.Utf8.encoded text)
  held_of_failed_write : ∀ path text s, (store.write path text s).2 ≠ none →
    held path s = none → held path (store.write path text s).1 = none
  held_of_remove : ∀ path s, held path s ≠ none → held path (store.remove path s).1 = none

/-- The bytes of the file that a path leads to in a tree. -/
def heldIn (path : Path) (tree : FileTree) : Option (List UInt8) := (tree.readBytes path).toOption

theorem heldIn_eq_some_iff {path : Path} {tree : FileTree} {bytes : List UInt8} :
    heldIn path tree = some bytes ↔ tree.readBytes path = .ok bytes := by
  rw [heldIn]
  cases tree.readBytes path <;> simp [Except.toOption]

theorem heldIn_eq_none_iff {path : Path} {tree : FileTree} :
    heldIn path tree = none ↔ ∀ bytes, tree.readBytes path ≠ .ok bytes := by
  rw [heldIn]
  cases tree.readBytes path <;> simp [Except.toOption]

theorem keeps_files : files.Keeps heldIn where
  held_of_write := by
    intro path text tree hwrite
    exact heldIn_eq_some_iff.mpr (FileTree.readBytes_of_writeText (Prod.ext rfl hwrite))
  held_of_failed_write := by
    intro path text tree hwrite _
    rw [heldIn_eq_none_iff]
    obtain ⟨fault, hfault⟩ := Option.ne_none_iff_exists'.mp hwrite
    exact FileTree.readBytes_of_failed_writeText (Prod.ext rfl hfault)
  held_of_remove := by
    intro path tree hheld
    obtain ⟨bytes, hbytes⟩ := Option.ne_none_iff_exists'.mp hheld
    obtain ⟨q, executable, hfind⟩ := FileTree.readBytes_eq_ok_iff.mp (heldIn_eq_some_iff.mp hbytes)
    have hremove := FileTree.removeFile_of_find hfind
    rw [heldIn_eq_none_iff]
    intro left
    have hnot := FileTree.readBytes_removeFile hremove left
    simpa [files, hremove] using hnot

theorem Keeps.onPart {store : SourceStore σ} {held : Path → σ → Option (List UInt8)}
    (h : store.Keeps held) (part : τ → σ) (put : σ → τ → τ)
    (hput : ∀ inner s, part (put inner s) = inner) :
    (store.onPart part put).Keeps fun path s ↦ held path (part s) where
  held_of_write := by
    intro path text s hwrite
    simpa [SourceStore.onPart, hput] using h.held_of_write path text (part s) hwrite
  held_of_failed_write := by
    intro path text s hwrite hfree
    simpa [SourceStore.onPart, hput] using h.held_of_failed_write path text (part s) hwrite hfree
  held_of_remove := by
    intro path s hheld
    simpa [SourceStore.onPart, hput] using h.held_of_remove path (part s) hheld

/-- Cleaning up takes a file away if it is temporary. -/
theorem Keeps.held_cleanup {store : SourceStore σ} {held : Path → σ → Option (List UInt8)}
    (h : store.Keeps held) (source : MaterializedSource) {s : σ}
    (hheld : held source.path s ≠ none) :
    held source.path (source.cleanup store s) =
      if source.temporary then none else held source.path s := by
  rw [MaterializedSource.cleanup]
  split
  · exact h.held_of_remove source.path s hheld
  · rfl

end FlexGate.SourceStore
