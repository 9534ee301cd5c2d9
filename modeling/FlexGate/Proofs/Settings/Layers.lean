import FlexGate.Proofs.FileTree.Files
import FlexGate.Settings.Load
import Mathlib.Control.Monad.Basic

/-!
# Layers of settings

Settings are loaded in layers: the defaults, a file, the environment. The settings of the file are
validated when the file is read, and those that the environment makes of them are validated again
(`load_eq_of_layers`). What is loaded is therefore always valid (`valid_of_load`), but the last
layer alone does not decide whether settings are loaded: that it does is the same as that every file
whose settings the environment makes valid has valid settings itself (`loads_by_final_layer_iff`).
A value in a file that is out of range cannot be repaired by the environment
(`zeroTimeout_not_judgedLast`).
-/

set_option autoImplicit false
set_option relaxedAutoImplicit false

namespace FlexGate.Settings

/-- Settings that validation lets through. -/
def Valid (s : Settings) : Prop := s.validate = .ok s

theorem validate_eq_ok_iff {s t : Settings} : s.validate = .ok t ↔ s.Valid ∧ t = s := by
  rw [Valid, validate]
  cases s.violation? with
  | none => simp [eq_comm]
  | some cause => simp

/-- The name of the file that settings are loaded from. -/
def fileName (path : Option String) : String := path.getD defaultSettingsFile

variable {files : FileTree} {env : Environment} {path : Option String} {base final : Settings}

/-- The settings that are put over one another: those that the text of the file gives, before they
are validated, and those that the environment makes of them. -/
structure Layers (files : FileTree) (env : Environment) (path : Option String)
    (base final : Settings) : Prop where
  fromFile : ∃ text, files.readText (fileName path).toList = .ok text ∧
    read (some (fileName path)) text = .ok base
  fromEnvironment : base.applyEnvironment env = (final, none)

theorem base_eq_of_readText {text : String}
    (h : files.readText (fileName path).toList = .ok text) :
    Settings.base files path = ofYaml (some (fileName path)) text := by
  obtain ⟨bytes, hbytes, -⟩ := FileTree.readText_eq_ok_iff.mp h
  have hexists := FileTree.exists?_of_readBytes hbytes
  cases path with
  | some path =>
    rw [fileName, Option.getD_some] at h hexists ⊢
    rw [Settings.base, ofFile, if_pos hexists, h]
  | none =>
    rw [fileName, Option.getD_none] at h hbytes hexists ⊢
    rw [Settings.base, if_pos (FileTree.isFile_iff.mpr ⟨bytes, hbytes⟩), ofFile, if_pos hexists, h]

/-- Both layers are validated, the file's own settings first. -/
theorem load_eq_of_layers (h : Layers files env path base final) :
    load files env path = base.validate >>= fun _ ↦ final.validate := by
  obtain ⟨⟨text, htext, hread⟩, henv⟩ := h
  rw [load, base_eq_of_readText htext, ofYaml, hread]
  cases hvalid : base.validate with
  | error failure => simp [hvalid]
  | ok settings =>
    obtain ⟨-, rfl⟩ := validate_eq_ok_iff.mp hvalid
    simp [hvalid, henv]

theorem load_eq_ok_iff_of_layers (h : Layers files env path base final) {s : Settings} :
    load files env path = .ok s ↔ base.Valid ∧ final.Valid ∧ s = final := by
  rw [load_eq_of_layers h]
  cases hbase : base.validate with
  | error failure => simp [Valid, hbase]
  | ok settings =>
    have hvalid : base.Valid := (validate_eq_ok_iff.mp hbase).1
    simp only [ok_bind, validate_eq_ok_iff, hvalid, true_and]

theorem valid_of_load {s : Settings} (h : load files env path = .ok s) : s.Valid := by
  rw [load] at h
  cases hbase : Settings.base files path with
  | error failure => simp [hbase] at h
  | ok settings =>
    simp only [hbase, ok_bind] at h
    split at h
    · cases h
    · obtain ⟨hvalid, rfl⟩ := validate_eq_ok_iff.mp h
      exact hvalid

/-- The last layer alone decides: settings are loaded just when those that the environment makes of
the file's settings are valid, and then these are loaded. -/
def JudgedLast (files : FileTree) (env : Environment) (path : Option String) : Prop :=
  ∀ base final, Layers files env path base final →
    ∀ s, load files env path = .ok s ↔ final.Valid ∧ s = final

/-- When the last layer alone decides what is loaded. In any case both layers have to be valid for
the last one to be loaded, and nothing that is not valid is loaded. -/
theorem loads_by_final_layer_iff (files : FileTree) (env : Environment) (path : Option String) :
    (JudgedLast files env path ↔
      ∀ base final, Layers files env path base final → final.Valid → base.Valid) ∧
    (∀ base final, Layers files env path base final →
      ∀ s, load files env path = .ok s ↔ base.Valid ∧ final.Valid ∧ s = final) ∧
    ∀ s, load files env path = .ok s → s.Valid := by
  refine ⟨⟨?_, ?_⟩, fun base final h s ↦ load_eq_ok_iff_of_layers h, fun s ↦ valid_of_load⟩
  · intro hlast base final hlayers hfinal
    have hload := (hlast base final hlayers final).mpr ⟨hfinal, rfl⟩
    exact ((load_eq_ok_iff_of_layers hlayers).mp hload).1
  · intro hrepaired base final hlayers s
    rw [load_eq_ok_iff_of_layers hlayers]
    exact ⟨fun ⟨_, hfinal, hs⟩ ↦ ⟨hfinal, hs⟩,
      fun ⟨hfinal, hs⟩ ↦ ⟨hrepaired base final hlayers hfinal, hfinal, hs⟩⟩

/-- A tree with a settings file in which the time for a run is zero. -/
def zeroTimeout : FileTree where
  nodes := [([defaultSettingsFile.toList],
    .file (Text.Utf8.encoded "execution:\n  default_timeout_secs: 0\n") false)]

/-- An environment that sets the time for a run to 45 seconds. -/
def timeoutOf45 : Environment := fun name ↦ if name = "EXECUTION_TIMEOUT" then some "45" else none

/-- The settings with the environment's time are valid, but they are not loaded, since the file has
a time that is not allowed. -/
theorem zeroTimeout_not_judgedLast :
    Layers zeroTimeout timeoutOf45 none (({} : Settings).setTimeout 0)
      (({} : Settings).setTimeout 45) ∧
    (({} : Settings).setTimeout 45).Valid ∧
    (∀ s, load zeroTimeout timeoutOf45 none ≠ .ok s) ∧
    ¬ JudgedLast zeroTimeout timeoutOf45 none := by
  have hlayers : Layers zeroTimeout timeoutOf45 none (({} : Settings).setTimeout 0)
      (({} : Settings).setTimeout 45) := by
    refine ⟨⟨"execution:\n  default_timeout_secs: 0\n", ?_, ?_⟩, ?_⟩ <;> decide +kernel
  have hfinal : (({} : Settings).setTimeout 45).Valid := by
    rw [Valid]
    decide +kernel
  have hbase : ¬ (({} : Settings).setTimeout 0).Valid := by
    rw [Valid]
    decide +kernel
  have hload : ∀ s, load zeroTimeout timeoutOf45 none ≠ .ok s := fun s hs ↦
    hbase ((load_eq_ok_iff_of_layers hlayers).mp hs).1
  exact ⟨hlayers, hfinal, hload, fun hlast ↦ hload _ ((hlast _ _ hlayers _).mpr ⟨hfinal, rfl⟩)⟩

end FlexGate.Settings
