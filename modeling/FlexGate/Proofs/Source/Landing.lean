import FlexGate.Proofs.Path.Locations
import FlexGate.Proofs.Source.ScriptNames

/-!
# Where a source that is kept lands

A kept source is put where the output directory and a name lead (`path_make_eq_join`), the name
being the one that was asked for, with the extension of scripts if the path named no script before
(`keptName`). So whether its path leads below that directory is told from where the name leads
(`kept_source_lands_below_iff`); a relative name without a step up always does.
-/

set_option autoImplicit false
set_option relaxedAutoImplicit false

namespace FlexGate.SourcePlan

variable {s : ExecutionSettings} {fileName : Option String} {stamp : RunStamp} {name : List Char}

/-- The name under which a source is kept when a name is asked for. -/
def keptName (s : ExecutionSettings) (name : List Char) : Path :=
  if s.isScriptName (Path.join s.outputDir.toList name) then name else name ++ scriptExtension

theorem path_make_eq_join (h : wantedName fileName = some name) :
    (make s fileName true stamp).path = Path.join s.outputDir.toList (keptName s name) := by
  have hne : name ≠ [] := (wantedName_eq_some_iff.mp h).1
  rw [path_make_of_wantedName h, asScript, keptName]
  split
  · rfl
  · exact (Path.join_append hne s.outputDir.toList scriptExtension).symm

theorem isAbsolute_keptName (hne : name ≠ []) :
    Path.isAbsolute (keptName s name) = Path.isAbsolute name := by
  rw [keptName]
  split
  · rfl
  · exact Path.isAbsolute_append hne scriptExtension

/-- The extension makes no step up of a name that had none, and leaves it a name. -/
theorem segments_keptName (hup : ['.', '.'] ∉ Path.segments name)
    (hname : ∃ segment ∈ Path.segments name, Path.isVoid segment = false) :
    ['.', '.'] ∉ Path.segments (keptName s name) ∧
      ∃ segment ∈ Path.segments (keptName s name), Path.isVoid segment = false := by
  rw [keptName]
  split
  · exact ⟨hup, hname⟩
  · obtain ⟨before, last, -, hsegments⟩ := Path.exists_segments_append name
    have hold : Path.segments name = before ++ [last] := by
      simpa using hsegments [] List.not_mem_nil
    have hnew : Path.segments (name ++ scriptExtension) = before ++ [last ++ scriptExtension] :=
      hsegments scriptExtension (by decide)
    have hbefore : ['.', '.'] ∉ before := fun hmem ↦ hup (hold ▸ List.mem_append_left _ hmem)
    rw [hnew]
    refine ⟨?_, last ++ scriptExtension, by simp, isVoid_append_scriptExtension last⟩
    refine List.not_mem_append hbefore fun hmem ↦ ?_
    exact append_scriptExtension_ne_up last (List.mem_singleton.mp hmem).symm

/-- What is expected of a kept source: its path leads below the output directory, as far as can be
told without looking at any file. -/
def LandsBelow (s : ExecutionSettings) (fileName : Option String) (stamp : RunStamp) : Prop :=
  Location.Below (Path.resolve s.outputDir.toList)
    (Path.resolve (make s fileName true stamp).path)

instance (s : ExecutionSettings) (fileName : Option String) (stamp : RunStamp) :
    Decidable (LandsBelow s fileName stamp) :=
  inferInstanceAs (Decidable (Location.Below _ _))

theorem landsBelow_of_no_wantedName (h : wantedName fileName = none) (hstamp : stamp.HasNoSlash) :
    LandsBelow s fileName stamp := by
  obtain ⟨stem, -, hstem, hname⟩ := exists_stampedName hstamp
  have hslash : '/' ∉ stem ++ scriptExtension := List.not_mem_append hstem (by decide)
  have hrelative : Path.isAbsolute (stem ++ scriptExtension) = false := by
    rw [Path.isAbsolute, beq_eq_false_iff_ne]
    exact fun hhead ↦ hslash (List.mem_of_head? hhead)
  have hsegments := Path.segments_of_not_mem hslash
  have hup : ['.', '.'] ∉ Path.segments (stem ++ scriptExtension) := by
    rw [hsegments, List.mem_singleton]
    exact (append_scriptExtension_ne_up stem).symm
  rw [LandsBelow, path_make_of_no_wantedName h, hname, Path.resolve_join hrelative,
    Location.below_append_iff, Path.resolve_of_no_up hup, hsegments]
  exact Location.reenters_of_ups_eq_zero rfl (by simp [isVoid_append_scriptExtension])

theorem landsBelow_iff_of_isAbsolute (h : wantedName fileName = some name)
    (habsolute : Path.isAbsolute name = true) :
    LandsBelow s fileName stamp ↔
      Location.Below (Path.resolve s.outputDir.toList) (Path.resolve (keptName s name)) := by
  have hne : name ≠ [] := (wantedName_eq_some_iff.mp h).1
  rw [LandsBelow, path_make_eq_join h,
    Path.join_of_isAbsolute (by rw [isAbsolute_keptName hne, habsolute])]

theorem landsBelow_iff_of_relative (h : wantedName fileName = some name)
    (hrelative : Path.isAbsolute name = false) :
    LandsBelow s fileName stamp ↔
      Location.Reenters (Path.resolve s.outputDir.toList) (Path.resolve (keptName s name)) := by
  have hne : name ≠ [] := (wantedName_eq_some_iff.mp h).1
  rw [LandsBelow, path_make_eq_join h,
    Path.resolve_join (by rw [isAbsolute_keptName hne, hrelative]), Location.below_append_iff]

/-- When a kept source lands below the output directory: where no name is asked for, always. A
relative name may lead up only over names of the directory that it goes down again, and has to lead
on from there; an absolute name has to lead there by itself. So a relative name without a step up
always does, if it has any segment that is not void. -/
theorem kept_source_lands_below_iff (s : ExecutionSettings) (fileName : Option String)
    (stamp : RunStamp) (hstamp : stamp.HasNoSlash) :
    (LandsBelow s fileName stamp ↔ ∀ name, wantedName fileName = some name →
      (Path.isAbsolute name = false →
        Location.Reenters (Path.resolve s.outputDir.toList) (Path.resolve (keptName s name))) ∧
      (Path.isAbsolute name = true →
        Location.Below (Path.resolve s.outputDir.toList) (Path.resolve (keptName s name)))) ∧
    ∀ name, wantedName fileName = some name → Path.isAbsolute name = false →
      ['.', '.'] ∉ Path.segments name →
      (∃ segment ∈ Path.segments name, Path.isVoid segment = false) →
      LandsBelow s fileName stamp := by
  constructor
  · cases hwanted : wantedName fileName with
    | none => exact iff_of_true (landsBelow_of_no_wantedName hwanted hstamp) nofun
    | some name =>
      simp only [Option.some.injEq, forall_eq']
      cases hname : Path.isAbsolute name with
      | true =>
        rw [landsBelow_iff_of_isAbsolute hwanted hname]
        exact ⟨fun h ↦ ⟨nofun, fun _ ↦ h⟩, fun h ↦ h.2 rfl⟩
      | false =>
        rw [landsBelow_iff_of_relative hwanted hname]
        exact ⟨fun h ↦ ⟨fun _ ↦ h, nofun⟩, fun h ↦ h.1 rfl⟩
  · intro name hwanted hrelative hup hsegment
    obtain ⟨hkept, segment, hmem, hvoid⟩ := segments_keptName (s := s) hup hsegment
    rw [landsBelow_iff_of_relative hwanted hrelative, Path.resolve_of_no_up hkept]
    refine Location.reenters_of_ups_eq_zero rfl (List.ne_nil_of_mem (a := segment) ?_)
    exact List.mem_filter.mpr ⟨hmem, by simp [hvoid]⟩

/-- A name that leaves the output directory and comes back. -/
theorem kept_source_lands_below_iff_roundabout :
    (⟨"20240229_123456", .ofNumber 7⟩ : RunStamp).HasNoSlash ∧
    LandsBelow {} (some "../flex_examples/demo") ⟨"20240229_123456", .ofNumber 7⟩ := by
  have hstamp : (⟨"20240229_123456", .ofNumber 7⟩ : RunStamp).HasNoSlash := by decide
  refine ⟨hstamp, ?_⟩
  rw [(kept_source_lands_below_iff {} (some "../flex_examples/demo") _ hstamp).1]
  intro name hwanted
  have hname : wantedName (some "../flex_examples/demo") =
      some "../flex_examples/demo".toList := by decide
  obtain rfl : "../flex_examples/demo".toList = name := Option.some.inj (hname.symm.trans hwanted)
  decide

/-- A relative name that steps up lands beside the output directory. -/
theorem escapedName_not_landsBelow :
    Path.isAbsolute "../escaped.flex".toList = false ∧
    (make {} (some "../escaped.flex") true ⟨"20240229_123456", .ofNumber 7⟩).path =
      "./flex_examples/../escaped.flex".toList ∧
    ¬ LandsBelow {} (some "../escaped.flex") ⟨"20240229_123456", .ofNumber 7⟩ := by
  decide

end FlexGate.SourcePlan
