import FlexGate.CommandLine.Run
import FlexGate.Host
import FlexGate.Proofs.FileTree.Files
import FlexGate.Proofs.Gate

/-!
# One verdict for all commands

The commands on a script judge it in different places: `check` by its report, `run` in the pipeline,
`run --fix` after mending it only if it has a critical loop, while `fix` mends whatever it is given.
They agree because a source without a critical loop is mended already (`Pipeline.judged_true`) and
because no other failure has the exit code of a rejected source (`code_run_eq_rejected_iff`).

A script that was mended in its file is settled (`Settled`): it is read back as it was mended, a
check finds no critical loop in it, and to mend it again writes nothing, whatever is in the files.
-/

set_option autoImplicit false
set_option relaxedAutoImplicit false

namespace FlexGate

/-- The files of a context are a part of its state: what is put there is there, and to put back what
is there changes nothing. -/
structure CommandContext.Lawful {σ : Type} (ctx : CommandContext σ) : Prop where
  files_putFiles : ∀ files s, ctx.files (ctx.putFiles files s) = files
  putFiles_files : ∀ s, ctx.putFiles (ctx.files s) s = s

namespace Pipeline

theorem judged_false (options : AnalysisOptions) (source : String) :
    judged options false source = source := rfl

/-- If mending is wanted, the mended source is judged. A source without a critical loop is mended
already. -/
theorem judged_true (options : AnalysisOptions) (source : String) :
    judged options true source = Repair.mended source := by
  rw [judged, Bool.true_and]
  split
  case isTrue => rfl
  case isFalse h =>
    have hsafe : isLoopSafe source.toList = true :=
      hasCriticalLoop_ofSource_eq_false_iff.mp (Bool.eq_false_iff.mpr h)
    exact (mended_eq_self_iff_isLoopSafe.mpr hsafe).symm

end Pipeline

theorem ExitCode.ofRun_ne_rejected (kind : RunFailureKind) :
    ExitCode.ofRun kind ≠ ExitCode.rejected := by
  cases kind <;> decide

/-- No failure has the exit code of a rejected source. -/
theorem Failure.exitCode_ne_rejected (f : Failure) : f.exitCode ≠ ExitCode.rejected := by
  cases f with
  | run cause => exact ExitCode.ofRun_ne_rejected cause.kind
  | _ => exact of_decide_eq_true rfl

theorem Outcome.exitCode_executed_ne_rejected (report : Report) (source : String) (r : RunResult) :
    (Outcome.executed report source r).exitCode ≠ ExitCode.rejected := by
  rw [Outcome.exitCode]
  split
  · decide
  · split <;> decide

namespace CommandLine

variable {σ : Type} {ctx : CommandContext σ} {cl : CommandLine} {settings : Settings}
  {file source : String} {s : RunState σ}

/-- A command line for another command. -/
def withCommand (cl : CommandLine) (command : Command) : CommandLine :=
  { cl with command := command }

/-- Whether the flags of a command line exclude each other. Nothing is carried out then. -/
def conflicts (cl : CommandLine) : Bool := cl.verbose && cl.quiet

theorem run_of_conflicts (h : cl.conflicts = true) (command : Command) :
    ((cl.withCommand command).run ctx s).1 = s ∧
      ((cl.withCommand command).run ctx s).2.code = ExitCode.usage := by
  have hattempt : (cl.withCommand command).attempt ctx s = (s, .error conflict) := if_pos h
  rw [run, hattempt]
  exact ⟨rfl, rfl⟩

theorem readScript_eq_ok_iff {files : FileTree} :
    readScript files file = .ok source ↔ files.readText file.toList = .ok source := by
  rw [readScript]
  cases hread : files.readText file.toList with
  | error fault =>
    split <;> simp
  | ok text =>
    obtain ⟨bytes, hbytes, -⟩ := FileTree.readText_eq_ok_iff.mp hread
    rw [if_pos (FileTree.isFile_iff.mpr ⟨bytes, hbytes⟩)]
    simp

/-! ### Checking and running -/

@[simp] theorem command_withCommand (command : Command) :
    (cl.withCommand command).command = command := rfl

@[simp] theorem note_withCommand (command : Command) :
    (cl.withCommand command).note = cl.note := rfl

@[simp] theorem writeBack_withCommand (command : Command) :
    (cl.withCommand command).writeBack = cl.writeBack := rfl

/-- A command on a script comes to be carried out if the settings can be loaded. -/
theorem attempt_eq_runWith (hflags : cl.conflicts = false)
    (hload : Settings.load (ctx.files s.world) ctx.environment cl.config = .ok settings)
    {command : Command} (hcompletion : ∀ shell, command ≠ .completion shell)
    (hexamples : command ≠ .examples) :
    (cl.withCommand command).attempt ctx s = (cl.withCommand command).runWith ctx settings s := by
  have hflags' : ((cl.withCommand command).verbose && (cl.withCommand command).quiet) ≠ true :=
    Bool.eq_false_iff.mp hflags
  have hload' : Settings.load (ctx.files s.world) ctx.environment
      (cl.withCommand command).config = .ok settings := hload
  rw [attempt, if_neg hflags', hload', command_withCommand]
  cases command with
  | completion shell => exact absurd rfl (hcompletion shell)
  | examples => exact absurd rfl hexamples
  | _ => rfl

theorem run_check (hflags : cl.conflicts = false)
    (hload : Settings.load (ctx.files s.world) ctx.environment cl.config = .ok settings)
    (hread : readScript (ctx.files s.world) file = .ok source) (form : OutputForm) :
    (cl.withCommand (.check file form)).run ctx s =
      (s, check settings.analysis.options source form) := by
  rw [run, attempt_eq_runWith hflags hload (by simp) (by simp)]
  simp [runWith, hread, Except.map]

theorem code_check_eq_rejected_iff (options : AnalysisOptions) (form : OutputForm) :
    (check options source form).code = ExitCode.rejected ↔
      (Report.ofSource options source).findings ≠ [] := by
  have hcode : (check options source form).code =
      if (Report.ofSource options source).isAcceptable then ExitCode.success
      else ExitCode.rejected := rfl
  have hacceptable : (Report.ofSource options source).isAcceptable = true ↔
      (Report.ofSource options source).findings = [] := List.isEmpty_iff
  rw [hcode]
  by_cases hnil : (Report.ofSource options source).findings = []
  · rw [if_pos (hacceptable.mpr hnil)]
    exact iff_of_false (by decide) (not_not_intro hnil)
  · rw [if_neg (mt hacceptable.mp hnil)]
    exact iff_of_true rfl hnil

/-- A run is rejected just when something is found in the judged text. Everything else that can come
of it has another exit code. -/
theorem code_run_eq_rejected_iff (hflags : cl.conflicts = false)
    (hload : Settings.load (ctx.files s.world) ctx.environment cl.config = .ok settings)
    (hread : readScript (ctx.files s.world) file = .ok source) (timeout : Option Nat) (fix : Bool)
    (save : Option String) (form : OutputForm) :
    ((cl.withCommand (.run file timeout fix save form)).run ctx s).2.code = ExitCode.rejected ↔
      (Report.ofSource settings.analysis.options
        (Pipeline.judged settings.analysis.options fix source)).findings ≠ [] := by
  rw [run, attempt_eq_runWith hflags hload (by simp) (by simp)]
  simp only [runWith, command_withCommand, hread, Pipeline.run, Pipeline.gate_eq]
  by_cases hnil : (Report.ofSource settings.analysis.options
      (Pipeline.judged settings.analysis.options fix source)).findings = []
  · -- The gate lets the text through, and no end of its run has the exit code of a rejection.
    rw [if_pos hnil]
    generalize Executor.execute ctx.machine settings _ s = ended
    obtain ⟨after, failure | result⟩ := ended
    · simpa [Except.map, hnil] using failure.exitCode_ne_rejected
    · simpa [Except.map, hnil, console] using Outcome.exitCode_executed_ne_rejected _ _ result
  · rw [if_neg hnil]
    simp [Except.map, hnil, console, Outcome.exitCode]

/-! ### Mending a file -/

/-- What is told of a file that needs no mending. -/
def nothingToFix : String := "No inclusive loop bounds to fix"

/-- Whatever is in the files, nothing is written for a source that is mended already. -/
theorem writeBack_of_mended_eq (h : Repair.mended source = source) (files : FileTree) :
    cl.writeBack files file source = (files, .ok (cl.note nothingToFix)) :=
  if_pos h

theorem exists_writeBack (cl : CommandLine) {files : FileTree}
    (hread : files.readText file.toList = .ok source) :
    ∃ after message, cl.writeBack files file source = (after, .ok (cl.note message)) ∧
      after.readText file.toList = .ok (Repair.mended source) := by
  by_cases hsame : Repair.mended source = source
  · exact ⟨files, nothingToFix, writeBack_of_mended_eq hsame files, hsame.symm ▸ hread⟩
  · obtain ⟨bytes, hbytes, -⟩ := FileTree.readText_eq_ok_iff.mp hread
    obtain ⟨place, executable, hfind⟩ := FileTree.readBytes_eq_ok_iff.mp hbytes
    have hwrite := FileTree.writeBytes_of_find hfind (Text.Utf8.encoded (Repair.mended source))
    refine ⟨_, "Fixed loop bounds in " ++ file, ?_,
      FileTree.readText_of_readBytes_encoded (FileTree.readBytes_writeBytes hwrite)⟩
    simp [writeBack, hsame, hwrite]

/-- A script whose file holds a text that needs no more mending. It is read as that text; its check
leaves everything as it is and has no critical loop; and to mend it leaves everything as it is,
since for this text nothing is written, whatever is in the files. -/
structure Settled (ctx : CommandContext σ) (cl : CommandLine) (file text : String)
    (t : RunState σ) : Prop where
  read_eq : readScript (ctx.files t.world) file = .ok text
  check_eq : ∀ settings form,
    Settings.load (ctx.files t.world) ctx.environment cl.config = .ok settings →
      (cl.withCommand (.check file form)).run ctx t =
        (t, check settings.analysis.options text form)
  no_critical_loop : ∀ options, (Report.ofSource options text).hasCriticalLoop = false
  mend_eq : ∀ settings,
    Settings.load (ctx.files t.world) ctx.environment cl.config = .ok settings →
      (cl.withCommand (.fix file true)).run ctx t = (t, cl.note nothingToFix)
  writes_nothing : ∀ files, cl.writeBack files file text = (files, .ok (cl.note nothingToFix))

theorem settled_of_mended_eq (hctx : ctx.Lawful) (hflags : cl.conflicts = false)
    (hread : readScript (ctx.files s.world) file = .ok source)
    (hmended : Repair.mended source = source) : Settled ctx cl file source s where
  read_eq := hread
  check_eq := fun _ form hload ↦ run_check hflags hload hread form
  no_critical_loop := fun _ ↦
    hasCriticalLoop_ofSource_eq_false_iff.mpr (mended_eq_self_iff_isLoopSafe.mp hmended)
  mend_eq := by
    intro settings hload
    rw [run, attempt_eq_runWith hflags hload (by simp) (by simp)]
    simp [runWith, hread, writeBack_of_mended_eq hmended, hctx.putFiles_files]
  writes_nothing := writeBack_of_mended_eq hmended

/-- To mend a script in its file succeeds and settles it. -/
theorem run_fix_write (hctx : ctx.Lawful) (hflags : cl.conflicts = false)
    (hload : Settings.load (ctx.files s.world) ctx.environment cl.config = .ok settings)
    (hread : readScript (ctx.files s.world) file = .ok source) :
    let (after, console) := (cl.withCommand (.fix file true)).run ctx s
    console.code = ExitCode.success ∧ Settled ctx cl file (Repair.mended source) after := by
  obtain ⟨files, message, hwrite, hafter⟩ :=
    exists_writeBack cl (readScript_eq_ok_iff.mp hread)
  have hrun : (cl.withCommand (.fix file true)).run ctx s =
      ({ s with world := ctx.putFiles files s.world }, cl.note message) := by
    rw [run, attempt_eq_runWith hflags hload (by simp) (by simp)]
    simp [runWith, hread, hwrite]
  have hreadBack :
      readScript (ctx.files (ctx.putFiles files s.world)) file = .ok (Repair.mended source) := by
    rw [hctx.files_putFiles]
    exact readScript_eq_ok_iff.mpr hafter
  rw [hrun]
  exact ⟨rfl, settled_of_mended_eq hctx hflags hreadBack (Repair.mended_mended source)⟩

/-! ### The verdict -/

/-- The commands agree on a script: a run is rejected just when a check is, with mending just when
the check of a file with the mended text is, and mending the script in its file settles it. Flags
that exclude each other end every command before it does anything. -/
structure Agree (ctx : CommandContext σ) (cl : CommandLine) (settings : Settings)
    (file source : String) (s : RunState σ) : Prop where
  run_rejects_iff : ∀ timeout save form checkForm,
    ((cl.withCommand (.run file timeout false save form)).run ctx s).2.code = ExitCode.rejected ↔
      ((cl.withCommand (.check file checkForm)).run ctx s).2.code = ExitCode.rejected
  run_fix_rejects_iff : ∀ timeout save form checkForm other t,
    Settings.load (ctx.files t.world) ctx.environment cl.config = .ok settings →
    readScript (ctx.files t.world) other = .ok (Repair.mended source) →
      (((cl.withCommand (.run file timeout true save form)).run ctx s).2.code =
          ExitCode.rejected ↔
        ((cl.withCommand (.check other checkForm)).run ctx t).2.code = ExitCode.rejected)
  mend_settles : cl.conflicts = false →
    let (after, console) := (cl.withCommand (.fix file true)).run ctx s
    console.code = ExitCode.success ∧ Settled ctx cl file (Repair.mended source) after
  conflict_ends : cl.conflicts = true → ∀ command,
    ((cl.withCommand command).run ctx s).1 = s ∧
      ((cl.withCommand command).run ctx s).2.code = ExitCode.usage

theorem code_run_eq_rejected_iff_check {other : String} {t : RunState σ}
    (hload : Settings.load (ctx.files s.world) ctx.environment cl.config = .ok settings)
    (hread : readScript (ctx.files s.world) file = .ok source) {fix : Bool}
    (hload' : Settings.load (ctx.files t.world) ctx.environment cl.config = .ok settings)
    (hread' : readScript (ctx.files t.world) other =
      .ok (Pipeline.judged settings.analysis.options fix source))
    (timeout : Option Nat) (save : Option String) (form checkForm : OutputForm) :
    ((cl.withCommand (.run file timeout fix save form)).run ctx s).2.code = ExitCode.rejected ↔
      ((cl.withCommand (.check other checkForm)).run ctx t).2.code = ExitCode.rejected := by
  cases hflags : cl.conflicts with
  | true =>
    rw [(run_of_conflicts hflags _).2, (run_of_conflicts hflags _).2]
  | false =>
    rw [code_run_eq_rejected_iff hflags hload hread, run_check hflags hload' hread',
      code_check_eq_rejected_iff]

theorem agree (hctx : ctx.Lawful)
    (hload : Settings.load (ctx.files s.world) ctx.environment cl.config = .ok settings)
    (hread : readScript (ctx.files s.world) file = .ok source) :
    Agree ctx cl settings file source s where
  run_rejects_iff := code_run_eq_rejected_iff_check hload hread hload
    (hread.trans (congrArg _ (Pipeline.judged_false settings.analysis.options source).symm))
  run_fix_rejects_iff := by
    intro timeout save form checkForm other t hload' hread'
    rw [← Pipeline.judged_true settings.analysis.options source] at hread'
    exact code_run_eq_rejected_iff_check hload hread hload' hread' timeout save form checkForm
  mend_settles := fun hflags ↦ run_fix_write hctx hflags hload hread
  conflict_ends := run_of_conflicts

theorem fst_run : (cl.run ctx s).1 = (cl.attempt ctx s).1 := by
  rw [run]
  split <;> simp [*]

theorem fst_run_check (form : OutputForm) :
    ((cl.withCommand (.check file form)).run ctx s).1 = s := by
  rw [fst_run, attempt]
  split
  · rfl
  · rw [command_withCommand]
    dsimp only
    split <;> rfl

theorem fst_run_fix :
    ((cl.withCommand (.fix file false)).run ctx s).1 = s := by
  rw [fst_run, attempt]
  split
  · rfl
  · rw [command_withCommand]
    dsimp only
    split
    · rfl
    · rw [runWith]
      rw [command_withCommand]
      dsimp only
      split <;> rfl

/-- Checking a script, and mending it without writing, change nothing at all. A script that can be
read is judged alike by all commands that can load the settings. -/
theorem commands_agree (hctx : ctx.Lawful) (cl : CommandLine) (file : String) (s : RunState σ) :
    (∀ form, ((cl.withCommand (.check file form)).run ctx s).1 = s) ∧
    ((cl.withCommand (.fix file false)).run ctx s).1 = s ∧
    ∀ settings source,
      Settings.load (ctx.files s.world) ctx.environment cl.config = .ok settings →
      readScript (ctx.files s.world) file = .ok source →
        Agree ctx cl settings file source s :=
  ⟨fst_run_check, fst_run_fix, fun _ _ ↦ agree hctx⟩

/-- The files of a host, with no variable set. -/
def hostContext : CommandContext Host where
  machine := Host.machine
  files := Host.files
  putFiles files host := { host with files := files }
  environment _ := none

/-- A script with a loop that reads one past the end. -/
def inclusiveLoop : String := "karr i=0 l7d length(a) {
}
"

/-- The same script with its bound corrected. -/
def correctedLoop : String := "karr i=0 l7d length(a) - 1 {
}
"

/-- A host with one script in its working directory. -/
def hostWithLoop : Host where
  files := { nodes := [(["a.flex".toList], .file (Text.Utf8.encoded inclusiveLoop) false)] }
  stamps _ := ⟨"20240101_000000", .ofNumber 1⟩
  sample := ⟨Binary.ofNat .double 0, Binary.ofNat .single 0⟩

/-- A check rejects the script of this host, hence so does a run; mending corrects its bound. -/
theorem commands_agree_hostWithLoop :
    let cl : CommandLine := { command := .examples }
    let s : RunState Host := ⟨hostWithLoop, {}⟩
    (∀ timeout save form,
      ((cl.withCommand (.run "a.flex" timeout false save form)).run hostContext s).2.code =
        ExitCode.rejected) ∧
    readScript
        (hostContext.files ((cl.withCommand (.fix "a.flex" true)).run hostContext s).1.world)
        "a.flex" = .ok correctedLoop := by
  intro cl s
  have hagree : Agree hostContext cl {} "a.flex" inclusiveLoop s :=
    (commands_agree ⟨fun _ _ ↦ rfl, fun _ ↦ rfl⟩ cl "a.flex" s).2.2 {} inclusiveLoop
      (by decide +kernel) (by decide +kernel)
  have hcheck : ((cl.withCommand (.check "a.flex" .text)).run hostContext s).2.code =
      ExitCode.rejected := by decide +kernel
  have hmended : Repair.mended inclusiveLoop = correctedLoop := by
    decide +kernel
  refine ⟨fun timeout save form ↦ (hagree.run_rejects_iff timeout save form .text).mpr hcheck, ?_⟩
  rw [← hmended]
  exact (hagree.mend_settles rfl).2.read_eq

end CommandLine

end FlexGate
