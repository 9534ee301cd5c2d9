import FlexGate.Host
import FlexGate.Proofs.Execution.Approach
import FlexGate.Proofs.Source.Store

/-!
# What a run leaves behind

A run registers itself and may write a file, and however it goes, nothing of that is left. The
registry is as others made it (`RegistryLeft`), whether the process was not started, its identity
was taken, or it was waited for. A temporary file is gone, a kept one holds the source
(`SourceLeft`), and a script that is run where it is stays as it is.

The interpreter is supposed to leave the script alone (`Spares`). What is supposed of the store is
`SourceStore.Keeps`, which the store of a host satisfies (`keeps_machine_store`).
-/

set_option autoImplicit false
set_option relaxedAutoImplicit false

namespace FlexGate.Executor

variable {σ : Type} {m : Machine σ} {settings : Settings}
  {held : Path → σ → Option (List UInt8)} {path : Path} {s after t : RunState σ}

/-! ### The registry -/

/-- What a run leaves in the registry: nothing of its own, and all else as others made it, so that
it is as it was if others did nothing. If the run fails with more than a result then its identity
was taken, and the registry is as it was. -/
structure RegistryLeft (id : RunId) (seen : Option Sighting) (before after : RegistryRoom)
    (answer : Except Failure RunResult) : Prop where
  restored : RegistryRoom.Restored id (Sighting.events seen) before after
  of_undisturbed : Sighting.events seen = [] → after.registry.entries = before.registry.entries
  of_error : ∀ failure, answer = .error failure →
    failure = .duplicateIdentity id.text ∧ before.registry.contains id = true ∧
      after.registry = before.registry

theorem registryLeft_of_registry_eq {id : RunId} {r : RunResult} {before after : RegistryRoom}
    (h : before.Coherent) (heq : after.registry = before.registry) :
    RegistryLeft id none before after (.ok r) where
  restored := RegistryRoom.restored_of_registry_eq h heq
  of_undisturbed := fun _ ↦ congrArg Registry.entries heq
  of_error := nofun

theorem ScriptRuns.registryLeft {l : Launch} {id : RunId} {started : Nat}
    {answer : Except Failure RunResult} {seen : Option Sighting}
    (h : ScriptRuns m l id started s after answer seen) (hroom : s.room.Coherent) :
    RegistryLeft id seen s.room after.room answer := by
  cases h with
  | refused => exact registryLeft_of_registry_eq hroom rfl
  | @duplicate world pid _ htaken =>
    have hsame : (s.room.register (handleOf l id pid)).1.registry = s.room.registry := by
      rw [RegistryRoom.register_of_contains htaken]
      rfl
    refine ⟨RegistryRoom.restored_of_registry_eq hroom hsame,
      fun _ ↦ congrArg Registry.entries hsame, fun failure hfailure ↦ ?_⟩
    exact ⟨(Except.error.inj hfailure).symm, htaken, hsame⟩
  | @ended world _ pid course mailbox room _ hfree _ _ hleft =>
    have hfree' : s.room.registry.contains (handleOf l id pid).id = false := hfree
    have hrestored : RegistryRoom.Restored id (course.others ++ course.later) s.room room := by
      rw [← hleft]
      exact RegistryRoom.restored_depart hroom hfree'
    refine ⟨hrestored, fun hnil ↦ ?_, nofun⟩
    have hnil' : course.others ++ course.later = [] := hnil
    rw [hnil'] at hrestored
    exact hrestored.entries_eq

theorem registryLeft_settle (m : Machine σ) (settings : Settings) (id : RunId)
    (timeoutSecs started : Nat) (approached : RunState σ × Except Refusal MaterializedSource)
    (hroom : approached.1.room.Coherent) :
    RegistryLeft id (sighting m settings id timeoutSecs approached) approached.1.room
      (settle m settings id timeoutSecs started approached).1.room
      (settle m settings id timeoutSecs started approached).2 := by
  obtain ⟨t, refusal | source⟩ := approached
  · exact registryLeft_of_registry_eq hroom rfl
  · -- To clean up after the run changes files only.
    have hrun := (scriptRuns_runScript m (launch settings source.path timeoutSecs) id started
      t).registryLeft hroom
    exact ⟨hrun.restored, hrun.of_undisturbed, hrun.of_error⟩

theorem registryLeft_execute (hroom : s.room.Coherent) (request : RunRequest) :
    RegistryLeft (m.stamp s.world).2.id (sightingOf m settings request s) s.room
      (execute m settings request s).1.room (execute m settings request s).2 := by
  have hsame := room_approach m settings request s
  have hleft := registryLeft_settle m settings (m.stamp s.world).2.id
    (clampTimeout request.timeoutSecs) (m.clock s.world) (approach m settings request s)
    (hsame ▸ hroom)
  rw [execute_eq, ← hsame]
  exact hleft

theorem registryLeft_executeFile (hroom : s.room.Coherent) (path : Path)
    (timeoutSecs : Option Nat) :
    RegistryLeft (m.stamp s.world).2.id (sightingOfFile m settings path timeoutSecs s) s.room
      (executeFile m settings path timeoutSecs s).1.room
      (executeFile m settings path timeoutSecs s).2 := by
  have hsame := room_approachFile m settings path s
  have hleft := registryLeft_settle m settings (m.stamp s.world).2.id
    (clampTimeout (timeoutSecs.getD settings.execution.defaultTimeoutSecs)) (m.clock s.world)
    (approachFile m settings path s) (hsame ▸ hroom)
  rw [executeFile_eq, ← hsame]
  exact hleft

/-! ### The file of the source -/

/-- The interpreter leaves alone what a path holds: its probe does, and so does the process that is
started for a script that is ready. -/
structure Spares (m : Machine σ) (settings : Settings) (held : Path → σ → Option (List UInt8))
    (path : Path) (timeoutSecs : Nat) (s : RunState σ)
    (approached : RunState σ × Except Refusal MaterializedSource) : Prop where
  probe : held path (probed m settings s).1.world = held path s.world
  start : ∀ source, approached.2 = .ok source →
    held path (m.start (launch settings source.path timeoutSecs) approached.1.world).1 =
      held path approached.1.world
  wait : ∀ source, approached.2 = .ok source →
    let l := launch settings source.path timeoutSecs
    let started := (m.start l approached.1.world).1
    held path (m.wait l started).1 = held path started

theorem ScriptRuns.held_eq {l : Launch} {id : RunId} {started : Nat}
    {answer : Except Failure RunResult} {seen : Option Sighting}
    (h : ScriptRuns m l id started s after answer seen)
    (hstart : held path (m.start l s.world).1 = held path s.world)
    (hwait : held path (m.wait l (m.start l s.world).1).1 = held path (m.start l s.world).1) :
    held path after.world = held path s.world := by
  cases h with
  | refused hstarted =>
    rw [hstarted] at hstart
    exact hstart
  | duplicate hstarted =>
    rw [hstarted] at hstart
    exact hstart
  | ended hstarted _ hwaited =>
    rw [hstarted] at hstart hwait
    rw [hwaited] at hwait
    exact hwait.trans hstart

/-- The run of a script that is ready changes its file only by cleaning up. -/
theorem held_settle (id : RunId) (started : Nat) {timeoutSecs : Nat} {source : MaterializedSource}
    {approached : RunState σ × Except Refusal MaterializedSource}
    (hspares : Spares m settings held path timeoutSecs s approached)
    (hready : approached.2 = .ok source) :
    ∃ world, held path world = held path approached.1.world ∧
      (settle m settings id timeoutSecs started approached).1.world =
        source.cleanup m.store world := by
  obtain ⟨t, answer⟩ := approached
  obtain rfl : answer = .ok source := hready
  have hrun := scriptRuns_runScript m (launch settings source.path timeoutSecs) id started t
  exact ⟨_, hrun.held_eq (hspares.start source rfl) (hspares.wait source rfl), rfl⟩

/-! ### Sources that are written -/

/-- What the run of a source leaves in its file: nothing, if the source is not to be kept and there
was nothing before; the source, if it is to be kept and was written. -/
structure SourceLeft (m : Machine σ) (settings : Settings) (held : Path → σ → Option (List UInt8))
    (request : RunRequest) (s after : RunState σ) : Prop where
  unkept : request.keep = false →
    held (planOf m settings request s).path s.world = none →
      held (planOf m settings request s).path after.world = none
  kept : request.keep = true → (∃ source, (approach m settings request s).2 = .ok source) →
    held (planOf m settings request s).path after.world = some (Text.Utf8.encoded request.source)

theorem temporary_planOf (m : Machine σ) (settings : Settings) (request : RunRequest)
    (s : RunState σ) : (planOf m settings request s).temporary = !request.keep := by
  rw [planOf, SourcePlan.make]
  cases request.keep <;> rfl

theorem Approaches.held_settle_source {request : RunRequest} {timeoutSecs : Nat}
    {answer : Except Refusal MaterializedSource}
    (h : Approaches m settings request s t answer) (hstore : m.store.Keeps held)
    (hspares : Spares m settings held (planOf m settings request s).path timeoutSecs s (t, answer))
    (id : RunId) (started : Nat) :
    let after := (settle m settings id timeoutSecs started (t, answer)).1
    (request.keep = false → held (planOf m settings request s).path s.world = none →
      held (planOf m settings request s).path after.world = none) ∧
    (request.keep = true → (∃ source, answer = .ok source) →
      held (planOf m settings request s).path after.world =
        some (Text.Utf8.encoded request.source)) := by
  cases h with
  | unprobed => exact ⟨fun _ hfree ↦ hspares.probe.trans hfree, fun _ hready ↦ nomatch hready⟩
  | @unwritten version world fault _ hwrite =>
    refine ⟨fun _ hfree ↦ ?_, fun _ hready ↦ nomatch hready⟩
    have hnot := hstore.held_of_failed_write (planOf m settings request s).path request.source
      (probed m settings s).1.world
    rw [hwrite] at hnot
    exact hnot (by simp) (hspares.probe.trans hfree)
  | @written version world _ hwrite =>
    have hwritten := hstore.held_of_write (planOf m settings request s).path request.source
      (probed m settings s).1.world
    rw [hwrite] at hwritten
    obtain ⟨waited, hheld, hcleaned⟩ := held_settle id started hspares rfl
    have hwaited : held (planOf m settings request s).path waited =
        some (Text.Utf8.encoded request.source) := hheld.trans (hwritten rfl)
    have hleft := hstore.held_cleanup
      ⟨(planOf m settings request s).path, (planOf m settings request s).temporary⟩
      (hwaited ▸ Option.some_ne_none _)
    rw [← hcleaned, hwaited] at hleft
    refine ⟨fun hkeep _ ↦ hleft.trans ?_, fun hkeep _ ↦ hleft.trans ?_⟩ <;>
      simp [temporary_planOf, hkeep]

theorem sourceLeft_execute (hstore : m.store.Keeps held) (request : RunRequest)
    (hspares : Spares m settings held (planOf m settings request s).path
      (clampTimeout request.timeoutSecs) s (approach m settings request s)) :
    SourceLeft m settings held request s (execute m settings request s).1 := by
  rw [execute_eq]
  have hleft := (approaches m settings request s).held_settle_source hstore hspares
    (m.stamp s.world).2.id (m.clock s.world)
  exact ⟨hleft.1, hleft.2⟩

/-- If the interpreter does not answer, all that happened is that it was asked. -/
theorem execute_of_unprobed {request : RunRequest} {failure : RunFailure}
    (h : (probed m settings s).2 = .error failure) :
    (execute m settings request s).1 = (probed m settings s).1 := by
  rw [execute_eq, approach]
  rcases hprobed : probed m settings s with ⟨t, failure | version⟩
  · rfl
  · rw [hprobed] at h
    cases h

/-! ### Scripts that are there -/

theorem approachFile_eq (m : Machine σ) (settings : Settings) (path : Path) (s : RunState σ) :
    (approachFile m settings path s).1 = (probed m settings s).1 ∧
      ∀ source, (approachFile m settings path s).2 = .ok source → source = .existing path := by
  rw [approachFile]
  rcases probed m settings s with ⟨t, failure | version⟩
  · refine ⟨rfl, fun source hsource ↦ ?_⟩
    cases hsource
  · dsimp only
    cases m.store.read path t.world with
    | error fault =>
      refine ⟨rfl, fun source hsource ↦ ?_⟩
      cases hsource
    | ok text => exact ⟨rfl, fun source hsource ↦ (Except.ok.inj hsource).symm⟩

theorem held_executeFile (timeoutSecs : Option Nat)
    (hspares : Spares m settings held path
      (clampTimeout (timeoutSecs.getD settings.execution.defaultTimeoutSecs)) s
      (approachFile m settings path s)) :
    held path (executeFile m settings path timeoutSecs s).1.world = held path s.world := by
  obtain ⟨hstate, hexisting⟩ := approachFile_eq m settings path s
  have happroached : held path (approachFile m settings path s).1.world = held path s.world := by
    rw [hstate]
    exact hspares.probe
  rw [executeFile_eq]
  cases hready : (approachFile m settings path s).2 with
  | error refusal =>
    rw [← Prod.eta (approachFile m settings path s), hready]
    exact happroached
  | ok source =>
    obtain ⟨world, hheld, hcleaned⟩ := held_settle (m.stamp s.world).2.id (m.clock s.world)
      hspares hready
    obtain rfl := hexisting source hready
    rw [hcleaned, MaterializedSource.cleanup_of_not_temporary m.store rfl, hheld, happroached]

/-- A script that is run where it is is neither written nor removed: whatever a store does for
these, the run is the same. -/
theorem executeFile_of_read_eq {store : SourceStore σ} (h : store.read = m.store.read)
    (timeoutSecs : Option Nat) :
    executeFile { m with store := store } settings path timeoutSecs s =
      executeFile m settings path timeoutSecs s := by
  simp only [executeFile, h]
  rfl

/-! ### All together -/

/-- The store of a host keeps the files of the host. -/
theorem keeps_machine_store :
    Host.machine.store.Keeps fun path host ↦ SourceStore.heldIn path host.files :=
  SourceStore.keeps_files.onPart Host.files (fun files host ↦ { host with files := files })
    fun _ _ ↦ rfl

/-- However a run goes, from whatever room that events led to: it leaves the registry as others made
it, and fails with more than a result only if its identity was taken; if the interpreter does not
answer, nothing else was done; a script that is run where it is is neither written nor removed. With
a store that keeps files and an interpreter that leaves the script alone, no temporary file is left
where none was before, a kept source is in its file, and a script holds what it held. -/
theorem runs_leave_no_trace (m : Machine σ) (settings : Settings) (world : σ)
    (past : List RegistryEvent) :
    let s : RunState σ := ⟨world, RegistryRoom.run past⟩
    (∀ request,
      RegistryLeft (m.stamp world).2.id (sightingOf m settings request s) s.room
        (execute m settings request s).1.room (execute m settings request s).2) ∧
    (∀ path timeoutSecs,
      RegistryLeft (m.stamp world).2.id (sightingOfFile m settings path timeoutSecs s) s.room
        (executeFile m settings path timeoutSecs s).1.room
        (executeFile m settings path timeoutSecs s).2) ∧
    (∀ request failure, (probed m settings s).2 = .error failure →
      (execute m settings request s).1 = (probed m settings s).1) ∧
    (∀ path timeoutSecs store, store.read = m.store.read →
      executeFile { m with store := store } settings path timeoutSecs s =
        executeFile m settings path timeoutSecs s) ∧
    ∀ held, m.store.Keeps held →
      (∀ request,
        Spares m settings held (planOf m settings request s).path
          (clampTimeout request.timeoutSecs) s (approach m settings request s) →
        SourceLeft m settings held request s (execute m settings request s).1) ∧
      ∀ path timeoutSecs,
        Spares m settings held path
          (clampTimeout (timeoutSecs.getD settings.execution.defaultTimeoutSecs)) s
          (approachFile m settings path s) →
        held path (executeFile m settings path timeoutSecs s).1.world = held path world := by
  intro s
  have hroom : s.room.Coherent := RegistryRoom.coherent_run past
  refine ⟨registryLeft_execute hroom, registryLeft_executeFile hroom,
    fun request failure ↦ execute_of_unprobed,
    fun path timeoutSecs store hread ↦ executeFile_of_read_eq hread timeoutSecs,
    fun held hstore ↦ ⟨sourceLeft_execute hstore, fun path timeoutSecs ↦ ?_⟩⟩
  exact held_executeFile timeoutSecs

/-- A machine with a tree of files, on which only the store changes files and scripts succeed. -/
def tidy : Machine FileTree where
  clock _ := 0
  stamp tree := (tree, ⟨"20240101_000000", .ofNumber 1⟩)
  probe _ _ tree := (tree, .finished (.exited 0) {})
  store := .files
  start _ tree := (tree, .ok none)
  wait _ tree := (tree, { ending := .exited (.exited 0) })

theorem spares_tidy (settings : Settings) (held : Path → FileTree → Option (List UInt8))
    (path : Path) (timeoutSecs : Nat) (s : RunState FileTree)
    (approached : RunState FileTree × Except Refusal MaterializedSource) :
    Spares tidy settings held path timeoutSecs s approached :=
  ⟨rfl, fun _ _ ↦ rfl, fun _ _ ↦ rfl⟩

/-- The same machine without an interpreter. -/
def bare : Machine FileTree :=
  { tidy with probe := fun _ _ tree ↦ (tree, .notStarted "not found") }

/-- What is left of the runs of a source: nothing if it is not kept, the source if it is, the other
entry if its identity is taken, and nothing without an interpreter. A script that is run where it is
holds what it held. The store of a host keeps files as this one does. -/
theorem runs_leave_no_trace_tidy :
    let request : RunRequest := { source := "flex" }
    let keeping : RunRequest := request.kept (some "a.flex")
    let other : RegistryEvent := .register ⟨.ofNumber 1, none, "flex", "b.flex"⟩
    let s : RunState FileTree := ⟨{}, RegistryRoom.run []⟩
    let taken : RunState FileTree := ⟨{}, RegistryRoom.run [other]⟩
    SourceStore.heldIn (planOf tidy {} request s).path (execute tidy {} request s).1.world = none ∧
    SourceStore.heldIn (planOf tidy {} keeping s).path (execute tidy {} keeping s).1.world =
      some (Text.Utf8.encoded "flex") ∧
    (execute tidy {} request taken).1.room.registry = taken.room.registry ∧
    (execute bare {} request s).1 = (probed bare {} s).1 ∧
    (∀ path, SourceStore.heldIn path (executeFile tidy {} path none s).1.world =
      SourceStore.heldIn path s.world) ∧
    Host.machine.store.Keeps fun path host ↦ SourceStore.heldIn path host.files := by
  intro request keeping other s taken
  have hfiles := (runs_leave_no_trace tidy {} {} []).2.2.2.2 SourceStore.heldIn
    SourceStore.keeps_files
  have hunkept := hfiles.1 request (spares_tidy _ _ _ _ _ _)
  have hkept := hfiles.1 keeping (spares_tidy _ _ _ _ _ _)
  have htaken := (runs_leave_no_trace tidy {} {} [other]).1 request
  have hwritten : (approach tidy {} keeping s).2 =
      .ok ⟨(planOf tidy {} keeping s).path, false⟩ := by
    decide +kernel
  have hanswer : (execute tidy {} request taken).2 = .error (.duplicateIdentity "00000001") := by
    decide +kernel
  exact ⟨hunkept.unkept rfl (by decide +kernel), hkept.kept rfl ⟨_, hwritten⟩,
    (htaken.of_error _ hanswer).2.2, (runs_leave_no_trace bare {} {} []).2.2.1 request _ rfl,
    fun path ↦ hfiles.2 path none (spares_tidy _ _ _ _ _ _), keeps_machine_store⟩

end FlexGate.Executor
