import FlexGate.Execution.Executor
import FlexGate.Proofs.Registry.Bystanders

/-!
# The way to a process and from it

A source and a script that is there already are run in two ways that differ only before a process is
started: the source is written to its file, the script is read (`approach`, `approachFile`). Each
comes to a script that is ready, or is refused, and from there on there is one way (`settle`,
`execute_eq`, `executeFile_eq`).

What a script that is ready comes to is said once (`ScriptRuns`): its process does not start, or its
identity is taken, or it is registered and waited for. Only in the last case is anything seen of a
process (`Sighting`).
-/

set_option autoImplicit false
set_option relaxedAutoImplicit false

namespace FlexGate.Executor

variable {σ : Type} (m : Machine σ) (settings : Settings)

/-! ### Before a process is started -/

/-- Why a run is refused before a process is started, with the file that it would have been run
from, once that is known. -/
structure Refusal where
  failure : RunFailure
  script : Option String
  deriving DecidableEq, Repr

/-- The state in which a run has its identity and the interpreter was probed, and what it said. -/
def probed (s : RunState σ) : RunState σ × Except RunFailure String :=
  probe m settings.interpreter { s with world := (m.stamp s.world).1 }

/-- Where the source of a request is put. -/
def planOf (request : RunRequest) (s : RunState σ) : SourcePlan :=
  SourcePlan.make settings.execution request.fileName request.keep (m.stamp s.world).2

/-- The source of a request is written, if there is an interpreter for it. -/
def approach (request : RunRequest) (s : RunState σ) :
    RunState σ × Except Refusal MaterializedSource :=
  match probed m settings s with
  | (t, .error failure) => (t, .error ⟨failure, none⟩)
  | (t, .ok _) =>
    let plan := planOf m settings request s
    match MaterializedSource.write m.store plan request.source t.world with
    | (world, .error failure) =>
      ({ t with world := world }, .error ⟨failure, some (String.ofList plan.path)⟩)
    | (world, .ok source) => ({ t with world := world }, .ok source)

/-- A script is read, if there is an interpreter for it. -/
def approachFile (path : Path) (s : RunState σ) :
    RunState σ × Except Refusal MaterializedSource :=
  match probed m settings s with
  | (t, .error failure) => (t, .error ⟨failure, none⟩)
  | (t, .ok _) =>
    match m.store.read path t.world with
    | .error fault =>
      let text := String.ofList path
      (t, .error ⟨.materializationFailed (some text)
        ("cannot read " ++ text ++ ": " ++ fault.message), some text⟩)
    | .ok _ => (t, .ok (.existing path))

/-- What comes of a run that was refused, or of a script that is ready. -/
def settle (id : RunId) (timeoutSecs started : Nat) :
    RunState σ × Except Refusal MaterializedSource → RunState σ × Except Failure RunResult
  | (s, .error refusal) =>
    (s, .ok (.refused refusal.failure (elapsed m started s) refusal.script))
  | (s, .ok source) => runSource m settings source id timeoutSecs started s

/-- What comes of a source before a process is started: the interpreter does not answer, or the
source cannot be written, or it is written to where it was planned. -/
inductive Approaches (request : RunRequest) (s : RunState σ) :
    RunState σ → Except Refusal MaterializedSource → Prop
  | unprobed {failure : RunFailure} (hprobe : (probed m settings s).2 = .error failure) :
    Approaches request s (probed m settings s).1 (.error ⟨failure, none⟩)
  | unwritten {version : String} {world : σ} {fault : IoFault}
    (hprobe : (probed m settings s).2 = .ok version)
    (hwrite : m.store.write (planOf m settings request s).path request.source
      (probed m settings s).1.world = (world, some fault)) :
    Approaches request s { (probed m settings s).1 with world := world }
      (.error ⟨MaterializedSource.writeFailure (planOf m settings request s).path fault,
        some (String.ofList (planOf m settings request s).path)⟩)
  | written {version : String} {world : σ} (hprobe : (probed m settings s).2 = .ok version)
    (hwrite : m.store.write (planOf m settings request s).path request.source
      (probed m settings s).1.world = (world, none)) :
    Approaches request s { (probed m settings s).1 with world := world }
      (.ok ⟨(planOf m settings request s).path, (planOf m settings request s).temporary⟩)

theorem approaches (request : RunRequest) (s : RunState σ) :
    Approaches m settings request s (approach m settings request s).1
      (approach m settings request s).2 := by
  rw [approach]
  rcases hprobed : probed m settings s with ⟨t, failure | version⟩
  · have hprobe : (probed m settings s).2 = .error failure := by rw [hprobed]
    simpa [hprobed] using Approaches.unprobed (m := m) hprobe
  · have hprobe : (probed m settings s).2 = .ok version := by rw [hprobed]
    dsimp only
    rw [MaterializedSource.write]
    rcases hwrite : m.store.write (planOf m settings request s).path request.source t.world with
      ⟨world, _ | fault⟩
    · have hwrite' : m.store.write (planOf m settings request s).path request.source
          (probed m settings s).1.world = (world, none) := by rw [hprobed, hwrite]
      simpa [hprobed] using Approaches.written hprobe hwrite'
    · have hwrite' : m.store.write (planOf m settings request s).path request.source
          (probed m settings s).1.world = (world, some fault) := by rw [hprobed, hwrite]
      simpa [hprobed] using Approaches.unwritten hprobe hwrite'

theorem execute_eq (request : RunRequest) (s : RunState σ) :
    execute m settings request s =
      settle m settings (m.stamp s.world).2.id (clampTimeout request.timeoutSecs)
        (m.clock s.world) (approach m settings request s) := by
  simp only [execute, approach, probed, planOf]
  generalize probe m settings.interpreter { s with world := (m.stamp s.world).1 } = answered
  obtain ⟨t, failure | version⟩ := answered
  · rfl
  · dsimp only
    generalize MaterializedSource.write m.store _ request.source t.world = written
    obtain ⟨world, failure | source⟩ := written <;> rfl

theorem executeFile_eq (path : Path) (timeoutSecs : Option Nat) (s : RunState σ) :
    executeFile m settings path timeoutSecs s =
      settle m settings (m.stamp s.world).2.id
        (clampTimeout (timeoutSecs.getD settings.execution.defaultTimeoutSecs))
        (m.clock s.world) (approachFile m settings path s) := by
  simp only [executeFile, approachFile, probed]
  generalize probe m settings.interpreter { s with world := (m.stamp s.world).1 } = answered
  obtain ⟨t, failure | version⟩ := answered
  · rfl
  · dsimp only
    cases m.store.read path t.world <;> rfl

@[simp] theorem room_probed (s : RunState σ) : (probed m settings s).1.room = s.room := rfl

theorem Approaches.room_eq {request : RunRequest} {s t : RunState σ}
    {answer : Except Refusal MaterializedSource} (h : Approaches m settings request s t answer) :
    t.room = s.room := by
  cases h <;> rfl

@[simp] theorem room_approach (request : RunRequest) (s : RunState σ) :
    (approach m settings request s).1.room = s.room :=
  (approaches m settings request s).room_eq

@[simp] theorem room_approachFile (path : Path) (s : RunState σ) :
    (approachFile m settings path s).1.room = s.room := by
  rw [approachFile, ← room_probed m settings s]
  generalize probed m settings s = answered
  obtain ⟨t, failure | version⟩ := answered
  · rfl
  · dsimp only
    cases m.store.read path t.world <;> rfl

/-! ### A process and after -/

/-- What is seen of a process that was registered: what its mailbox held when the wait for it was
over, and how it went on. -/
structure Sighting where
  mailbox : Mailbox
  course : Course

/-- What others did to the registry while a process was registered, if one was. -/
def Sighting.events : Option Sighting → List RegistryEvent
  | none => []
  | some sighting => sighting.course.others ++ sighting.course.later

/-- The handle that a launch is registered with. -/
def handleOf (l : Launch) (id : RunId) (pid : Option Nat) : RunHandle :=
  ⟨id, pid, l.interpreter, String.ofList l.script⟩

/-- What the launch of a script comes to. -/
inductive ScriptRuns (l : Launch) (id : RunId) (started : Nat) (s : RunState σ) :
    RunState σ → Except Failure RunResult → Option Sighting → Prop
  | refused {world : σ} {reason : String} (hstart : m.start l s.world = (world, .error reason)) :
    ScriptRuns l id started s { s with world := world }
      (.ok (.refused (.spawnFailed l.interpreter reason)
        (elapsed m started { s with world := world }) (some (String.ofList l.script)))) none
  | duplicate {world : σ} {pid : Option Nat} (hstart : m.start l s.world = (world, .ok pid))
    (htaken : s.room.registry.contains id = true) :
    ScriptRuns l id started s ⟨world, (s.room.register (handleOf l id pid)).1⟩
      (.error (.duplicateIdentity id.text)) none
  | ended {world after : σ} {pid : Option Nat} {course : Course} {mailbox : Mailbox}
    {room : RegistryRoom} (hstart : m.start l s.world = (world, .ok pid))
    (hfree : s.room.registry.contains id = false) (hwait : m.wait l world = (after, course))
    (hmailbox : (course.others.foldl RegistryRoom.apply
      (s.room.register (handleOf l id pid)).1).mailbox s.room.next = mailbox)
    (hroom : (s.room.register (handleOf l id pid)).1.depart ⟨s.room.next, id⟩ course.others
      course.later = room) :
    ScriptRuns l id started s ⟨after, room⟩
      (.ok (.ended (failureOf l mailbox course) course.output (statusOf mailbox course)
        (elapsed m started ⟨after, room⟩) (String.ofList l.script)))
      (some ⟨mailbox, course⟩)

/-- What is seen of the process of a launch, if it starts and can be registered. -/
def watch (l : Launch) (id : RunId) (s : RunState σ) : Option Sighting :=
  match m.start l s.world with
  | (_, .error _) => none
  | (world, .ok pid) =>
    if s.room.registry.contains id then none
    else
      let course := (m.wait l world).2
      let registered := (s.room.register (handleOf l id pid)).1
      some ⟨(course.others.foldl RegistryRoom.apply registered).mailbox s.room.next, course⟩

theorem finish_eq (l : Launch) (guard : Guard) (started : Nat) (s : RunState σ) :
    finish m l guard started s =
      let (world, course) := m.wait l s.world
      let mailbox := (course.others.foldl RegistryRoom.apply s.room).mailbox guard.ticket
      let after : RunState σ := ⟨world, s.room.depart guard course.others course.later⟩
      (after, .ended (failureOf l mailbox course) course.output (statusOf mailbox course)
        (elapsed m started after) (String.ofList l.script)) := by
  simp only [finish, ← RegistryRoom.snd_read]
  rfl

theorem scriptRuns_runScript (l : Launch) (id : RunId) (started : Nat) (s : RunState σ) :
    ScriptRuns m l id started s (runScript m l id started s).1 (runScript m l id started s).2
      (watch m l id s) := by
  rw [runScript, watch]
  rcases hstart : m.start l s.world with ⟨world, reason | pid⟩
  · exact .refused hstart
  · dsimp only
    rw [← handleOf]
    cases hc : s.room.registry.contains id with
    | true =>
      have hregister : s.room.register (handleOf l id pid) =
          ((s.room.register (handleOf l id pid)).1, none) :=
        Prod.ext rfl (RegistryRoom.register_eq_none_iff.mpr hc)
      rw [hregister]
      exact .duplicate hstart hc
    | false =>
      have hregister : s.room.register (handleOf l id pid) =
          ((s.room.register (handleOf l id pid)).1, some ⟨s.room.next, id⟩) :=
        Prod.ext rfl (RegistryRoom.register_eq_some_iff.mpr ⟨hc, rfl⟩)
      rw [hregister]
      dsimp only
      rw [finish_eq]
      exact .ended hstart hc rfl rfl rfl

/-! ### The two ways together -/

/-- What is seen of the process of a run that came so far, if it comes to one. -/
def sighting (id : RunId) (timeoutSecs : Nat) :
    RunState σ × Except Refusal MaterializedSource → Option Sighting
  | (_, .error _) => none
  | (s, .ok source) => watch m (launch settings source.path timeoutSecs) id s

/-- What is seen of the process of a request. -/
def sightingOf (request : RunRequest) (s : RunState σ) : Option Sighting :=
  sighting m settings (m.stamp s.world).2.id (clampTimeout request.timeoutSecs)
    (approach m settings request s)

/-- What is seen of the process of a script that is run where it is. -/
def sightingOfFile (path : Path) (timeoutSecs : Option Nat) (s : RunState σ) : Option Sighting :=
  sighting m settings (m.stamp s.world).2.id
    (clampTimeout (timeoutSecs.getD settings.execution.defaultTimeoutSecs))
    (approachFile m settings path s)

end FlexGate.Executor
