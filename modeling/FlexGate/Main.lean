import FlexGate.CommandLine.Usage
import FlexGate.Host
import Std.Time.Zoned

/-!
The program. It looks at the files that the arguments and the settings name, carries the command out
on a tree of them, and then brings the disk in line with the tree.
-/

set_option autoImplicit false
set_option relaxedAutoImplicit false

namespace FlexGate.Main

/-- The tree with what the disk has at a path, if it has anything there. -/
def look (t : FileTree) (path : String) : IO FileTree := do
  try
    let bytes ← IO.FS.readBinFile path
    return (t.install path.toList bytes.toList true).toOption.getD t
  catch
    | .inappropriateType .. => return (t.makeDirectories path.toList).1
    | _ => return t

def lookAll (t : FileTree) (paths : List String) : IO FileTree := paths.foldlM look t

/-- A tree with nothing but the working directory and what is above it. -/
def emptyTree : IO FileTree := do
  let path : Path := (toString (← IO.currentDir)).toList
  let (files, _) := FileTree.makeDirectories {} path
  return { files with here := path.segments.filter fun s ↦ !s.isEmpty }

def variableNames : List String :=
  ["FLEX_CLI_PATH", "FLEX_TEMP_DIR", "FLEX_EXAMPLES_DIR", "FLEX_FILE_EXTENSIONS",
    "EXECUTION_TIMEOUT"]

def environment : IO Settings.Environment := do
  let values ← variableNames.mapM fun name ↦ return (name, ← IO.getEnv name)
  return fun name ↦ (values.lookup name).join

def scriptOf? : FlexGate.Command → Option String
  | .check file _ => some file
  | .fix file _ => some file
  | .run file _ _ _ _ => some file
  | _ => none

/-- The paths at which an interpreter may be found. -/
def interpreterPaths (interpreter : String) : List String :=
  if interpreter.contains '/' then [interpreter]
  else Host.programDirectories.map (· ++ interpreter)

/-- All files that a command can read. -/
def readable (cl : CommandLine) (env : Settings.Environment) : IO FileTree := do
  let files ← lookAll (← emptyTree)
    (cl.config.getD defaultSettingsFile :: (scriptOf? cl.command).toList)
  match Settings.load files env cl.config with
  | .error _ => return files
  | .ok s =>
    lookAll files
      (s.execution.tempDir :: s.execution.outputDir :: interpreterPaths s.interpreter.path)

def diskPath (place : Place) : String :=
  String.join (place.map fun name ↦ "/" ++ String.ofList name)

/-- Brings the disk in line with a tree, given the tree that it is in line with. -/
def putBack (before after : FileTree) : IO Unit := do
  for (place, node) in after.nodes do
    if before.get? place ≠ some node then
      match node with
      | .directory => IO.FS.createDirAll (diskPath place)
      | .file bytes _ => IO.FS.writeBinFile (diskPath place) ⟨bytes.toArray⟩
  for (place, node) in before.nodes.reverse do
    if after.get? place = none then
      match node with
      | .directory => IO.FS.removeDir (diskPath place)
      | .file _ _ => IO.FS.removeFile (diskPath place)

def twoDigits (n : Int) : String :=
  let digits := toString n
  if digits.length < 2 then "0" ++ digits else digits

/-- The local time as a date and a time of day. -/
def timeText : IO String := do
  let now ← Std.Time.PlainDateTime.now
  return toString (now.year : Int) ++ twoDigits now.month.val ++ twoDigits now.day.val ++ "_" ++
    twoDigits now.hour.val ++ twoDigits now.minute.val ++ twoDigits now.second.val

/-- What a process of the host is taken to use. -/
def sample : ResourceSample := ⟨Binary.ofNat .double 2, Binary.ofNat .single 0⟩

def carryOut (cl : CommandLine) : IO Console := do
  let env ← environment
  let files ← readable cl env
  let time ← timeText
  let seed ← IO.rand 0 (UInt32.size - 1)
  let terminal := (← (← IO.getStderr).isTty) && (← IO.getEnv "NO_COLOR").isNone
  let ctx : CommandContext Host :=
    { machine := Host.machine
      files := Host.files
      putFiles := fun files host ↦ { host with files := files }
      environment := env
      terminal := terminal }
  let host : Host :=
    { files := files, stamps := fun n ↦ ⟨time, .ofNumber (seed + n)⟩, sample := sample }
  let (state, console) := cl.run ctx ⟨host, {}⟩
  putBack files state.world.files
  return console

end FlexGate.Main

def main (arguments : List String) : IO UInt32 := do
  let console ←
    match FlexGate.CommandLine.parse arguments with
    | .error fault => pure fault.console
    | .ok cl => FlexGate.Main.carryOut cl
  (← IO.getStdout).putStr console.stdout
  (← IO.getStderr).putStr console.stderr
  return console.code.toUInt32
