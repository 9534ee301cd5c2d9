import FlexGate.Path
import FlexGate.RunId
import FlexGate.Settings.Basic
import FlexGate.Text.Blank

/-!
Where the source of a run is put. A run that keeps nothing gets a file of its own in the temporary
directory; one that keeps its source gets the name that was asked for, in the output directory
unless the name is absolute, and always with an extension of a script.
-/

set_option autoImplicit false
set_option relaxedAutoImplicit false

namespace FlexGate

def lowerAscii (text : List Char) : List Char := text.map Char.toLower

namespace ExecutionSettings

/-- Whether an extension is one of those of scripts, in whatever case. -/
def knowsExtension (s : ExecutionSettings) (ext : List Char) : Bool :=
  s.fileExtensions.any fun known ↦
    lowerAscii (known.toList.dropWhile (· = '.')) == lowerAscii ext

def isScriptName (s : ExecutionSettings) (path : Path) : Bool :=
  match path.extension? with
  | none => false
  | some ext => s.knowsExtension ext

end ExecutionSettings

structure SourcePlan where
  path : Path
  /-- Whether the file goes away when the run is over. -/
  temporary : Bool
  deriving DecidableEq, Repr

namespace SourcePlan

def scriptExtension : List Char := ".flex".toList

def stampedName (start : String) (stamp : RunStamp) : List Char :=
  (start ++ "_" ++ stamp.time ++ "_" ++ stamp.id.short).toList ++ scriptExtension

/-- A path that names a script, with the extension of scripts put after it if it has none. -/
def asScript (s : ExecutionSettings) (path : Path) : Path :=
  if s.isScriptName path then path else path ++ scriptExtension

/-- The name that was asked for without blanks around it, unless that is empty. -/
def wantedName (fileName : Option String) : Option (List Char) :=
  (fileName.map fun name ↦ Text.trim name.toList).filter fun name ↦ !name.isEmpty

def kept (s : ExecutionSettings) (fileName : Option String) (stamp : RunStamp) : Path :=
  match wantedName fileName with
  | some name => asScript s (Path.join s.outputDir.toList name)
  | none => Path.join s.outputDir.toList (stampedName "execution" stamp)

def make (s : ExecutionSettings) (fileName : Option String) (keep : Bool) (stamp : RunStamp) :
    SourcePlan :=
  if keep then ⟨kept s fileName stamp, false⟩
  else ⟨Path.join s.tempDir.toList (stampedName "temp_exec" stamp), true⟩

end SourcePlan

end FlexGate
