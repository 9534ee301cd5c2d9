/-!
Examples of safe and unsafe loops, as they are shown to users.
-/

set_option autoImplicit false
set_option relaxedAutoImplicit false

namespace FlexGate

structure LoopExample where
  name : String
  description : String
  code : String
  isSafe : Bool
  deriving DecidableEq, Repr

namespace LoopExample

def all : List LoopExample :=
  [ { name := "safe_array_iteration"
      description := "Franco l7d loop with proper bounds"
      code :=
"dorg myArray = [1, 2, 3, 4, 5]
karr i=0 l7d length(myArray) - 1 {
    etb3(myArray[i])  // Safe access
}
"
      isSafe := true },
    { name := "unsafe_pattern"
      description := "Will cause an out-of-bounds error on the last iteration"
      code :=
"dorg myArray = [1, 2, 3, 4, 5]
karr i=0 l7d length(myArray) {
    etb3(myArray[i])  // ERROR on last iteration!
}
"
      isSafe := false },
    { name := "alternative_english"
      description := "English loops use an exclusive '<' bound"
      code :=
"list myArray = [1, 2, 3, 4, 5]
for(i=0; i<length(myArray); i++) {
    print(myArray[i])  // Safe access
}
"
      isSafe := true } ]

/-- The lines that show an example. -/
def render (e : LoopExample) : String :=
  "== " ++ e.name ++ " [" ++ (if e.isSafe then "SAFE" else "UNSAFE") ++ "]: " ++ e.description ++
    "\n" ++ e.code ++ "\n"

end LoopExample

end FlexGate
