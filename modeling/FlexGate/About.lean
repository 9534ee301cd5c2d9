/-!
What the program says about itself.
-/

set_option autoImplicit false
set_option relaxedAutoImplicit false

namespace FlexGate.About

def name : String := "flexguard"

def version : String := "0.1.0"

def description : String :=
  "flexguard - A validate-then-execute safety pipeline for Flex scripts, written in Rust"

end FlexGate.About
