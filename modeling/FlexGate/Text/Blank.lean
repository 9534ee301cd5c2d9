import FlexGate.Text.Range

/-!
Blank characters and trimming. A character is blank when it has the White_Space property, which
includes the no-break spaces and the line and paragraph separators.
-/

set_option autoImplicit false
set_option relaxedAutoImplicit false

namespace FlexGate.Text

/-- Ranges of the White_Space property above ASCII. -/
def blankRanges : List (Nat × Nat) :=
  [(0x85, 0x85), (0xA0, 0xA0), (0x1680, 0x1680), (0x2000, 0x200A), (0x2028, 0x2029),
   (0x202F, 0x202F), (0x205F, 0x205F), (0x3000, 0x3000)]

def isBlank (c : Char) : Bool :=
  if c.toNat < 128 then c == ' ' || ('\t' ≤ c && c ≤ '\r') else inRanges blankRanges c.toNat

def trimStart (text : List Char) : List Char := text.dropWhile isBlank

def trimEnd (text : List Char) : List Char := (text.reverse.dropWhile isBlank).reverse

def trim (text : List Char) : List Char := trimEnd (trimStart text)

/-- The string without blank characters at either end. -/
def trimmed (s : String) : String := String.ofList (trim s.toList)

theorem trimStart_append_eq (text : List Char) :
    text.takeWhile isBlank ++ trimStart text = text :=
  List.takeWhile_append_dropWhile

end FlexGate.Text
