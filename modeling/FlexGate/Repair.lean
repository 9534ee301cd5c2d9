import FlexGate.LoopBound

/-!
Mending of critical loop bounds. On each line the bound of the first inclusive loop header is
replaced by its adjusted form when it is critical; nothing else on the line changes, and neither
do the line breaks.
-/

set_option autoImplicit false
set_option relaxedAutoImplicit false

namespace FlexGate.Repair

def line (text : List Char) : List Char :=
  match LoopHeader.find? text with
  | none => text
  | some header =>
    if header.isCritical then
      text.take header.trimmedStart ++ LoopBound.adjust header.trimmedBound ++
        text.drop (header.trimmedStart + header.trimmedBound.length)
    else text

def source (text : List Char) : List Char :=
  Text.joinLines ((Text.splitLines text).map line)

/-- The string with every critical loop bound mended. -/
def mended (s : String) : String := String.ofList (source s.toList)

theorem line_of_no_header {text : List Char} (h : LoopHeader.find? text = none) :
    line text = text := by
  simp [line, h]

theorem line_of_not_critical {text : List Char} {header : LoopHeader}
    (h : LoopHeader.find? text = some header) (hc : header.isCritical = false) :
    line text = text := by
  simp [line, h, hc]

end FlexGate.Repair
