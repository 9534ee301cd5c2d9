/-!
UTF-8. Bytes are read one at a time: each either completes a character, or belongs to one that is
not complete, or shows that what was read so far is no character. What cannot be read falls into
parts, each as long as it could still have become a character.
-/

set_option autoImplicit false
set_option relaxedAutoImplicit false

namespace FlexGate.Text.Utf8

def encode (text : List Char) : List UInt8 := text.flatMap String.utf8EncodeChar

def encoded (s : String) : List UInt8 := encode s.toList

/-- A character of which some bytes were read: its bits so far, how many bytes are missing, and the
range that the next of them lies in. -/
structure Partial where
  bits : Nat
  missing : Nat
  low : Nat := 0x80
  high : Nat := 0xBF

/-- What is known after one byte: the characters and unreadable parts that are complete now, and
the character that is not. -/
abbrev Progress := List (Option Char) × Option Partial

/-- Reads the first byte of a character. The range of the second byte leaves out overlong forms,
surrogates and what lies beyond the last code point. -/
def start (b : Nat) : Progress :=
  if b < 0x80 then ([some (Char.ofNat b)], none)
  else if b < 0xC2 then ([none], none)
  else if b < 0xE0 then ([], some ⟨b - 0xC0, 1, 0x80, 0xBF⟩)
  else if b = 0xE0 then ([], some ⟨0, 2, 0xA0, 0xBF⟩)
  else if b = 0xED then ([], some ⟨0xD, 2, 0x80, 0x9F⟩)
  else if b < 0xF0 then ([], some ⟨b - 0xE0, 2, 0x80, 0xBF⟩)
  else if b = 0xF0 then ([], some ⟨0, 3, 0x90, 0xBF⟩)
  else if b < 0xF4 then ([], some ⟨b - 0xF0, 3, 0x80, 0xBF⟩)
  else if b = 0xF4 then ([], some ⟨4, 3, 0x80, 0x8F⟩)
  else ([none], none)

def step : Option Partial → Nat → Progress
  | none, b => start b
  | some p, b =>
    if p.low ≤ b ∧ b ≤ p.high then
      let bits := p.bits * 64 + (b - 0x80)
      if p.missing ≤ 1 then ([some (Char.ofNat bits)], none)
      else ([], some ⟨bits, p.missing - 1, 0x80, 0xBF⟩)
    else
      let (parts, next) := start b
      (none :: parts, next)

def partsFrom : Option Partial → List UInt8 → List (Option Char)
  | none, [] => []
  | some _, [] => [none]
  | p, b :: rest =>
    let (parts, next) := step p b.toNat
    parts ++ partsFrom next rest

/-- The characters of some bytes in order, with nothing in place of a part that is none. -/
def parts (bytes : List UInt8) : List (Option Char) := partsFrom none bytes

/-- The text that some bytes encode, if they all encode characters. -/
def decode? (bytes : List UInt8) : Option (List Char) := (parts bytes).mapM id

/-- The text of some bytes, with a replacement character for each part that is no character. -/
def decodeLossy (bytes : List UInt8) : List Char := (parts bytes).map (·.getD '\uFFFD')

def lossyText (bytes : List UInt8) : String := String.ofList (decodeLossy bytes)

end FlexGate.Text.Utf8
