import FlexGate.Number.Compact

/-!
JSON values and their text. In a text, objects and arrays are laid out with one member a line and
two spaces for each level.
-/

set_option autoImplicit false
set_option relaxedAutoImplicit false

namespace FlexGate

inductive Json
  | null
  | bool (value : Bool)
  | integer (value : Int)
  | single (value : Binary)
  | double (value : Binary)
  | string (value : String)
  | array (items : List Json)
  | object (members : List (String × Json))

namespace Json

def ofNat (n : Nat) : Json := .integer n

def ofOption {α : Type} (f : α → Json) : Option α → Json
  | none => .null
  | some a => f a

def ofList {α : Type} (f : α → Json) (items : List α) : Json := .array (items.map f)

def hexDigit (n : Nat) : Char := (Nat.toDigits 16 n).headD '0'

def escaped (c : Char) : List Char :=
  if c = '"' then ['\\', '"']
  else if c = '\\' then ['\\', '\\']
  else if c = '\n' then ['\\', 'n']
  else if c = '\r' then ['\\', 'r']
  else if c = '\t' then ['\\', 't']
  else if c = '\x08' then ['\\', 'b']
  else if c = '\x0c' then ['\\', 'f']
  else if c.toNat < 32 then ['\\', 'u', '0', '0', hexDigit (c.toNat / 16), hexDigit (c.toNat % 16)]
  else [c]

def quoted (s : String) : String := "\"" ++ String.ofList (s.toList.flatMap escaped) ++ "\""

def indentation (level : Nat) : String := String.ofList (List.replicate (2 * level) ' ')

/-- Members between brackets, one a line, or nothing between them. -/
def bracketed (opening closing : Char) (level : Nat) (members : List String) : String :=
  match members with
  | [] => String.ofList [opening, closing]
  | _ =>
    String.singleton opening ++ "\n" ++
      ",\n".intercalate (members.map fun m ↦ indentation (level + 1) ++ m) ++
      "\n" ++ indentation level ++ String.singleton closing

mutual

def pretty (level : Nat) : Json → String
  | .null => "null"
  | .bool value => if value then "true" else "false"
  | .integer value => toString value
  | .single value => (value.compact? .single .single).getD "null"
  | .double value => (value.compact? .double .double).getD "null"
  | .string value => quoted value
  | .array items => bracketed '[' ']' level (prettyItems (level + 1) items)
  | .object members => bracketed '{' '}' level (prettyMembers (level + 1) members)

def prettyItems (level : Nat) : List Json → List String
  | [] => []
  | item :: rest => pretty level item :: prettyItems level rest

def prettyMembers (level : Nat) : List (String × Json) → List String
  | [] => []
  | (name, value) :: rest =>
    (quoted name ++ ": " ++ pretty level value) :: prettyMembers level rest

end

def render (j : Json) : String := pretty 0 j

end Json

end FlexGate
