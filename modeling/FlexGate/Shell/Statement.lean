/-!
Statements of the shell language that stand-in interpreters are written in. Texts are bytes, each as
the character with its number.
-/

set_option autoImplicit false
set_option relaxedAutoImplicit false

namespace FlexGate.Shell

/-- The value of a parameter, or something made of it by an operator and its operand. -/
structure Parameter where
  name : List Char
  operator : List Char := []
  operand : List Char := []
  deriving DecidableEq, Repr

/-- A part of a word. What is quoted is not cut into fields. -/
inductive WordPart
  | text (chars : List Char) (quoted : Bool)
  | parameter (parameter : Parameter) (quoted : Bool)
  /-- The output of a script. -/
  | output (script : List Char) (quoted : Bool)
  | arithmetic (expression : List Char) (quoted : Bool)
  deriving DecidableEq, Repr

abbrev Word := List WordPart

inductive RedirectionKind
  | read
  | write
  | append
  | duplicate
  | text
  deriving DecidableEq, Repr

structure Redirection where
  channel : Nat
  kind : RedirectionKind
  target : Word
  deriving DecidableEq, Repr

/-- A command with the line that it stands on. -/
structure SimpleCommand where
  line : Nat
  assignments : List (List Char × Word) := []
  words : List Word := []
  redirections : List Redirection := []
  deriving DecidableEq, Repr

inductive Statement
  | nothing
  | simple (command : SimpleCommand)
  | pipe (stages : List Statement)
  | negate (body : Statement)
  | both (first second : Statement)
  | either (first second : Statement)
  | chain (first second : Statement)
  | background (body : Statement)
  | choose (condition body otherwise : Statement)
  /-- Repeats while the condition ends as wanted. -/
  | loop (wanted : Bool) (condition body : Statement)
  | each (name : List Char) (words : Option (List Word)) (body : Statement)
  | select (subject : Word) (cases : List (List Word × Statement))
  | subshell (line : Nat) (body : Statement)
  | redirected (line : Nat) (body : Statement) (redirections : List Redirection)
  | define (name : List Char) (body : Statement)
  /-- Text that is read one statement at a time, from a line on. -/
  | script (line : Nat) (text : List Char)

/-- A text that is no statement. -/
structure SyntaxFault where
  line : Nat
  message : String
  deriving DecidableEq, Repr

end FlexGate.Shell
