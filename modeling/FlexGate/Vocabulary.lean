import FlexGate.Pattern.Search

/-!
The constructs of Flex as patterns. A Flex program is written with the keywords of one of two
vocabularies, Franco and English; the remaining shapes are common to both.
-/

set_option autoImplicit false
set_option relaxedAutoImplicit false

namespace FlexGate

open Pattern

/-- The kinds of construct that each vocabulary spells in its own way. -/
inductive Construct
  | loop
  | variable
  | function
  | conditional
  | print
  | input
  | booleanTrue
  | booleanFalse
  | whileLoop
  | elseBranch
  | returnStatement
  deriving DecidableEq, Repr

def Construct.all : List Construct :=
  [.loop, .variable, .function, .conditional, .print, .input, .booleanTrue, .booleanFalse,
    .whileLoop, .elseBranch, .returnStatement]

def Construct.name : Construct → String
  | .loop => "loop"
  | .variable => "variable"
  | .function => "function"
  | .conditional => "conditional"
  | .print => "print"
  | .input => "input"
  | .booleanTrue => "boolean_true"
  | .booleanFalse => "boolean_false"
  | .whileLoop => "while_loop"
  | .elseBranch => "else"
  | .returnStatement => "return"

theorem Construct.mem_all (c : Construct) : c ∈ Construct.all := by cases c <;> decide

namespace Shape

def keyword (word : String) : Pattern := .seq (.edge .word) (text word)

def wholeWord (words : List String) : Pattern :=
  sequence [.edge .word, .group 1 (oneOf (words.map text)), .edge .word]

def blanks : Pattern := .many .blank

def blanks1 : Pattern := some1 .blank

def token (c : Char) : Pattern := .char (.only c)

/-- An opening parenthesis, some characters other than a closing one, a closing parenthesis. -/
def arguments1 : Pattern := sequence [token '(', some1 (.allBut ')'), token ')']

/-- As `arguments1`, but nothing need stand between the parentheses. -/
def arguments : Pattern := sequence [token '(', .many (.allBut ')'), token ')']

def noArguments : Pattern := sequence [token '(', blanks, token ')']

def openBrace : Pattern := sequence [blanks, token '{']

/-- A keyword, then anything up to the next opening brace. -/
def headedBlock (word : String) : Pattern :=
  sequence [keyword word, blanks1, some1 (.allBut '{'), openBrace]

/-- A keyword, then a condition in parentheses, then an opening brace. -/
def parenthesizedBlock (word : String) : Pattern :=
  sequence [keyword word, blanks, arguments1, openBrace]

def declaration (types : List String) : Pattern :=
  sequence [.edge .word, .group 1 (oneOf (types.map text)), blanks1, some1 .word]

def definition (word : String) : Pattern :=
  sequence [keyword word, blanks1, some1 .word, blanks, arguments, openBrace]

def call (word : String) (args : Pattern) : Pattern := sequence [keyword word, blanks, args]

def literalWord (word : String) : Pattern := sequence [keyword word, .edge .word]

def elseBlock (word : String) : Pattern := sequence [keyword word, openBrace]

def wordThenBlank (word : String) : Pattern := sequence [keyword word, .char .blank]

/-- The counter of an inclusive loop with its first value, as in `i = 0`. -/
def counter : Pattern :=
  sequence [some1 .word, blanks, token '=', blanks, some1 .digit, blanks1]

/-- The header of an inclusive loop. Group 2 is the bound, with the blanks after it. -/
def inclusiveLoop : Pattern :=
  sequence [keyword "karr", blanks1, optional (.group 1 counter), text "l7d", blanks1,
    .group 2 (some1 (.allBut '{')), openBrace]

def indexedAccess : Pattern :=
  sequence [some1 .word, blanks, token '[', blanks, .group 1 (some1 (.allBut ']')), blanks,
    token ']']

def byZero (operator : Char) : Pattern := sequence [token operator, blanks, token '0', .edge .word]

def divisionByZero : Pattern := byZero '/'

def moduloByZero : Pattern := byZero '%'

def terminator : Pattern := token ';'

/-- A block keyword with no opening brace after it on the line. -/
def headerWithoutBrace : Pattern :=
  sequence [.edge .word,
    .group 1 (oneOf (["lw", "if", "karr", "for", "sndo2", "fun", "talama", "while"].map text)),
    blanks1, .many (.allBut '{'), .edge .textEnd]

/-- An opening brace with no closing brace after it on the line. -/
def unclosedBrace : Pattern := sequence [token '{', .many (.allBut '}'), .edge .textEnd]

/-- A call of one of the builtins that give the number of elements. -/
def lengthCall : Pattern :=
  sequence [.edge .word, oneOf [text "length", text "size"], blanks, arguments1]

def numericLiteral : Pattern := sequence [.edge .word, some1 .digit, .edge .word]

def singleLetterName : Pattern := sequence [.edge .word, .char (.between 'a' 'z'), .edge .word]

def inputCall : Pattern :=
  sequence [.edge .word, .group 1 (oneOf [text "da5l", text "scan"]), blanks, noArguments]

def conditionalGuard : Pattern := wholeWord ["lw", "if"]

/-- A slash that no other slash touches. -/
def divisionOperator : Pattern :=
  sequence [oneOf [.edge .textStart, .char (.allBut '/')], token '/',
    oneOf [.char (.allBut '/'), .edge .textEnd]]

end Shape

/-- The two families of keywords in which Flex can be written. -/
inductive Vocabulary
  | franco
  | english
  deriving DecidableEq, Repr

namespace Vocabulary

open Shape

def pattern : Vocabulary → Construct → Pattern
  | .franco, .loop => inclusiveLoop
  | .franco, .variable => declaration ["rakm", "kasr", "so2al", "klma", "dorg"]
  | .franco, .function => definition "sndo2"
  | .franco, .conditional => headedBlock "lw"
  | .franco, .print => call "etb3" arguments1
  | .franco, .input => call "da5l" noArguments
  | .franco, .booleanTrue => literalWord "sa7"
  | .franco, .booleanFalse => literalWord "ghalt"
  | .franco, .whileLoop => headedBlock "talama"
  | .franco, .elseBranch => elseBlock "gher"
  | .franco, .returnStatement => wordThenBlank "rg3"
  | .english, .loop => parenthesizedBlock "for"
  | .english, .variable => declaration ["int", "float", "bool", "string", "list"]
  | .english, .function => definition "fun"
  | .english, .conditional => parenthesizedBlock "if"
  | .english, .print => call "print" arguments1
  | .english, .input => call "scan" noArguments
  | .english, .booleanTrue => literalWord "true"
  | .english, .booleanFalse => literalWord "false"
  | .english, .whileLoop => parenthesizedBlock "while"
  | .english, .elseBranch => elseBlock "else"
  | .english, .returnStatement => wordThenBlank "return"

/-- The number of matches of each construct in a text, in the order of `Construct.all`. -/
def constructCounts (v : Vocabulary) (text : List Char) : List (Construct × Nat) :=
  Construct.all.map fun c ↦ (c, (v.pattern c).count text)

def count (v : Vocabulary) (text : List Char) : Nat :=
  (v.constructCounts text).foldl (fun n entry ↦ n + entry.2) 0

end Vocabulary

end FlexGate
