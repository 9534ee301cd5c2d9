import FlexGate.Shell.Session

/-!
Conditions on texts, numbers and files.
-/

set_option autoImplicit false
set_option relaxedAutoImplicit false

namespace FlexGate.Shell.Test

def integer? (text : List Char) : Option Int :=
  let text := (text.dropWhile (· = ' ')).reverse.dropWhile (· = ' ') |>.reverse
  match text with
  | '-' :: digits => if digits.isEmpty || !digits.all Char.isDigit then none
      else (String.ofList digits).toNat?.map fun n ↦ -(n : Int)
  | '+' :: digits => if digits.isEmpty || !digits.all Char.isDigit then none
      else (String.ofList digits).toNat?.map fun n ↦ (n : Int)
  | digits => if digits.isEmpty || !digits.all Char.isDigit then none
      else (String.ofList digits).toNat?.map fun n ↦ (n : Int)

def compared (op : String) (a b : Int) : Option Bool :=
  match op with
  | "-eq" => some (a == b)
  | "-ne" => some (a != b)
  | "-lt" => some (decide (a < b))
  | "-le" => some (decide (a ≤ b))
  | "-gt" => some (decide (b < a))
  | "-ge" => some (decide (b ≤ a))
  | _ => none

/-- How an operator joins what is around it. -/
inductive Role
  | unary
  | binary
  | negation
  | conjunction
  | disjunction
  | opening
  | closing
  | operand
  | finish
  deriving DecidableEq, Repr

def unaryOperators : List String :=
  ["-r", "-w", "-x", "-e", "-f", "-d", "-c", "-b", "-p", "-u", "-g", "-k", "-s", "-t", "-z", "-n",
    "-h", "-O", "-G", "-L", "-S"]

def binaryOperators : List String :=
  ["=", "!=", "<", ">", "-eq", "-ne", "-ge", "-gt", "-le", "-lt", "-nt", "-ot", "-ef"]

def roleOfText (text : List Char) : Role :=
  let op := String.ofList text
  if unaryOperators.contains op then .unary
  else if binaryOperators.contains op then .binary
  else if op = "!" then .negation
  else if op = "-a" then .conjunction
  else if op = "-o" then .disjunction
  else if op = "(" then .opening
  else if op = ")" then .closing
  else .operand

/-- The role of the first text, which is an operand where nothing else makes sense. -/
def role : List (List Char) → Role
  | [] => .finish
  | text :: rest =>
    match roleOfText text, rest with
    | .unary, [] => .operand
    | .unary, [_] => .unary
    | .unary, next :: _ :: _ => if roleOfText next = .binary then .operand else .unary
    | .opening, [] => .operand
    | r, _ => r

def devNull : Path := "/dev/null".toList

def unary (files : FileTree) (op : String) (text : List Char) : Bool :=
  let path := toText text
  let isThere := files.exists? path || path == devNull
  match op with
  | "-n" => !text.isEmpty
  | "-z" => text.isEmpty
  | "-f" => files.isFile path
  | "-d" => files.isDirectory path
  | "-c" => path == devNull
  | "-s" => files.isDirectory path || ((files.readBytes path).toOption.any fun b ↦ !b.isEmpty)
  | "-x" =>
    match files.find path with
    | .ok (_, .file _ executable) => executable
    | .ok (_, .directory) => true
    | .error _ => false
  | op => ["-e", "-r", "-w", "-O", "-G"].contains op && isThere

def illegalNumber (text : List Char) : String := "Illegal number: " ++ String.ofList text

def binary (files : FileTree) (a : List Char) (op : String) (b : List Char) : Except String Bool :=
  match op with
  | "=" => .ok (a == b)
  | "!=" => .ok (a != b)
  | "<" => .ok (decide (a < b))
  | ">" => .ok (decide (b < a))
  | "-nt" => .ok (files.exists? (toText a) && !files.exists? (toText b))
  | "-ot" => .ok (files.exists? (toText b) && !files.exists? (toText a))
  | "-ef" =>
    .ok (match files.find (toText a), files.find (toText b) with
      | .ok (p, _), .ok (q, _) => p == q
      | _, _ => false)
  | op =>
    match integer? a, integer? b with
    | none, _ => .error (illegalNumber a)
    | _, none => .error (illegalNumber b)
    | some m, some n => .ok ((compared op m n).getD false)

def fault {α : Type} (op : List Char) (message : String) : Except String α :=
  .error (String.ofList op ++ ": " ++ message)

/-- A verdict, and the texts from the last one that was used on. -/
abbrev Verdict := Except String (Bool × List (List Char))

mutual

/-- An operand, or operators with their operands. -/
def primary (files : FileTree) (fuel : Nat) (texts : List (List Char)) : Verdict :=
  match fuel, texts with
  | 0, _ => .ok (false, texts)
  | _, [] => .ok (false, [])
  | fuel + 1, text :: rest =>
    match role texts with
    | .opening =>
      if role rest = .closing then .ok (false, rest)
      else do
        let (b, left) ← disjunction files fuel rest
        if role (left.drop 1) = .closing then return (b, left.drop 1)
        else throw "closing paren expected"
    | .unary =>
      match rest with
      | [] => fault text "argument expected"
      | operand :: _ => .ok (unary files (String.ofList text) operand, rest)
    | _ =>
      match role rest, rest with
      | .binary, op :: second :: more => do
        return (← binary files text (String.ofList op) second, second :: more)
      | .binary, [op] => fault op "argument expected"
      | _, _ => .ok (!text.isEmpty, texts)

def negation (files : FileTree) (fuel : Nat) (texts : List (List Char)) : Verdict :=
  match fuel with
  | 0 => .ok (false, texts)
  | fuel + 1 =>
    if role texts = .negation then do
      let rest := texts.drop 1
      let (b, left) ← if rest = [] then pure (false, texts) else negation files fuel rest
      return (!b, left)
    else primary files fuel texts

def conjunction (files : FileTree) (fuel : Nat) (texts : List (List Char)) : Verdict :=
  match fuel with
  | 0 => .ok (false, texts)
  | fuel + 1 => do
    let (b, left) ← negation files fuel texts
    if role (left.drop 1) = .conjunction then
      let (c, left) ← conjunction files fuel (left.drop 2)
      return (b && c, left)
    else return (b, left)

def disjunction (files : FileTree) (fuel : Nat) (texts : List (List Char)) : Verdict :=
  match fuel with
  | 0 => .ok (false, texts)
  | fuel + 1 => do
    let (b, left) ← conjunction files fuel texts
    if role (left.drop 1) = .disjunction then
      let (c, left) ← disjunction files fuel (left.drop 2)
      return (b || c, left)
    else return (b, left)

end

/-- The verdict on whole texts. -/
def whole (files : FileTree) (texts : List (List Char)) : Except String Bool := do
  let (b, left) ← disjunction files (8 * (texts.length + 1)) texts
  match left with
  | last :: _ :: _ => fault last "unexpected operator"
  | _ => return b

/-- The verdict on some texts. Three or four of them are read by their number first. -/
def evaluate (files : FileTree) : Nat → List (List Char) → Except String Bool
  | 0, _ => .ok false
  | _, [] => .ok false
  | fuel + 1, texts =>
    match texts with
    | [a, op, b] =>
      if roleOfText op = .binary then binary files a (String.ofList op) b
      else few fuel texts
    | [_, _, _, _] => few fuel texts
    | texts => whole files texts
where
  few (fuel : Nat) (texts : List (List Char)) : Except String Bool :=
    let first := (texts.head?.map roleOfText).getD .operand
    let last := (texts.getLast?.map roleOfText).getD .operand
    if first = .opening ∧ last = .closing then whole files (texts.drop 1).dropLast
    else if first = .negation then (evaluate files fuel (texts.drop 1)).map (!·)
    else whole files texts

end FlexGate.Shell.Test
