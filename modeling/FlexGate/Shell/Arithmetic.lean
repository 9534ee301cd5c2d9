import FlexGate.Shell.Format
import FlexGate.Shell.Session
import FlexGate.Shell.Words

/-!
Arithmetic of the shell language, on words of 64 bits.
-/

set_option autoImplicit false
set_option relaxedAutoImplicit false

namespace FlexGate.Shell.Arithmetic

inductive Symbol
  | number (n : Int)
  | name (text : List Char)
  | operator (text : String)
  | unknown
  deriving DecidableEq, Repr

def operators : List String :=
  ["<<=", ">>=", "+=", "-=", "*=", "/=", "%=", "&=", "|=", "^=", "<<", ">>", "<=", ">=", "==", "!=",
    "&&", "||", "+", "-", "*", "/", "%", "<", ">", "=", "!", "~", "&", "|", "^", "(", ")", "?", ":"]

def symbols : Nat → List Char → List Symbol
  | 0, _ => []
  | _, [] => []
  | fuel + 1, c :: rest =>
    if c = ' ' ∨ c = '\t' ∨ c = '\n' then symbols fuel rest
    else if c.isDigit then
      let (n, rest) := Format.readNumber (c :: rest)
      .number n :: symbols fuel rest
    else if isNameStart c then
      .name (c :: rest.takeWhile isNameChar) :: symbols fuel (rest.dropWhile isNameChar)
    else
      match operators.find? fun op ↦ op.toList.isPrefixOf (c :: rest) with
      | some op => .operator op :: symbols fuel ((c :: rest).drop op.length)
      | none => [.unknown]

def wrap (n : Int) : Int := Int.bmod n UInt64.size

def ofBool (b : Bool) : Int := if b then 1 else 0

/-- Binary operators by rank, the loosest first. -/
def ranks : List (List String) :=
  [["||"], ["&&"], ["|"], ["^"], ["&"], ["==", "!="], ["<", "<=", ">", ">="], ["<<", ">>"],
    ["+", "-"], ["*", "/", "%"]]

inductive Fault
  /-- Something else should follow. -/
  | expecting (what : String)
  | divisionByZero
  | illegalNumber (text : List Char)
  deriving DecidableEq, Repr

def bits (n : Int) : Nat := (n % UInt64.size).toNat

def apply (op : String) (a b : Int) : Except Fault Int :=
  match op with
  | "||" => .ok (ofBool (a != 0 || b != 0))
  | "&&" => .ok (ofBool (a != 0 && b != 0))
  | "|" => .ok (wrap ((bits a ||| bits b : Nat) : Int))
  | "^" => .ok (wrap ((bits a ^^^ bits b : Nat) : Int))
  | "&" => .ok (wrap ((bits a &&& bits b : Nat) : Int))
  | "==" => .ok (ofBool (a == b))
  | "!=" => .ok (ofBool (a != b))
  | "<" => .ok (ofBool (decide (a < b)))
  | "<=" => .ok (ofBool (decide (a ≤ b)))
  | ">" => .ok (ofBool (decide (b < a)))
  | ">=" => .ok (ofBool (decide (b ≤ a)))
  | "<<" => .ok (wrap (a * Nat.pow 2 (b % 64).toNat))
  | ">>" => .ok (wrap (a / Nat.pow 2 (b % 64).toNat))
  | "+" => .ok (wrap (a + b))
  | "-" => .ok (wrap (a - b))
  | "*" => .ok (wrap (a * b))
  | "/" => if b = 0 then .error .divisionByZero else .ok (wrap (a.tdiv b))
  | "%" => if b = 0 then .error .divisionByZero else .ok (wrap (a.tmod b))
  | _ => .error (.expecting "EOF")

/-- Whether an operator is an assignment that also computes. -/
def isAssignment (op : String) : Bool :=
  op.endsWith "=" && !(ranks.any fun rank ↦ rank.contains op)

/-- The number that a variable holds; nothing counts as zero. -/
def valueOf (values : Variables) (name : List Char) : Except Fault Int :=
  let text := (values.lookup name).getD []
  let (n, left) := Format.readSigned text
  if left.all fun c ↦ c = ' ' || c = '\t' || c = '\n' then .ok (wrap n)
  else .error (.illegalNumber text)

/-- The state of a reading: what is left, and the variables. -/
abbrev State := List Symbol × Variables

mutual

/-- An operand with the signs in front of it. -/
def unary (fuel : Nat) (s : State) : Except Fault (Int × State) :=
  match fuel with
  | 0 => .error (.expecting "primary")
  | fuel + 1 =>
    match s.1 with
    | .number n :: rest => .ok (wrap n, (rest, s.2))
    | .name v :: rest => do return (← valueOf s.2 v, (rest, s.2))
    | .operator "-" :: rest => do
      let (n, s) ← unary fuel (rest, s.2)
      return (wrap (-n), s)
    | .operator "+" :: rest => unary fuel (rest, s.2)
    | .operator "!" :: rest => do
      let (n, s) ← unary fuel (rest, s.2)
      return (ofBool (n == 0), s)
    | .operator "~" :: rest => do
      let (n, s) ← unary fuel (rest, s.2)
      return (-n - 1, s)
    | .operator "(" :: rest => do
      let (n, s) ← whole fuel (rest, s.2)
      match s.1 with
      | .operator ")" :: rest => return (n, (rest, s.2))
      | _ => throw (.expecting "')'")
    | _ => .error (.expecting "primary")

/-- Operands joined by operators of the ranks given. -/
def binary (fuel : Nat) (levels : List (List String)) (s : State) : Except Fault (Int × State) :=
  match fuel with
  | 0 => .error (.expecting "primary")
  | fuel + 1 =>
    match levels with
    | [] => unary fuel s
    | level :: tighter => do
      let (first, s) ← binary fuel tighter s
      binaryRest fuel level tighter first s

def binaryRest (fuel : Nat) (level : List String) (tighter : List (List String)) (first : Int)
    (s : State) : Except Fault (Int × State) :=
  match fuel with
  | 0 => .error (.expecting "primary")
  | fuel + 1 =>
    match s.1 with
    | .operator op :: rest =>
      if level.contains op then do
        let (second, s) ← binary fuel tighter (rest, s.2)
        binaryRest fuel level tighter (← apply op first second) s
      else .ok (first, s)
    | _ => .ok (first, s)

/-- A whole expression: an assignment, a choice, or operands joined by operators. -/
def whole (fuel : Nat) (s : State) : Except Fault (Int × State) :=
  match fuel with
  | 0 => .error (.expecting "primary")
  | fuel + 1 =>
    let assigned (v : List Char) (n : Int) (s : State) : State :=
      (s.1, (v, (toString n).toList) :: s.2.filter fun x ↦ x.1 ≠ v)
    let usual : Except Fault (Int × State) := do
      let (n, s) ← binary fuel ranks s
      match s.1 with
      | .operator "?" :: rest => do
        let (a, s) ← whole fuel (rest, s.2)
        match s.1 with
        | .operator ":" :: rest => do
          let (b, s) ← whole fuel (rest, s.2)
          return (if n = 0 then b else a, s)
        | _ => throw (.expecting "':'")
      | _ => return (n, s)
    match s.1 with
    | .name v :: .operator "=" :: rest => do
      let (n, s) ← whole fuel (rest, s.2)
      return (n, assigned v n s)
    | .name v :: .operator op :: rest =>
      if isAssignment op then do
        let (m, s) ← whole fuel (rest, s.2)
        let n ← apply (String.ofList op.toList.dropLast) (← valueOf s.2 v) m
        return (n, assigned v n s)
      else usual
    | _ => usual

end

/-- The value of an expression, and the variables after it. The empty expression is zero. -/
def evaluate (values : Variables) (text : List Char) : Except Fault (Int × Variables) :=
  match symbols (text.length + 1) text with
  | [] => .ok (0, values)
  | list => do
    let (n, s) ← whole (16 * (list.length + 2)) (list, values)
    if s.1.isEmpty then return (n, s.2) else throw (.expecting "EOF")

end FlexGate.Shell.Arithmetic
