/-!
Patterns for whole texts: a star for any text, a question mark for any character, brackets for one
of some characters.
-/

set_option autoImplicit false
set_option relaxedAutoImplicit false

namespace FlexGate.Shell

inductive Wildcard
  | exactly (c : Char)
  | any
  | many
  | oneOf (wanted : Bool) (ranges : List (Char × Char))
  deriving DecidableEq, Repr

namespace Wildcard

/-- The ranges between brackets. -/
def ranges : List Char → List (Char × Char)
  | a :: '-' :: b :: rest => (a, b) :: ranges rest
  | a :: rest => (a, a) :: ranges rest
  | [] => []

/-- The wildcards of characters, of which some are quoted and stand for themselves. -/
def ofChars : Nat → List (Char × Bool) → List Wildcard
  | 0, _ => []
  | _, [] => []
  | fuel + 1, ('*', false) :: rest => .many :: ofChars fuel rest
  | fuel + 1, ('?', false) :: rest => .any :: ofChars fuel rest
  | fuel + 1, ('[', false) :: rest =>
    let first := rest.takeWhile fun x ↦ x.1 = '!'
    let closed := (rest.drop first.length).head?.map Prod.fst = some ']'
    let front := first.length + (if closed then 1 else 0)
    let inner := rest.take front ++ (rest.drop front).takeWhile fun x ↦ x.1 ≠ ']'
    if inner.length = rest.length ∨ inner = [] then .exactly '[' :: ofChars fuel rest
    else
      let text := inner.map Prod.fst
      let negated := text.head? = some '!'
      .oneOf (!negated) (ranges (if negated then text.drop 1 else text)) ::
        ofChars fuel (rest.drop (inner.length + 1))
  | fuel + 1, (c, _) :: rest => .exactly c :: ofChars fuel rest

def accepts (w : Wildcard) (c : Char) : Bool :=
  match w with
  | .exactly d => c == d
  | .any => true
  | .many => true
  | .oneOf wanted list => list.any (fun r ↦ r.1 ≤ c && c ≤ r.2) == wanted

/-- Whether wildcards stand for a whole text. -/
def fits : List Wildcard → List Char → Bool
  | [], text => text.isEmpty
  | .many :: rest, [] => fits rest []
  | .many :: rest, c :: text => fits rest (c :: text) || fits (.many :: rest) text
  | _ :: _, [] => false
  | w :: rest, c :: text => w.accepts c && fits rest text
termination_by ws text => ws.length + text.length

end Wildcard

end FlexGate.Shell
