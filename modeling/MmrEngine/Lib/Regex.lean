import Mathlib.Data.List.Basic

/-!
# Regular Expressions with Preferences

Patterns as Python's `re` matches them: of the ways a pattern can match at a
place, the search takes the one it prefers, and preference is part of the
meaning. Greedy repetition prefers more, alternation its left side.

`run` lists the places a match can end, most preferred first, so a sequence
that cannot go on from one end goes on from the next, which is backtracking.
A place is the text on both sides of it, which is what looking behind and
ahead takes.

## Main definitions

* `Regex`: A pattern.
* `Place`: A position in a text.
* `run`: Where a match from a place can end, in order of preference.
* `sub`: `re.sub`, for a pattern that does not match the empty text.
-/

namespace MmrEngine

/-- A pattern over characters. `star` is greedy. -/
inductive Regex where
  | empty
  | char (p : Char → Bool)
  | seq (r s : Regex)
  | alt (r s : Regex)
  | star (r : Regex)
  /-- `(?<!p)`. -/
  | notAfter (p : Char → Bool)
  /-- `(?!p)`. -/
  | notBefore (p : Char → Bool)

namespace Regex

/-- A position: the text before it, nearest character first, and the text after. -/
structure Place where
  before : List Char
  after : List Char

/-- Repeat as often as it goes, then less often. A round that consumes nothing
    is not repeated. -/
def repeated (round : Place → List Place) : Nat → Place → List Place
  | 0, place => [place]
  | n + 1, place =>
    ((round place).filter fun next => next.after.length < place.after.length).flatMap
      (repeated round n) ++ [place]

/-- The ends of the matches from a place, most preferred first. -/
def run : Regex → Place → List Place
  | .empty, place => [place]
  | .char p, place =>
    match place.after with
    | [] => []
    | c :: rest => if p c then [{ before := c :: place.before, after := rest }] else []
  | .seq r s, place => (run r place).flatMap (run s)
  | .alt r s, place => run r place ++ run s place
  | .star r, place => repeated (run r) place.after.length place
  | .notAfter p, place => if place.before.head?.any p then [] else [place]
  | .notBefore p, place => if place.after.head?.any p then [] else [place]

/-- `r+`. -/
def plus (r : Regex) : Regex := .seq r (.star r)

/-- `r?`. -/
def opt (r : Regex) : Regex := .alt r .empty

/-- `r{n}`. -/
def times (r : Regex) : Nat → Regex
  | 0 => .empty
  | n + 1 => .seq r (times r n)

/-- A literal text. -/
def literal (s : String) : Regex :=
  s.toList.foldr (fun c r => .seq (.char (· = c)) r) .empty

/-- Replace the matches from left to right. -/
def subFrom (r : Regex) (replacement : List Char) : Nat → Place → List Char
  | 0, place => place.after
  | n + 1, place =>
    match (run r place).head? with
    | some stop =>
      if stop.after.length < place.after.length then
        replacement ++ subFrom r replacement n stop
      else place.after
    | none =>
      match place.after with
      | [] => []
      | c :: rest => c :: subFrom r replacement n { before := c :: place.before, after := rest }

/-- `re.sub(r, replacement, text)`, for a pattern that does not match the empty
    text. -/
def sub (r : Regex) (replacement text : String) : String :=
  String.ofList (subFrom r replacement.toList (text.toList.length + 1)
    { before := [], after := text.toList })

end Regex

end MmrEngine
