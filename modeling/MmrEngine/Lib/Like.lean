import Mathlib.Data.List.Infix

/-!
# LIKE Patterns

The patterns of SQL's `LIKE`, over any alphabet, and how a text is written into
one so that it stands for itself.

A pattern is read from left to right: the escape character makes the next
character stand for itself, `many` matches any text, `one` any character. An
escape character with nothing behind it is an error. Escaping is a replacement
of one character after another, as a program writes it; the escape character
must be the first of them, or it would be read into what the others wrote
(`escape_eq`).

## Main definitions

* `Metacharacters`: The three characters of a pattern that do not stand for
  themselves.
* `Token`, `Metacharacters.tokens`: A pattern as it is read.
* `matchesTokens`, `Metacharacters.like`: Whether a text matches.
* `replace`, `Metacharacters.escape`: A text as a pattern.
* `CaseFold`: A folding of cases that leaves the metacharacters alone.

## Theorems

* `matchesTokens_append`: A pattern of two parts splits the text.
* `escape_eq`: The replacements in turn escape each character once.
* `tokens_escape`: An escaped text is read as itself.
* `like_escape`: And followed by `many`, it matches what starts with it.
* `fold_escape`: Folding an escaped text escapes the folded one.
-/

namespace MmrEngine

namespace Like

variable {α : Type*}

/-- The characters of a pattern that do not stand for themselves. -/
structure Metacharacters (α : Type*) where
  escapeChar : α
  many : α
  one : α
  escapeChar_ne_many : escapeChar ≠ many
  escapeChar_ne_one : escapeChar ≠ one
  many_ne_one : many ≠ one

/-- A character of a pattern, as it is read. -/
inductive Token (α : Type*) where
  | lit (c : α)
  | many
  | one
  deriving DecidableEq, Repr

variable [DecidableEq α]

/-- Whether a text matches a pattern as it is read. -/
def matchesTokens : List (Token α) → List α → Bool
  | [], text => text.isEmpty
  | .lit c :: tokens, text =>
    match text with
    | [] => false
    | d :: text => decide (d = c) && matchesTokens tokens text
  | .one :: tokens, text =>
    match text with
    | [] => false
    | _ :: text => matchesTokens tokens text
  | .many :: tokens, text => text.tails.any (matchesTokens tokens)

/-- Each occurrence of a character replaced by a text, all at once. -/
def replace (old : α) (new text : List α) : List α :=
  text.flatMap fun c => if c = old then new else [c]

namespace Metacharacters

variable (m : Metacharacters α)

/-- What a character stands for that is not escaped. -/
def token (c : α) : Token α :=
  if c = m.many then .many else if c = m.one then .one else .lit c

/-- A pattern, read; `none` if it ends in an escape character that escapes
    nothing. -/
def tokens : List α → Option (List (Token α))
  | [] => some []
  | [c] => if c = m.escapeChar then none else some [m.token c]
  | c :: d :: pattern =>
    if c = m.escapeChar then (tokens pattern).map (.lit d :: ·)
    else (tokens (d :: pattern)).map (m.token c :: ·)

/-- `text LIKE pattern`; `none` is the error of a dangling escape. -/
def like (text pattern : List α) : Option Bool :=
  (m.tokens pattern).map fun tokens => matchesTokens tokens text

/-- A text with each metacharacter escaped: one replacement for each of them,
    the escape character first. -/
def escape (text : List α) : List α :=
  replace m.one [m.escapeChar, m.one]
    (replace m.many [m.escapeChar, m.many]
      (replace m.escapeChar [m.escapeChar, m.escapeChar] text))

/-- Whether a character is one of the three. -/
def isMeta (c : α) : Bool :=
  decide (c = m.escapeChar) || decide (c = m.many) || decide (c = m.one)

end Metacharacters

/-! ### Matching -/

/-- A pattern of two parts matches a text that splits in two. -/
theorem matchesTokens_append (left right : List (Token α)) (text : List α) :
    matchesTokens (left ++ right) text = true ↔
      ∃ t t', text = t ++ t' ∧ matchesTokens left t = true ∧ matchesTokens right t' = true := by
  induction left generalizing text with
  | nil => simp [matchesTokens]
  | cons token left ih =>
      cases token with
      | lit c =>
          cases text with
          | nil => simp [matchesTokens]
          | cons d text =>
              simp only [List.cons_append, matchesTokens, Bool.and_eq_true, decide_eq_true_eq, ih]
              constructor
              · rintro ⟨rfl, t, t', rfl, ht, ht'⟩
                exact ⟨d :: t, t', rfl, by simp [ht], ht'⟩
              · rintro ⟨t, t', htext, ht, ht'⟩
                cases t with
                | nil => simp at ht
                | cons e t =>
                    simp only [List.cons_append, List.cons.injEq] at htext
                    simp only [Bool.and_eq_true, decide_eq_true_eq] at ht
                    exact ⟨htext.1.trans ht.1, t, t', htext.2, ht.2, ht'⟩
      | one =>
          cases text with
          | nil => simp [matchesTokens]
          | cons d text =>
              simp only [List.cons_append, matchesTokens, ih]
              constructor
              · rintro ⟨t, t', rfl, ht, ht'⟩
                exact ⟨d :: t, t', rfl, ht, ht'⟩
              · rintro ⟨t, t', htext, ht, ht'⟩
                cases t with
                | nil => simp at ht
                | cons e t =>
                    simp only [List.cons_append, List.cons.injEq] at htext
                    exact ⟨t, t', htext.2, ht, ht'⟩
      | many =>
          -- A tail of the text splits where the text splits behind what is skipped.
          simp only [List.cons_append, matchesTokens, List.any_eq_true, List.mem_tails, ih]
          constructor
          · rintro ⟨tail, ⟨skipped, rfl⟩, t, t', rfl, ht, ht'⟩
            exact ⟨skipped ++ t, t', by simp, ⟨t, ⟨skipped, rfl⟩, ht⟩, ht'⟩
          · rintro ⟨t, t', rfl, ⟨tail, ⟨skipped, rfl⟩, htail⟩, ht'⟩
            exact ⟨tail ++ t', ⟨skipped, by simp⟩, tail, t', rfl, htail, ht'⟩

theorem matchesTokens_literal (l text : List α) :
    matchesTokens (l.map Token.lit) text = true ↔ text = l := by
  induction l generalizing text with
  | nil => simp [matchesTokens]
  | cons c l ih =>
      cases text with
      | nil => simp [matchesTokens]
      | cons d text => simp [matchesTokens, ih]

theorem matchesTokens_many (text : List α) : matchesTokens [Token.many] text = true := by
  simp only [matchesTokens, List.any_eq_true, List.mem_tails]
  exact ⟨[], List.nil_suffix, rfl⟩

/-- A literal followed by `many` matches what starts with it. -/
theorem matchesTokens_literal_many (l text : List α) :
    matchesTokens (l.map Token.lit ++ [Token.many]) text = l.isPrefixOf text := by
  rw [Bool.eq_iff_iff, matchesTokens_append, List.isPrefixOf_iff_prefix]
  constructor
  · rintro ⟨t, t', rfl, ht, -⟩
    rw [(matchesTokens_literal l t).mp ht]
    exact List.prefix_append l t'
  · rintro ⟨t', rfl⟩
    exact ⟨l, t', rfl, (matchesTokens_literal l l).mpr rfl, matchesTokens_many t'⟩

/-! ### Escaping -/

namespace Metacharacters

variable (m : Metacharacters α)

/-- A character as it stands in the escaped text. -/
def escaped (c : α) : List α :=
  if m.isMeta c then [m.escapeChar, c] else [c]

/-- The three replacements in turn are one pass: what the first two write holds
    no character that a later one replaces, but the one that is escaped. -/
theorem escape_eq (text : List α) : m.escape text = text.flatMap m.escaped := by
  have hem := m.escapeChar_ne_many
  have heo := m.escapeChar_ne_one
  have hmo := m.many_ne_one
  unfold escape replace
  rw [List.flatMap_assoc, List.flatMap_assoc]
  refine List.flatMap_congr fun c _ => ?_
  unfold escaped isMeta
  by_cases hc : c = m.escapeChar
  · simp [hc, hem, heo]
  · by_cases hc' : c = m.many
    · simp [hc', hem.symm, heo, hmo]
    · by_cases hc'' : c = m.one
      · simp [hc'', heo.symm, hmo.symm]
      · simp [hc, hc', hc'']

/-- A character that is no metacharacter stands for itself. -/
theorem token_of_not_meta {c : α} (h : m.isMeta c = false) : m.token c = .lit c := by
  simp only [isMeta, Bool.or_eq_false_iff, decide_eq_false_iff_not] at h
  rw [token, if_neg h.1.2, if_neg h.2]

/-- An escaped text is read as itself, whatever follows it. -/
theorem tokens_escape (text pattern : List α) :
    m.tokens (m.escape text ++ pattern) =
      (m.tokens pattern).map (text.map Token.lit ++ ·) := by
  rw [m.escape_eq]
  induction text with
  | nil => simp
  | cons c text ih =>
      rw [List.flatMap_cons, List.append_assoc]
      cases hc : m.isMeta c with
      | true =>
          rw [escaped, if_pos hc]
          simp only [List.cons_append, List.nil_append, tokens, if_true, ih, Option.map_map]
          rfl
      | false =>
          have hne : c ≠ m.escapeChar := by
            rintro rfl
            simp [isMeta] at hc
          rw [escaped, if_neg (by simp [hc]), List.singleton_append]
          -- What is read first is the character, whether or not it is the last one.
          have hread : ∀ rest, m.tokens (c :: rest) = (m.tokens rest).map (.lit c :: ·) := by
            intro rest
            cases rest with
            | nil => simp [tokens, hne, m.token_of_not_meta hc]
            | cons d rest => rw [tokens, if_neg hne, m.token_of_not_meta hc]
          rw [hread, ih, Option.map_map]
          rfl

/-- Nor is the escape before `many` dangling. -/
theorem tokens_escape_many (text : List α) :
    m.tokens (m.escape text ++ [m.many]) = some (text.map Token.lit ++ [Token.many]) := by
  have hmany : m.tokens [m.many] = some [Token.many] := by
    rw [tokens, if_neg m.escapeChar_ne_many.symm, token, if_pos rfl]
  rw [tokens_escape, hmany]
  rfl

/-- An escaped text and `many` match what starts with the text. -/
theorem like_escape (start text : List α) :
    m.like text (m.escape start ++ [m.many]) = some (start.isPrefixOf text) := by
  rw [like, tokens_escape_many, Option.map_some, matchesTokens_literal_many]

end Metacharacters

/-! ### Folding cases -/

/-- A folding of cases: a character may become several, but the metacharacters
    have no case. Each is the only one of its case. -/
structure CaseFold (m : Metacharacters α) where
  foldChar : α → List α
  foldChar_meta : ∀ c, m.isMeta c = true → foldChar c = [c]
  not_meta_foldChar : ∀ c, m.isMeta c = false → ∀ d ∈ foldChar c, m.isMeta d = false

namespace CaseFold

variable {m : Metacharacters α}

def fold (f : CaseFold m) (text : List α) : List α :=
  text.flatMap f.foldChar

/-- The case fold of a text is escaped as the text is. -/
theorem fold_escape (f : CaseFold m) (text : List α) :
    f.fold (m.escape text) = m.escape (f.fold text) := by
  rw [m.escape_eq, m.escape_eq]
  unfold fold
  rw [List.flatMap_assoc, List.flatMap_assoc]
  refine List.flatMap_congr fun c _ => ?_
  cases hc : m.isMeta c with
  | true =>
      have hescape : f.foldChar m.escapeChar = [m.escapeChar] :=
        f.foldChar_meta _ (by simp [Metacharacters.isMeta])
      simp [Metacharacters.escaped, hc, hescape, f.foldChar_meta c hc]
  | false =>
      have hfold : (f.foldChar c).flatMap m.escaped = (f.foldChar c).flatMap fun d => [d] :=
        List.flatMap_congr fun d hd => by
          simp [Metacharacters.escaped, f.not_meta_foldChar c hc d hd]
      rw [hfold]
      simp [Metacharacters.escaped, hc]

/-- A pattern that matches any case of what starts with the text. -/
theorem fold_escape_many (f : CaseFold m) (text : List α) :
    f.fold (m.escape text ++ [m.many]) = m.escape (f.fold text) ++ [m.many] := by
  have hmany : f.foldChar m.many = [m.many] :=
    f.foldChar_meta _ (by simp [Metacharacters.isMeta])
  have happend : f.fold (m.escape text ++ [m.many]) =
      f.fold (m.escape text) ++ f.fold [m.many] := List.flatMap_append
  rw [happend, f.fold_escape]
  simp [fold, hmany]

end CaseFold

end Like

end MmrEngine
