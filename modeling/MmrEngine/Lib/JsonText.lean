import MmrEngine.Lib.Digits
import MmrEngine.Lib.Utf16
import Mathlib.Data.List.TakeWhile

/-!
# The Lexemes of JSON

Strings and numbers as JSON writes them, and their readers.

A string is written in ASCII: seven characters have an escape of one letter,
and everything outside the printable characters is written by its UTF-16 code
units, so a character beyond the first plane takes two escapes. The reader
takes any escape, in capitals or not, and joins the two halves again. A half
that is alone stands for no character and is not read.

A number ends where it can go on no further. Its reader is made of pieces that
each take what they can from the front (`digits`, `fraction`, `exponent`), and
all of them stop in front of a character no number goes on with. That is the one
fact the values built around numbers rest on (`readNumber_append`).

## Main definitions

* `escapeChar`, `writeString`: Writing a string.
* `readChars`: Reading one, after its opening quote.
* `readNumber`: The number in front of a text, and whether it is a fraction.
* `NumberEnds`: A number in front of the text would end there.
* `writeInt`, `intOf`: Whole numbers and their texts.

## Theorems

* `readChars_writeChars`: Reading a string that was written.
* `readNumber_append`: What follows a number does not change it.
* `readNumber_writeInt`, `intOf_writeInt`: Reading a whole number that was written.
-/

namespace MmrEngine

namespace JsonText

/-! ### Writing strings -/

/-- `\uXXXX`. -/
def escapeUnit (u : UInt16) : List Char :=
  ['\\', 'u', Nat.digitChar (u.toNat / 4096), Nat.digitChar (u.toNat / 256 % 16),
    Nat.digitChar (u.toNat / 16 % 16), Nat.digitChar (u.toNat % 16)]

/-- The characters with an escape of one letter, and the letters. -/
def shortEscapes : List (Char × Char) :=
  [('"', '"'), ('\\', '\\'), ('\n', 'n'), ('\r', 'r'), ('\t', 't'), (Char.ofNat 12, 'f'),
    (Char.ofNat 8, 'b')]

def escapeChar (c : Char) : List Char :=
  match shortEscapes.lookup c with
  | some letter => ['\\', letter]
  | none =>
    if 32 ≤ c.toNat ∧ c.toNat < 127 then [c] else (Utf16.encodeChar c).flatMap escapeUnit

/-- The characters and the closing quote. -/
def writeChars (cs : List Char) : List Char := cs.flatMap escapeChar ++ ['"']

def writeString (cs : List Char) : List Char := '"' :: writeChars cs

/-! ### Reading strings -/

def hexValue (c : Char) : Option Nat := Digits.hexValue c.toNat

/-- Four hexadecimal digits. -/
def readUnit : List Char → Option (Nat × List Char)
  | a :: b :: c :: d :: rest => do
    let a ← hexValue a
    let b ← hexValue b
    let c ← hexValue c
    let d ← hexValue d
    return (a * 4096 + b * 256 + c * 16 + d, rest)
  | _ => none

/-- The letters of an escape, and the characters they stand for. -/
def escapeLetters : List (Char × Char) :=
  [('"', '"'), ('\\', '\\'), ('/', '/'), ('b', Char.ofNat 8), ('f', Char.ofNat 12), ('n', '\n'),
    ('r', '\r'), ('t', '\t')]

/-- The low half that has to follow a high one. -/
def readLowHalf : List Char → Option (Nat × List Char)
  | '\\' :: 'u' :: rest =>
    (readUnit rest).filter fun unit => 0xDC00 ≤ unit.1 ∧ unit.1 < 0xE000
  | _ => none

/-- What follows `\u`. -/
def readCodePoint (rest : List Char) : Option (Char × List Char) := do
  let (unit, rest) ← readUnit rest
  if unit < 0xD800 ∨ 0xE000 ≤ unit then return (Char.ofNat unit, rest)
  else if unit < 0xDC00 then
    let (low, rest) ← readLowHalf rest
    return (Char.ofNat (0x10000 + (unit - 0xD800) * 0x400 + (low - 0xDC00)), rest)
  else none

/-- What follows a backslash. -/
def readEscape : List Char → Option (Char × List Char)
  | [] => none
  | letter :: rest =>
    match escapeLetters.lookup letter with
    | some c => some (c, rest)
    | none => if letter = 'u' then readCodePoint rest else none

/-- The next character of a string. Control characters have to be escaped. -/
def readChar : List Char → Option (Char × List Char)
  | [] => none
  | c :: rest =>
    if c = '\\' then readEscape rest
    else if c.toNat < 32 then none
    else some (c, rest)

/-- A string after its opening quote, with what follows the closing one. The
    number bounds its length. -/
def readChars : Nat → List Char → Option (List Char × List Char)
  | 0, _ => none
  | _ + 1, '"' :: rest => some ([], rest)
  | n + 1, text => do
    let (c, rest) ← readChar text
    let (cs, rest) ← readChars n rest
    return (c :: cs, rest)

/-! ### A string that was written -/

theorem hexValue_digitChar : ∀ n < 16, hexValue (Nat.digitChar n) = some n := by decide

theorem readUnit_escapeUnit (u : UInt16) (rest : List Char) :
    readUnit ((escapeUnit u).drop 2 ++ rest) = some (u.toNat, rest) := by
  have hlt : u.toNat < 65536 := u.toNat_lt
  have hsum : u.toNat / 4096 * 4096 + u.toNat / 256 % 16 * 256 + u.toNat / 16 % 16 * 16
      + u.toNat % 16 = u.toNat := by omega
  simp only [escapeUnit, List.drop_succ_cons, List.drop_zero, List.cons_append, List.nil_append,
    readUnit, hexValue_digitChar _ (show u.toNat / 4096 < 16 by omega),
    hexValue_digitChar _ (show u.toNat / 256 % 16 < 16 by omega),
    hexValue_digitChar _ (show u.toNat / 16 % 16 < 16 by omega),
    hexValue_digitChar _ (show u.toNat % 16 < 16 by omega), Option.bind_eq_bind,
    Option.bind_some, hsum, Option.pure_def]

/-- Every letter that is written is read as the character it was written for. -/
theorem escapeLetters_shortEscapes :
    ∀ p ∈ shortEscapes, escapeLetters.lookup p.2 = some p.1 := by decide

theorem readEscape_unit (u : UInt16) (rest : List Char) :
    readChar (escapeUnit u ++ rest) = readCodePoint ((escapeUnit u).drop 2 ++ rest) := rfl

theorem readLowHalf_escapeUnit {v : UInt16} (hlow : Utf16.isLow v = true) (rest : List Char) :
    readLowHalf (escapeUnit v ++ rest) = some (v.toNat, rest) := by
  rw [Utf16.isLow, decide_eq_true_eq] at hlow
  have hunit : readLowHalf (escapeUnit v ++ rest)
      = (readUnit ((escapeUnit v).drop 2 ++ rest)).filter
          fun unit => 0xDC00 ≤ unit.1 ∧ unit.1 < 0xE000 := rfl
  rw [hunit, readUnit_escapeUnit]
  exact Option.filter_eq_some_iff.mpr ⟨rfl, decide_eq_true hlow⟩

/-- The code units of a character are read as the character. -/
theorem readChar_units (c : Char) (rest : List Char) :
    readChar ((Utf16.encodeChar c).flatMap escapeUnit ++ rest) = some (c, rest) := by
  rcases Utf16.encodeChar_cases c with ⟨u, hunits, hhigh, hlow, hnat⟩ |
    ⟨u, v, hunits, hhigh, hlow, hnat⟩
  · rw [Utf16.isHigh, decide_eq_false_iff_not] at hhigh
    rw [Utf16.isLow, decide_eq_false_iff_not] at hlow
    rw [hunits, List.flatMap_singleton, readEscape_unit, readCodePoint, readUnit_escapeUnit]
    simp only [Option.bind_eq_bind, Option.bind_some]
    rw [if_pos (by omega), hnat, Char.ofNat_toNat]
    rfl
  · -- A pair: the second escape is the low half.
    have hbounds := hhigh
    rw [Utf16.isHigh, decide_eq_true_eq] at hbounds
    rw [hunits, List.flatMap_cons, List.flatMap_singleton, List.append_assoc, readEscape_unit,
      readCodePoint, readUnit_escapeUnit]
    simp only [Option.bind_eq_bind, Option.bind_some]
    rw [if_neg (by omega), if_pos (by omega), readLowHalf_escapeUnit hlow]
    simp only [Option.bind_some, Option.pure_def]
    rw [← hnat, Char.ofNat_toNat]

theorem mem_of_lookup {α β : Type*} [BEq α] [LawfulBEq α] {l : List (α × β)} {a : α} {b : β}
    (h : l.lookup a = some b) : (a, b) ∈ l := by
  rcases List.lookup_eq_some_iff.mp h with ⟨l₁, l₂, hl, -⟩
  rw [hl]
  exact List.mem_append_right _ List.mem_cons_self

theorem readChar_escapeChar (c : Char) (rest : List Char) :
    readChar (escapeChar c ++ rest) = some (c, rest) := by
  unfold escapeChar
  cases hshort : shortEscapes.lookup c with
  | some letter =>
      have hletter := escapeLetters_shortEscapes _ (mem_of_lookup hshort)
      simp only [List.cons_append, List.nil_append, readChar, if_true, readEscape, hletter]
  | none =>
      have hne : c ≠ '\\' := by
        rintro rfl
        cases hshort
      by_cases hprintable : 32 ≤ c.toNat ∧ c.toNat < 127
      · simp only [if_pos hprintable, List.singleton_append, readChar, if_neg hne,
          if_neg (Nat.not_lt.mpr hprintable.1)]
      · simp only [if_neg hprintable]
        exact readChar_units c rest

/-- Nothing that is written for a character begins with a quote. -/
theorem escapeChar_head (c : Char) :
    ∃ d tail, escapeChar c = d :: tail ∧ d ≠ '"' := by
  unfold escapeChar
  cases hshort : shortEscapes.lookup c with
  | some letter => exact ⟨'\\', [letter], rfl, by decide⟩
  | none =>
      by_cases hprintable : 32 ≤ c.toNat ∧ c.toNat < 127
      · refine ⟨c, [], if_pos hprintable, ?_⟩
        rintro rfl
        cases hshort
      · simp only [if_neg hprintable]
        rcases Utf16.encodeChar_cases c with ⟨u, hunits, -⟩ | ⟨u, v, hunits, -⟩
        · rw [hunits]
          exact ⟨'\\', _, rfl, by decide⟩
        · rw [hunits]
          exact ⟨'\\', _, rfl, by decide⟩

/-- A string is written longer than it is. -/
theorem length_lt_writeChars (cs : List Char) : cs.length < (writeChars cs).length := by
  induction cs with
  | nil => exact Nat.zero_lt_one
  | cons c cs ih =>
      rcases escapeChar_head c with ⟨d, tail, hd, -⟩
      rw [writeChars, List.length_append] at ih
      rw [writeChars, List.flatMap_cons, List.length_append, List.length_append, hd,
        List.length_cons, List.length_cons]
      omega

/-- Away from the closing quote a string is read character by character. -/
theorem readChars_succ {n : Nat} {d : Char} {tail : List Char} (hd : d ≠ '"') :
    readChars (n + 1) (d :: tail) = (readChar (d :: tail)).bind fun p =>
      (readChars n p.2).map fun q => (p.1 :: q.1, q.2) := by
  rw [readChars]
  · cases readChar (d :: tail) with
    | none => rfl
    | some p =>
        cases h : readChars n p.2 with
        | none => simp [h]
        | some q => simp [h]
  · intro rest h
    exact hd (List.cons.inj h).1

/-- Reading a string that was written, whatever follows it. -/
theorem readChars_writeChars (cs rest : List Char) {n : Nat} (hn : cs.length < n) :
    readChars n (writeChars cs ++ rest) = some (cs, rest) := by
  induction cs generalizing n with
  | nil =>
      rcases Nat.exists_eq_succ_of_ne_zero (Nat.ne_zero_of_lt hn) with ⟨m, rfl⟩
      rfl
  | cons c cs ih =>
      rcases Nat.exists_eq_succ_of_ne_zero (Nat.ne_zero_of_lt hn) with ⟨m, rfl⟩
      have hwritten : writeChars (c :: cs) ++ rest = escapeChar c ++ (writeChars cs ++ rest) := by
        simp only [writeChars, List.flatMap_cons, List.append_assoc]
      rw [hwritten]
      rcases escapeChar_head c with ⟨d, tail, hhead, hd⟩
      rw [hhead, List.cons_append, readChars_succ hd, ← List.cons_append, ← hhead,
        readChar_escapeChar]
      rw [List.length_cons] at hn
      rw [Option.bind_some, ih (by omega)]
      rfl

/-! ### Numbers -/

/-- The digits in front of a text. -/
def digits (text : List Char) : List Char × List Char :=
  (text.takeWhile Char.isDigit, text.dropWhile Char.isDigit)

/-- A minus sign in front of a text. -/
def minus : List Char → List Char × List Char
  | '-' :: rest => (['-'], rest)
  | text => ([], text)

/-- A point with digits behind it. -/
def fraction : List Char → List Char × List Char
  | '.' :: rest =>
    match digits rest with
    | ([], _) => ([], '.' :: rest)
    | (ds, rest') => ('.' :: ds, rest')
  | text => ([], text)

/-- The sign of an exponent. -/
def exponentSign : List Char → List Char × List Char
  | '+' :: rest => (['+'], rest)
  | '-' :: rest => (['-'], rest)
  | text => ([], text)

/-- An exponent, if it has digits. -/
def exponent : List Char → List Char × List Char
  | [] => ([], [])
  | e :: rest =>
    if e = 'e' ∨ e = 'E' then
      let signed := exponentSign rest
      match digits signed.2 with
      | ([], _) => ([], e :: rest)
      | (ds, rest') => (e :: (signed.1 ++ ds), rest')
    else ([], e :: rest)

/-- The whole part: a single zero, or digits that begin with another one. -/
def whole : List Char → Option (List Char × List Char)
  | [] => none
  | c :: rest =>
    if c = '0' then some (['0'], rest)
    else if c.isDigit then some (c :: (digits rest).1, (digits rest).2)
    else none

/-- The longest number in front of a text, whether it has a fraction or an
    exponent, and what follows. -/
def readNumber (text : List Char) : Option (List Char × Bool × List Char) :=
  let sign := minus text
  (whole sign.2).map fun w =>
    let f := fraction w.2
    let e := exponent f.2
    (sign.1 ++ w.1 ++ f.1 ++ e.1, decide (f.1 ++ e.1 ≠ []), e.2)

/-- The characters a number can go on with. -/
def numberChar (c : Char) : Bool :=
  c.isDigit || c = '.' || c = 'e' || c = 'E' || c = '+' || c = '-'

/-- A number in front of this text would end there. -/
def NumberEnds (rest : List Char) : Prop := ∀ c ∈ rest.head?, numberChar c = false

theorem numberEnds_nil : NumberEnds [] := fun _ hc => by cases hc

theorem numberEnds_cons {c : Char} (h : numberChar c = false) (rest : List Char) :
    NumberEnds (c :: rest) := by
  intro d hd
  rw [← Option.some.inj hd]
  exact h

section Ends

variable {rest : List Char} (hrest : NumberEnds rest)

include hrest

theorem head_ne {c : Char} {tail : List Char} (h : rest = c :: tail) {d : Char}
    (hd : numberChar d = true) : c ≠ d := by
  rintro rfl
  have hfalse := hrest c (by rw [h]; rfl)
  rw [hd] at hfalse
  cases hfalse

theorem digits_ends : digits rest = ([], rest) := by
  cases h : rest with
  | nil => rfl
  | cons c tail =>
      have hc : c.isDigit = false := by
        have hfalse := hrest c (by rw [h]; rfl)
        simp only [numberChar, Bool.or_eq_false_iff] at hfalse
        exact hfalse.1.1.1.1.1
      simp [digits, hc]

theorem digits_append (text : List Char) :
    digits (text ++ rest) = ((digits text).1, (digits text).2 ++ rest) := by
  have hends := digits_ends hrest
  induction text with
  | nil => simpa [digits] using hends
  | cons c cs ih =>
      simp only [digits, Prod.mk.injEq] at ih ⊢
      cases hc : c.isDigit with
      | true => simp [hc, ih.1, ih.2]
      | false => simp [hc]

theorem minus_append (text : List Char) :
    minus (text ++ rest) = ((minus text).1, (minus text).2 ++ rest) := by
  cases text with
  | nil =>
      cases h : rest with
      | nil => rfl
      | cons c tail =>
          have hne := head_ne hrest h (d := '-') (by decide)
          rw [List.nil_append, minus]
          · rfl
          · intro _ heq
            exact hne (List.cons.inj heq).1
  | cons c cs =>
      by_cases hc : c = '-'
      · subst hc
        rfl
      · rw [List.cons_append, minus, minus]
        · rfl
        · intro _ heq
          exact hc (List.cons.inj heq).1
        · intro _ heq
          exact hc (List.cons.inj heq).1

theorem fraction_append (text : List Char) :
    fraction (text ++ rest) = ((fraction text).1, (fraction text).2 ++ rest) := by
  cases text with
  | nil =>
      cases h : rest with
      | nil => rfl
      | cons c tail =>
          have hne := head_ne hrest h (d := '.') (by decide)
          rw [List.nil_append, fraction]
          · rfl
          · intro _ heq
            exact hne (List.cons.inj heq).1
  | cons c cs =>
      by_cases hc : c = '.'
      · subst hc
        rw [List.cons_append, fraction, fraction, digits_append hrest]
        -- Whether there are digits is decided in front of `rest`.
        cases hds : digits cs with
        | mk ds cs' => cases ds with
          | nil => rfl
          | cons d ds => rfl
      · rw [List.cons_append, fraction, fraction]
        · rfl
        · intro _ heq
          exact hc (List.cons.inj heq).1
        · intro _ heq
          exact hc (List.cons.inj heq).1

theorem exponentSign_append (text : List Char) :
    exponentSign (text ++ rest) = ((exponentSign text).1, (exponentSign text).2 ++ rest) := by
  cases text with
  | nil =>
      cases h : rest with
      | nil => rfl
      | cons c tail =>
          have hplus := head_ne hrest h (d := '+') (by decide)
          have hminus := head_ne hrest h (d := '-') (by decide)
          rw [List.nil_append, exponentSign]
          · rfl
          · intro _ heq
            exact hplus (List.cons.inj heq).1
          · intro _ heq
            exact hminus (List.cons.inj heq).1
  | cons c cs =>
      by_cases hplus : c = '+'
      · subst hplus
        rfl
      · by_cases hminus : c = '-'
        · subst hminus
          rfl
        · rw [List.cons_append, exponentSign, exponentSign]
          · rfl
          · intro _ heq
            exact hplus (List.cons.inj heq).1
          · intro _ heq
            exact hminus (List.cons.inj heq).1
          · intro _ heq
            exact hplus (List.cons.inj heq).1
          · intro _ heq
            exact hminus (List.cons.inj heq).1

theorem exponent_append (text : List Char) :
    exponent (text ++ rest) = ((exponent text).1, (exponent text).2 ++ rest) := by
  cases text with
  | nil =>
      cases h : rest with
      | nil => rfl
      | cons c tail =>
          have hsmall := head_ne hrest h (d := 'e') (by decide)
          have hlarge := head_ne hrest h (d := 'E') (by decide)
          simp [exponent, hsmall, hlarge]
  | cons e cs =>
      by_cases he : e = 'e' ∨ e = 'E'
      · simp only [List.cons_append, exponent, if_pos he, exponentSign_append hrest,
          digits_append hrest]
        cases hds : digits (exponentSign cs).2 with
        | mk ds cs' => cases ds with
          | nil => rfl
          | cons d ds => rfl
      · simp only [List.cons_append, exponent, if_neg he]

theorem whole_append (text : List Char) :
    whole (text ++ rest) = (whole text).map fun w => (w.1, w.2 ++ rest) := by
  cases text with
  | nil =>
      cases h : rest with
      | nil => rfl
      | cons c tail =>
          have hzero := head_ne hrest h (d := '0') (by decide)
          have hdigit : c.isDigit = false := by
            have hfalse := hrest c (by rw [h]; rfl)
            simp only [numberChar, Bool.or_eq_false_iff] at hfalse
            exact hfalse.1.1.1.1.1
          simp [whole, hzero, hdigit]
  | cons c cs =>
      by_cases hzero : c = '0'
      · simp only [List.cons_append, whole, if_pos hzero, Option.map_some]
      · by_cases hdigit : c.isDigit = true
        · simp only [List.cons_append, whole, if_neg hzero, if_pos hdigit, digits_append hrest,
            Option.map_some]
        · simp only [List.cons_append, whole, if_neg hzero, if_neg hdigit, Option.map_none]

/-- What follows a number does not change it. -/
theorem readNumber_append (text : List Char) :
    readNumber (text ++ rest) = (readNumber text).map fun r => (r.1, r.2.1, r.2.2 ++ rest) := by
  simp only [readNumber, minus_append hrest, whole_append hrest, Option.map_map]
  congr 1
  funext w
  simp only [Function.comp_apply, fraction_append hrest, exponent_append hrest]

end Ends

theorem whole_head {text : List Char} {w : List Char × List Char} (h : whole text = some w) :
    ∃ c tail, text = c :: tail ∧ c.isDigit = true := by
  cases text with
  | nil => cases h
  | cons c tail =>
      refine ⟨c, tail, rfl, ?_⟩
      rw [whole] at h
      split at h
      · next hzero =>
          rw [hzero]
          rfl
      · split at h
        · next hdigit => exact hdigit
        · cases h

/-- A number begins with a digit, or with a minus sign and a digit. -/
theorem readNumber_head {text : List Char} {r : List Char × Bool × List Char}
    (h : readNumber text = some r) : ∃ c tail, text = c :: tail ∧
      (c.isDigit = true ∨ c = '-' ∧ ∃ d tail', tail = d :: tail' ∧ d.isDigit = true) := by
  rcases Option.map_eq_some_iff.mp h with ⟨w, hw, -⟩
  cases text with
  | nil => cases hw
  | cons c tail =>
      refine ⟨c, tail, rfl, ?_⟩
      by_cases hc : c = '-'
      · subst hc
        exact Or.inr ⟨rfl, whole_head hw⟩
      · rw [minus] at hw
        · rcases whole_head hw with ⟨d, tail', heq, hd⟩
          rw [(List.cons.inj heq).1]
          exact Or.inl hd
        · intro _ heq
          exact hc (List.cons.inj heq).1

/-! ### A whole number that was written -/

def writeInt (n : ℤ) : List Char :=
  if n < 0 then '-' :: Nat.toDigits 10 n.natAbs else Nat.toDigits 10 n.natAbs

/-- The whole number a text stands for. -/
def intOf (text : List Char) : ℤ :=
  if (minus text).1 = [] then Digits.value (minus text).2 else -Digits.value (minus text).2

/-- Printed digits are the whole part they begin with. -/
theorem whole_toDigits (n : Nat) : whole (Nat.toDigits 10 n) = some (Nat.toDigits 10 n, []) := by
  rcases Digits.canonical_toDigits n with ⟨hdigits, hzero | ⟨c, tail, hcons, hc⟩⟩
  · rw [hzero]
    rfl
  · rw [hcons] at hdigits ⊢
    have htail : ∀ d ∈ tail, d.isDigit = true := fun d hd => hdigits d (List.mem_cons_of_mem _ hd)
    rw [whole, if_neg hc, if_pos (hdigits c List.mem_cons_self), digits,
      List.takeWhile_eq_self_iff.mpr htail, List.dropWhile_eq_nil_iff.mpr htail]

theorem minus_toDigits (n : Nat) : minus (Nat.toDigits 10 n) = ([], Nat.toDigits 10 n) := by
  have hdigits := Digits.allDigits_toDigits n
  cases h : Nat.toDigits 10 n with
  | nil => rfl
  | cons c tail =>
      rw [minus]
      intro _ heq
      have hc := hdigits c (by rw [h]; exact List.mem_cons_self)
      rw [(List.cons.inj heq).1] at hc
      cases hc

theorem minus_writeInt (n : ℤ) :
    minus (writeInt n) = (if n < 0 then ['-'] else [], Nat.toDigits 10 n.natAbs) := by
  unfold writeInt
  by_cases hn : n < 0
  · rw [if_pos hn, if_pos hn]
    rfl
  · rw [if_neg hn, if_neg hn, minus_toDigits]

/-- A whole number is read without a fraction. -/
theorem readNumber_writeInt (n : ℤ) :
    readNumber (writeInt n) = some (writeInt n, false, []) := by
  rw [readNumber, minus_writeInt]
  simp only [whole_toDigits, Option.map_some, fraction, exponent, List.append_nil]
  unfold writeInt
  by_cases hn : n < 0
  · rw [if_pos hn, if_pos hn]
    rfl
  · rw [if_neg hn, if_neg hn]
    rfl

theorem intOf_writeInt (n : ℤ) : intOf (writeInt n) = n := by
  rw [intOf, minus_writeInt, Digits.value_toDigits]
  by_cases hn : n < 0
  · rw [if_pos hn, if_neg (List.cons_ne_nil _ _)]
    omega
  · rw [if_neg hn, if_pos rfl]
    omega

end JsonText

end MmrEngine
