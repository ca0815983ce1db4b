import MmrEngine.Core.Json
import MmrEngine.Lib.JsonText
import MmrEngine.Lib.OrderedDict

/-!
# JSON Texts

`json.dumps` and `json.loads`, as the messages of the pipeline are written and
read with them.

`dumps` writes ASCII, with a blank after every comma and colon. `loads` takes
whatever whitespace there is, keeps the last value of a key that comes twice,
and reads `NaN` and the infinities, which `dumps` writes.

How a float is printed and read is the interpreter's business (`PyJson`). What
is asked of it is that a float that was read, printed and read again is the same
float. That makes the round trip one of values that were read: their floats are
of that kind, and no object has a key twice. `Parsed` says so, `loads_parsed`
that `loads` yields nothing else, and `loads_dumps` that such a value comes back.

The nesting limit of the interpreter, its limit of the digits of an integer and
texts with half a surrogate pair are left out.

## Main definitions

* `PyJson`: Reading floats.
* `dumps`: Writing a value.
* `loads`: Reading a text.
* `Parsed`: A value that was read.

## Theorems

* `loads_parsed`: What is read is `Parsed`.
* `loads_dumps`: Reading what was written.
-/

namespace MmrEngine

open JsonText

/-- A text that is a number with a fraction or an exponent, and nothing else. -/
def FractionText (text : List Char) : Prop := readNumber text = some (text, true, [])

/-- `float(text)`, with what the round trip of a float rests on. A text that is
    no number may stand for anything. -/
class PyJson extends PyText where
  floatOf : String → PyFloat
  repr_read : ∀ text neg m e, floatOf text = .finite neg m e →
    FractionText (reprFloat (.finite neg m e)).toList ∧
      floatOf (reprFloat (.finite neg m e)) = .finite neg m e

theorem fractionText_zero : FractionText "0.0".toList := by
  unfold FractionText
  decide

/-- ASCII texts without a float. -/
@[reducible] def asciiJson : PyJson where
  toPyText := { asciiText with reprFloat := fun _ => "0.0" }
  floatOf _ := .finite false 0 0
  repr_read _ _ _ _ h := And.intro fractionText_zero h

namespace Json

/-! ### Writing -/

section Write

variable [PyText]

def writeFloat : PyFloat → List Char
  | .nan => ['N', 'a', 'N']
  | .inf false => ['I', 'n', 'f', 'i', 'n', 'i', 't', 'y']
  | .inf true => ['-', 'I', 'n', 'f', 'i', 'n', 'i', 't', 'y']
  | .finite neg m e => (PyText.reprFloat (.finite neg m e)).toList

mutual

def writeValue : Json → List Char
  | .null => ['n', 'u', 'l', 'l']
  | .bool true => ['t', 'r', 'u', 'e']
  | .bool false => ['f', 'a', 'l', 's', 'e']
  | .int n => writeInt n
  | .float x => writeFloat x
  | .str s => writeString s.toList
  | .arr xs => '[' :: writeElements xs
  | .obj fields => '\x7b' :: writeMembers fields

/-- The elements of an array and its closing bracket. -/
def writeElements : List Json → List Char
  | [] => [']']
  | [x] => writeValue x ++ [']']
  | x :: xs => writeValue x ++ (',' :: ' ' :: writeElements xs)

/-- The members of an object and its closing brace. -/
def writeMembers : List (String × Json) → List Char
  | [] => ['\x7d']
  | [(k, v)] => writeString k.toList ++ (':' :: ' ' :: (writeValue v ++ ['\x7d']))
  | (k, v) :: fields =>
    writeString k.toList ++ (':' :: ' ' :: (writeValue v ++ (',' :: ' ' :: writeMembers fields)))

end

/-- `json.dumps(value)`. -/
def dumps (value : Json) : String := String.ofList (writeValue value)

end Write

/-! ### Reading -/

/-- Whitespace between the lexemes. -/
def space (c : Char) : Bool := c = ' ' || c = '\t' || c = '\n' || c = '\r'

def skipSpace (text : List Char) : List Char := text.dropWhile space

/-- The values that are words. -/
def words : List (List Char × Json) :=
  [(['n', 'u', 'l', 'l'], .null), (['t', 'r', 'u', 'e'], .bool true),
    (['f', 'a', 'l', 's', 'e'], .bool false), (['N', 'a', 'N'], .float .nan),
    (['I', 'n', 'f', 'i', 'n', 'i', 't', 'y'], .float (.inf false)),
    (['-', 'I', 'n', 'f', 'i', 'n', 'i', 't', 'y'], .float (.inf true))]

def readWord (text : List Char) : Option (Json × List Char) :=
  words.findSome? fun word => (word.1.isPrefixOf? text).map fun rest => (word.2, rest)

/-- The object of the members that were read: the last value of a key, where the
    key came first. -/
def dictOf (members : List (String × Json)) : Dict :=
  (members.foldl (fun d member => d.setItem member.1 member.2)
    (OrderedDict.empty : OrderedDict String Json)).entries

/-- A key, and what follows its colon. -/
def readKey : List Char → Option (String × List Char)
  | '"' :: text =>
    (readChars text.length text).bind fun r =>
      match skipSpace r.2 with
      | ':' :: rest => some (String.ofList r.1, skipSpace rest)
      | _ => none
  | _ => none

section Read

variable [PyJson]

/-- A number is an `int` unless it has a fraction or an exponent. -/
def readNumeral (text : List Char) : Option (Json × List Char) :=
  (readNumber text).map fun r =>
    (if r.2.1 then .float (PyJson.floatOf (String.ofList r.1)) else .int (intOf r.1), r.2.2)

mutual

/-- The value in front of a text. The number bounds how deep the calls go. -/
def readValue : Nat → List Char → Option (Json × List Char)
  | 0, _ => none
  | _ + 1, [] => none
  | n + 1, c :: rest =>
    if c = '"' then (readChars rest.length rest).map fun r => (.str (String.ofList r.1), r.2)
    else if c = '[' then
      match skipSpace rest with
      | ']' :: rest => some (.arr [], rest)
      | rest => (readElements n rest).map fun r => (.arr r.1, r.2)
    else if c = '\x7b' then
      match skipSpace rest with
      | '\x7d' :: rest => some (.obj [], rest)
      | rest => (readMembers n rest).map fun r => (.obj (dictOf r.1), r.2)
    else (readWord (c :: rest)).orElse fun _ => readNumeral (c :: rest)

/-- The elements of an array, with its closing bracket. -/
def readElements : Nat → List Char → Option (List Json × List Char)
  | 0, _ => none
  | n + 1, text =>
    (readValue n text).bind fun v =>
      match skipSpace v.2 with
      | ']' :: rest => some ([v.1], rest)
      | ',' :: rest => (readElements n (skipSpace rest)).map fun r => (v.1 :: r.1, r.2)
      | _ => none

/-- The members of an object, with its closing brace. -/
def readMembers : Nat → List Char → Option (List (String × Json) × List Char)
  | 0, _ => none
  | n + 1, text =>
    (readKey text).bind fun k =>
      (readValue n k.2).bind fun v =>
        match skipSpace v.2 with
        | '\x7d' :: rest => some ([(k.1, v.1)], rest)
        | ',' :: rest =>
          (readMembers n (skipSpace rest)).map fun r => ((k.1, v.1) :: r.1, r.2)
        | _ => none

end

/-- `json.loads(text)`. -/
def loads (text : String) : Option Json :=
  (readValue (2 * text.toList.length + 2) (skipSpace text.toList)).bind fun r =>
    if skipSpace r.2 = [] then some r.1 else none

/-! ### What is read -/

/-- A float as `loads` yields it. -/
def ReadFloat (x : PyFloat) : Prop :=
  x = .nan ∨ (∃ neg, x = .inf neg) ∨ ∃ text, PyJson.floatOf text = x

/-- A value that was read: its floats are, and no object has a key twice. -/
inductive Parsed : Json → Prop
  | null : Parsed .null
  | bool (b : Bool) : Parsed (.bool b)
  | int (n : ℤ) : Parsed (.int n)
  | float (x : PyFloat) (h : ReadFloat x) : Parsed (.float x)
  | str (s : String) : Parsed (.str s)
  | arr (xs : List Json) (h : ∀ x ∈ xs, Parsed x) : Parsed (.arr xs)
  | obj (fields : Dict) (hkeys : (fields.map Prod.fst).Nodup)
      (h : ∀ field ∈ fields, Parsed field.2) : Parsed (.obj fields)

omit [PyJson] in
/-- What an object holds was among its members. -/
theorem mem_setItem {d : OrderedDict String Json} {key : String} {value : Json}
    {field : String × Json} (h : field ∈ (d.setItem key value).entries) :
    field ∈ d.entries ∨ field = (key, value) := by
  by_cases hkey : key ∈ d.entries.map Prod.fst
  · rw [OrderedDict.entries_setItem_of_mem value hkey, OrderedDict.replaceValue,
      List.mem_map] at h
    rcases h with ⟨old, hold, hfield⟩
    by_cases hsame : old.1 = key
    · rw [if_pos hsame] at hfield
      exact Or.inr hfield.symm
    · rw [if_neg hsame] at hfield
      exact Or.inl (hfield ▸ hold)
  · have hentries : (d.setItem key value).entries = d.entries ++ [(key, value)] := if_neg hkey
    rw [hentries, List.mem_append, List.mem_singleton] at h
    exact h

omit [PyJson] in
theorem mem_dictOf {members : List (String × Json)} {field : String × Json}
    (h : field ∈ dictOf members) : field ∈ members := by
  have hfold : ∀ (rest : List (String × Json)) (d : OrderedDict String Json),
      field ∈ (rest.foldl (fun d member => d.setItem member.1 member.2) d).entries →
        field ∈ d.entries ∨ field ∈ rest := by
    intro rest
    induction rest with
    | nil => exact fun d hd => Or.inl hd
    | cons member rest ih =>
        intro d hd
        rcases ih _ hd with hin | hin
        · rcases mem_setItem hin with hold | hnew
          · exact Or.inl hold
          · exact Or.inr (hnew ▸ List.mem_cons_self)
        · exact Or.inr (List.mem_cons_of_mem _ hin)
  rcases hfold members _ h with hnone | hin
  · cases hnone
  · exact hin

omit [PyJson] in
theorem nodup_dictOf (members : List (String × Json)) : ((dictOf members).map Prod.fst).Nodup :=
  OrderedDict.nodup _

theorem parsed_word {text rest : List Char} {v : Json} (h : readWord text = some (v, rest)) :
    Parsed v := by
  rcases List.exists_of_findSome?_eq_some h with ⟨word, hword, hread⟩
  rcases Option.map_eq_some_iff.mp hread with ⟨tail, -, hv⟩
  rw [← (Prod.mk.inj hv).1]
  simp only [words, List.mem_cons, List.not_mem_nil, or_false] at hword
  rcases hword with rfl | rfl | rfl | rfl | rfl | rfl
  · exact .null
  · exact .bool _
  · exact .bool _
  · exact .float _ (Or.inl rfl)
  · exact .float _ (Or.inr (Or.inl ⟨_, rfl⟩))
  · exact .float _ (Or.inr (Or.inl ⟨_, rfl⟩))

theorem parsed_numeral {text rest : List Char} {v : Json}
    (h : readNumeral text = some (v, rest)) : Parsed v := by
  rcases Option.map_eq_some_iff.mp h with ⟨r, -, hv⟩
  rw [← (Prod.mk.inj hv).1]
  cases r.2.1 with
  | true => exact .float _ (Or.inr (Or.inr ⟨_, rfl⟩))
  | false => exact .int _

/-- By the depth of the calls, for values, elements and members together. -/
theorem parsed_read (n : Nat) :
    (∀ text v rest, readValue n text = some (v, rest) → Parsed v) ∧
    (∀ text vs rest, readElements n text = some (vs, rest) → ∀ v ∈ vs, Parsed v) ∧
    ∀ text ms rest, readMembers n text = some (ms, rest) → ∀ m ∈ ms, Parsed m.2 := by
  induction n with
  | zero =>
      refine ⟨fun _ _ _ h => ?_, fun _ _ _ h => ?_, fun _ _ _ h => ?_⟩
      · cases h
      · cases h
      · cases h
  | succ n ih =>
      rcases ih with ⟨hvalue, helements, hmembers⟩
      refine ⟨fun text v rest h => ?_, fun text vs rest h => ?_, fun text ms rest h => ?_⟩
      · cases text with
        | nil => cases h
        | cons c cs =>
            rw [readValue] at h
            split at h
            · rcases Option.map_eq_some_iff.mp h with ⟨r, -, hv⟩
              rw [← (Prod.mk.inj hv).1]
              exact .str _
            · split at h
              · split at h
                · rw [← (Prod.mk.inj (Option.some.inj h)).1]
                  exact .arr [] fun _ hx => by cases hx
                · rcases Option.map_eq_some_iff.mp h with ⟨r, hr, hv⟩
                  rw [← (Prod.mk.inj hv).1]
                  exact .arr _ (helements _ _ _ hr)
              · split at h
                · split at h
                  · rw [← (Prod.mk.inj (Option.some.inj h)).1]
                    exact .obj [] List.nodup_nil fun _ hx => by cases hx
                  · rcases Option.map_eq_some_iff.mp h with ⟨r, hr, hv⟩
                    rw [← (Prod.mk.inj hv).1]
                    exact .obj _ (nodup_dictOf _)
                      fun field hfield => hmembers _ _ _ hr field (mem_dictOf hfield)
                · cases hword : readWord (c :: cs) with
                  | some r =>
                      rw [hword, Option.orElse_some] at h
                      rw [Option.some.inj h] at hword
                      exact parsed_word hword
                  | none =>
                      rw [hword, Option.orElse_none] at h
                      exact parsed_numeral h
      · rw [readElements] at h
        rcases Option.bind_eq_some_iff.mp h with ⟨v, hv, h⟩
        have hfirst := hvalue _ _ _ hv
        split at h
        · rw [← (Prod.mk.inj (Option.some.inj h)).1]
          intro x hx
          rw [List.mem_singleton.mp hx]
          exact hfirst
        · rcases Option.map_eq_some_iff.mp h with ⟨r, hr, hvs⟩
          rw [← (Prod.mk.inj hvs).1]
          intro x hx
          rcases List.mem_cons.mp hx with rfl | hx
          · exact hfirst
          · exact helements _ _ _ hr x hx
        · cases h
      · rw [readMembers] at h
        rcases Option.bind_eq_some_iff.mp h with ⟨k, -, h⟩
        rcases Option.bind_eq_some_iff.mp h with ⟨v, hv, h⟩
        have hfirst := hvalue _ _ _ hv
        split at h
        · rw [← (Prod.mk.inj (Option.some.inj h)).1]
          intro x hx
          rw [List.mem_singleton.mp hx]
          exact hfirst
        · rcases Option.map_eq_some_iff.mp h with ⟨r, hr, hms⟩
          rw [← (Prod.mk.inj hms).1]
          intro x hx
          rcases List.mem_cons.mp hx with rfl | hx
          · exact hfirst
          · exact hmembers _ _ _ hr x hx
        · cases h

/-- `loads` yields nothing but values of this kind. -/
theorem loads_parsed {text : String} {v : Json} (h : loads text = some v) : Parsed v := by
  rcases Option.bind_eq_some_iff.mp h with ⟨r, hr, hv⟩
  split at hv
  · rw [← Option.some.inj hv]
    exact (parsed_read _).1 _ _ _ hr
  · cases hv

/-! ### What was written -/

/-- The text begins with a lexeme other than a closing bracket or brace. -/
def Begins (text : List Char) : Prop :=
  ∃ c tail, text = c :: tail ∧ space c = false ∧ c ≠ ']' ∧ c ≠ '\x7d'

omit [PyJson] in
theorem Begins.skipSpace {text : List Char} (h : Begins text) (rest : List Char) :
    skipSpace (text ++ rest) = text ++ rest := by
  rcases h with ⟨c, tail, rfl, hspace, -⟩
  rw [Json.skipSpace, List.cons_append, List.dropWhile_cons_of_neg (by rw [hspace]; decide)]

omit [PyJson] in
theorem skipSpace_cons {c : Char} (h : space c = false) (rest : List Char) :
    skipSpace (c :: rest) = c :: rest := List.dropWhile_cons_of_neg (by rw [h]; decide)

omit [PyJson] in
theorem begins_number {text : List Char} {r : List Char × Bool × List Char}
    (h : readNumber text = some r) : Begins text := by
  rcases readNumber_head h with ⟨c, tail, htext, hdigit | ⟨rfl, -⟩⟩
  · have hne : ∀ d : Char, d.isDigit = false → c ≠ d := by
      rintro d hd rfl
      rw [hdigit] at hd
      cases hd
    refine ⟨c, tail, htext, ?_, hne _ (by decide), hne _ (by decide)⟩
    simp only [space, decide_eq_false (hne ' ' (by decide)), decide_eq_false (hne '\t' (by decide)),
      decide_eq_false (hne '\n' (by decide)), decide_eq_false (hne '\r' (by decide)), Bool.or_self]
  · exact ⟨'-', tail, htext, by decide, by decide, by decide⟩

omit [PyJson] in
/-- No number begins like a word. -/
theorem readWord_number {text : List Char} {r : List Char × Bool × List Char}
    (h : readNumber text = some r) (rest : List Char) : readWord (text ++ rest) = none := by
  have hbeq : ∀ c d : Char, c.isDigit = true → d.isDigit = false → (d == c) = false := by
    rintro c d hc hd
    rw [beq_eq_false_iff_ne]
    rintro rfl
    rw [hc] at hd
    cases hd
  rcases readNumber_head h with ⟨c, tail, rfl, hdigit | ⟨rfl, d, tail', rfl, hdigit⟩⟩
  · simp [readWord, words, List.isPrefixOf?, hbeq c 'n' hdigit (by decide),
      hbeq c 't' hdigit (by decide), hbeq c 'f' hdigit (by decide), hbeq c 'N' hdigit (by decide),
      hbeq c 'I' hdigit (by decide), hbeq c '-' hdigit (by decide)]
  · simp [readWord, words, List.isPrefixOf?, hbeq d 'I' hdigit (by decide)]

/-- A number that was written alone is read in front of anything it ends at. -/
theorem readValue_number {text : List Char} {fractional : Bool}
    (h : readNumber text = some (text, fractional, [])) (n : Nat) {rest : List Char}
    (hrest : NumberEnds rest) :
    readValue (n + 1) (text ++ rest) = some
      (if fractional then .float (PyJson.floatOf (String.ofList text)) else .int (intOf text),
        rest) := by
  have hword := readWord_number h rest
  have hnumeral : readNumeral (text ++ rest) = some
      (if fractional then .float (PyJson.floatOf (String.ofList text)) else .int (intOf text),
        rest) := by
    rw [readNumeral, readNumber_append hrest, h]
    rfl
  rcases readNumber_head h with ⟨c, tail, htext, hhead⟩
  have hne : ∀ d : Char, d.isDigit = false → d ≠ '-' → c ≠ d := by
    rintro d hd hminus rfl
    rcases hhead with hdigit | ⟨hc, -⟩
    · rw [hdigit] at hd
      cases hd
    · exact hminus hc
  rw [htext, List.cons_append] at hword hnumeral ⊢
  rw [readValue, if_neg (hne _ (by decide) (by decide)), if_neg (hne _ (by decide) (by decide)),
    if_neg (hne _ (by decide) (by decide)), hword, Option.orElse_none]
  rw [← htext] at hnumeral ⊢
  exact hnumeral

/-- A float that was read is written as a number with a fraction, or as a word. -/
theorem writeFloat_cases {x : PyFloat} (h : ReadFloat x) :
    (∃ word ∈ words, word = (writeFloat x, .float x)) ∨
      FractionText (writeFloat x) ∧ PyJson.floatOf (String.ofList (writeFloat x)) = x := by
  cases x with
  | nan => exact Or.inl ⟨_, by simp [words, writeFloat], rfl⟩
  | inf neg =>
      cases neg with
      | true => exact Or.inl ⟨_, by simp [words, writeFloat], rfl⟩
      | false => exact Or.inl ⟨_, by simp [words, writeFloat], rfl⟩
  | finite neg m e =>
      rcases h with hnan | ⟨_, hinf⟩ | ⟨text, htext⟩
      · cases hnan
      · cases hinf
      · rcases PyJson.repr_read text neg m e htext with ⟨hfraction, hsame⟩
        refine Or.inr ⟨hfraction, ?_⟩
        rw [writeFloat, String.ofList_toList]
        exact hsame

theorem readValue_word {word : List Char × Json} (h : word ∈ words) (n : Nat)
    (rest : List Char) : readValue (n + 1) (word.1 ++ rest) = some (word.2, rest) := by
  simp only [words, List.mem_cons, List.not_mem_nil, or_false] at h
  rcases h with rfl | rfl | rfl | rfl | rfl | rfl
  all_goals simp [readValue, readWord, words, List.isPrefixOf?]

theorem writeValue_begins {v : Json} (h : Parsed v) : Begins (writeValue v) := by
  cases h with
  | null => exact ⟨_, _, rfl, by decide⟩
  | bool b => cases b <;> exact ⟨_, _, rfl, by decide⟩
  | int n => exact begins_number (readNumber_writeInt n)
  | float x hx =>
      rcases writeFloat_cases hx with ⟨word, hword, heq⟩ | ⟨hfraction, -⟩
      · rw [heq] at hword
        simp only [words, List.mem_cons, Prod.mk.injEq, List.not_mem_nil, or_false, reduceCtorEq,
          and_false, false_or] at hword
        rcases hword with ⟨htext, -⟩ | ⟨htext, -⟩ | ⟨htext, -⟩
        all_goals
          rw [writeValue, htext]
          exact ⟨_, _, rfl, by decide⟩
      · exact begins_number hfraction
  | str s => exact ⟨_, _, rfl, by decide⟩
  | arr xs => exact ⟨_, _, rfl, by decide⟩
  | obj fields => exact ⟨_, _, rfl, by decide⟩

/-- A value comes back, given calls deep enough for its text. -/
def ComesBack (v : Json) : Prop :=
  ∀ n rest, 2 * (writeValue v).length < n → NumberEnds rest →
    readValue n (writeValue v ++ rest) = some (v, rest)

omit [PyJson] in
theorem writeElements_cons [PyText] (x : Json) {xs : List Json} (hxs : xs ≠ []) :
    writeElements (x :: xs) = writeValue x ++ (',' :: ' ' :: writeElements xs) := by
  rw [writeElements]
  exact hxs

omit [PyJson] in
theorem writeMembers_cons [PyText] (k : String) (v : Json) {fields : Dict} (h : fields ≠ []) :
    writeMembers ((k, v) :: fields) = writeString k.toList ++
      (':' :: ' ' :: (writeValue v ++ (',' :: ' ' :: writeMembers fields))) := by
  rw [writeMembers]
  exact h

theorem begins_writeElements {xs : List Json} (hne : xs ≠ []) (h : ∀ x ∈ xs, Parsed x) :
    Begins (writeElements xs) := by
  rcases List.exists_cons_of_ne_nil hne with ⟨x, tail, rfl⟩
  rcases writeValue_begins (h x List.mem_cons_self) with ⟨c, text, htext, hc⟩
  cases tail with
  | nil => exact ⟨c, text ++ [']'], by rw [writeElements, htext, List.cons_append], hc⟩
  | cons y ys =>
      exact ⟨c, _, by rw [writeElements_cons x (List.cons_ne_nil _ _), htext, List.cons_append], hc⟩

/-- The elements of an array come back. -/
theorem readElements_write {xs : List Json} (hne : xs ≠ []) (hparsed : ∀ x ∈ xs, Parsed x)
    (h : ∀ x ∈ xs, ComesBack x) (n : Nat) (rest : List Char)
    (hn : 2 * (writeElements xs).length + 1 < n) :
    readElements n (writeElements xs ++ rest) = some (xs, rest) := by
  induction xs generalizing n with
  | nil => exact absurd rfl hne
  | cons x xs ih =>
      rcases Nat.exists_eq_succ_of_ne_zero (Nat.ne_zero_of_lt hn) with ⟨m, rfl⟩
      have hx := h x List.mem_cons_self
      rw [readElements]
      by_cases hxs : xs = []
      · subst hxs
        rw [writeElements, List.length_append, List.length_singleton] at hn
        rw [writeElements, List.append_assoc, List.singleton_append,
          hx m (']' :: rest) (by omega) (numberEnds_cons (by decide) _), Option.bind_some,
          skipSpace_cons (by decide)]
        rfl
      · rw [writeElements_cons x hxs, List.length_append, List.length_cons, List.length_cons] at hn
        rw [writeElements_cons x hxs, List.append_assoc, List.cons_append, List.cons_append,
          hx m (',' :: ' ' :: (writeElements xs ++ rest)) (by omega)
            (numberEnds_cons (by decide) _), Option.bind_some, skipSpace_cons (by decide)]
        have hrest : ∀ y ∈ xs, y ∈ x :: xs := fun y hy => List.mem_cons_of_mem _ hy
        have hblank : skipSpace (' ' :: (writeElements xs ++ rest)) = writeElements xs ++ rest :=
          (begins_writeElements hxs fun y hy => hparsed y (hrest y hy)).skipSpace rest
        simp only [hblank]
        rw [ih hxs (fun y hy => hparsed y (hrest y hy)) (fun y hy => h y (hrest y hy)) m (by omega),
          Option.map_some]

omit [PyJson] in
/-- A key comes back, and the blank after its colon is skipped. -/
theorem readKey_write (k : String) {text : List Char} (h : Begins text) (rest : List Char) :
    readKey (writeString k.toList ++ (':' :: ' ' :: (text ++ rest))) = some (k, text ++ rest) := by
  have hlength : k.toList.length
      < (writeChars k.toList ++ (':' :: ' ' :: (text ++ rest))).length := by
    have hchars := length_lt_writeChars k.toList
    rw [List.length_append]
    omega
  rw [writeString, List.cons_append, readKey, readChars_writeChars _ _ hlength, Option.bind_some,
    skipSpace_cons (by decide)]
  have hblank : skipSpace (' ' :: (text ++ rest)) = text ++ rest := h.skipSpace rest
  simp only [hblank, String.ofList_toList]

omit [PyJson] in
theorem begins_writeMembers [PyText] {fields : Dict} (hne : fields ≠ []) :
    Begins (writeMembers fields) := by
  rcases List.exists_cons_of_ne_nil hne with ⟨⟨k, v⟩, tail, rfl⟩
  by_cases htail : tail = []
  · subst htail
    exact ⟨'"', _, by rw [writeMembers, writeString, List.cons_append], by decide⟩
  · exact ⟨'"', _, by rw [writeMembers_cons k v htail, writeString, List.cons_append], by decide⟩

/-- The members of an object come back. -/
theorem readMembers_write {fields : Dict} (hne : fields ≠ [])
    (hparsed : ∀ field ∈ fields, Parsed field.2) (h : ∀ field ∈ fields, ComesBack field.2)
    (n : Nat) (rest : List Char) (hn : 2 * (writeMembers fields).length + 1 < n) :
    readMembers n (writeMembers fields ++ rest) = some (fields, rest) := by
  induction fields generalizing n with
  | nil => exact absurd rfl hne
  | cons field fields ih =>
      rcases field with ⟨k, v⟩
      rcases Nat.exists_eq_succ_of_ne_zero (Nat.ne_zero_of_lt hn) with ⟨m, rfl⟩
      have hv : ComesBack v := h (k, v) List.mem_cons_self
      have hbegins : Begins (writeValue v) := writeValue_begins (hparsed (k, v) List.mem_cons_self)
      rw [readMembers]
      by_cases hfields : fields = []
      · subst hfields
        simp only [writeMembers, List.length_append, List.length_cons, List.length_nil] at hn
        simp only [writeMembers, List.append_assoc, List.cons_append, List.nil_append]
        rw [readKey_write k hbegins, Option.bind_some,
          hv m ('\x7d' :: rest) (by omega) (numberEnds_cons (by decide) _), Option.bind_some,
          skipSpace_cons (by decide)]
        rfl
      · simp only [writeMembers_cons k v hfields, List.length_append, List.length_cons] at hn
        simp only [writeMembers_cons k v hfields, List.append_assoc, List.cons_append]
        rw [readKey_write k hbegins, Option.bind_some,
          hv m (',' :: ' ' :: (writeMembers fields ++ rest)) (by omega)
            (numberEnds_cons (by decide) _), Option.bind_some, skipSpace_cons (by decide)]
        have hrest : ∀ f ∈ fields, f ∈ (k, v) :: fields := fun f hf => List.mem_cons_of_mem _ hf
        have hblank : skipSpace (' ' :: (writeMembers fields ++ rest))
            = writeMembers fields ++ rest := (begins_writeMembers hfields).skipSpace rest
        simp only [hblank]
        rw [ih hfields (fun f hf => hparsed f (hrest f hf)) (fun f hf => h f (hrest f hf)) m
          (by omega), Option.map_some]

omit [PyJson] in
/-- An object without a key twice is made of its members. -/
theorem dictOf_of_nodup {fields : Dict} (h : (fields.map Prod.fst).Nodup) :
    dictOf fields = fields := by
  have hfold : ∀ (rest : Dict) (d : OrderedDict String Json),
      ((d.entries ++ rest).map Prod.fst).Nodup →
        (rest.foldl (fun d member => d.setItem member.1 member.2) d).entries
          = d.entries ++ rest := by
    intro rest
    induction rest with
    | nil => exact fun d _ => (List.append_nil _).symm
    | cons member rest ih =>
        intro d hd
        have hnew : member.1 ∉ d.entries.map Prod.fst := by
          intro hin
          rw [List.map_append, List.nodup_append] at hd
          exact hd.2.2 _ hin _ List.mem_cons_self rfl
        have hset : (d.setItem member.1 member.2).entries = d.entries ++ [member] := if_neg hnew
        rw [List.foldl_cons, ih]
        · rw [hset, List.append_assoc, List.singleton_append]
        · rw [hset, List.append_assoc, List.singleton_append]
          exact hd
  exact hfold fields OrderedDict.empty h

/-- By induction on the value: a scalar is one lexeme, and a container is read
    with one level of calls fewer, which its brackets have paid for. -/
theorem comesBack {v : Json} (h : Parsed v) : ComesBack v := by
  have hword : ∀ word ∈ words, writeValue word.2 = word.1 → ComesBack word.2 := by
    intro word hmem hwritten n rest hn _
    rcases Nat.exists_eq_succ_of_ne_zero (Nat.ne_zero_of_lt hn) with ⟨m, rfl⟩
    rw [hwritten]
    exact readValue_word hmem m rest
  induction h with
  | null => exact hword (['n', 'u', 'l', 'l'], .null) (by simp [words]) rfl
  | bool b =>
      cases b with
      | true => exact hword (['t', 'r', 'u', 'e'], .bool true) (by simp [words]) rfl
      | false => exact hword (['f', 'a', 'l', 's', 'e'], .bool false) (by simp [words]) rfl
  | int i =>
      intro n rest hn hrest
      rcases Nat.exists_eq_succ_of_ne_zero (Nat.ne_zero_of_lt hn) with ⟨m, rfl⟩
      rw [writeValue, readValue_number (readNumber_writeInt i) m hrest, intOf_writeInt]
      rfl
  | float x hx =>
      rcases writeFloat_cases hx with ⟨word, hmem, rfl⟩ | ⟨hfraction, hsame⟩
      · exact hword _ hmem rfl
      · intro n rest hn hrest
        rcases Nat.exists_eq_succ_of_ne_zero (Nat.ne_zero_of_lt hn) with ⟨m, rfl⟩
        rw [writeValue, readValue_number hfraction m hrest, hsame]
        rfl
  | str s =>
      intro n rest hn _
      rcases Nat.exists_eq_succ_of_ne_zero (Nat.ne_zero_of_lt hn) with ⟨m, rfl⟩
      have hlength : s.toList.length < (writeChars s.toList ++ rest).length := by
        have hchars := length_lt_writeChars s.toList
        rw [List.length_append]
        omega
      rw [writeValue, writeString, List.cons_append, readValue, if_pos rfl,
        readChars_writeChars _ _ hlength, Option.map_some, String.ofList_toList]
  | arr xs hparsed ih =>
      intro n rest hn _
      rcases Nat.exists_eq_succ_of_ne_zero (Nat.ne_zero_of_lt hn) with ⟨m, rfl⟩
      rw [writeValue, List.length_cons] at hn
      rw [writeValue, List.cons_append, readValue, if_neg (by decide), if_pos rfl]
      by_cases hxs : xs = []
      · subst hxs
        rw [writeElements, List.singleton_append, skipSpace_cons (by decide)]
        rfl
      · have hbegins := begins_writeElements hxs hparsed
        have hread := readElements_write hxs hparsed ih m rest (by omega)
        rw [hbegins.skipSpace]
        rcases hbegins with ⟨c, tail, htext, -, hbracket, -⟩
        rw [htext, List.cons_append] at hread ⊢
        split
        · next heq => exact absurd (List.cons.inj heq).1 hbracket
        · rw [hread]
          rfl
  | obj fields hkeys hparsed ih =>
      intro n rest hn _
      rcases Nat.exists_eq_succ_of_ne_zero (Nat.ne_zero_of_lt hn) with ⟨m, rfl⟩
      rw [writeValue, List.length_cons] at hn
      rw [writeValue, List.cons_append, readValue, if_neg (by decide), if_neg (by decide),
        if_pos rfl]
      by_cases hfields : fields = []
      · subst hfields
        rw [writeMembers, List.singleton_append, skipSpace_cons (by decide)]
        rfl
      · have hbegins := begins_writeMembers hfields
        have hread := readMembers_write hfields hparsed ih m rest (by omega)
        rw [hbegins.skipSpace]
        rcases hbegins with ⟨c, tail, htext, -, -, hbrace⟩
        rw [htext, List.cons_append] at hread ⊢
        split
        · next heq => exact absurd (List.cons.inj heq).1 hbrace
        · rw [hread, Option.map_some, dictOf_of_nodup hkeys]

/-- A value that was read, written and read again is the same value. -/
theorem loads_dumps {v : Json} (h : Parsed v) : loads (dumps v) = some v := by
  have hback := comesBack h (2 * (writeValue v).length + 2) [] (by omega) numberEnds_nil
  have hskip := (writeValue_begins h).skipSpace []
  rw [List.append_nil] at hback hskip
  rw [loads, dumps, String.toList_ofList, hskip, hback]
  rfl

end Read

end Json

end MmrEngine
