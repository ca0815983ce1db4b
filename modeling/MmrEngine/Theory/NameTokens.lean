import MmrEngine.Engine.Masking
import MmrEngine.Engine.Pii
import MmrEngine.Lib.Overlap
import MmrEngine.Lib.RegexSemantics
import Mathlib.Data.Finset.Image
import Mathlib.Data.List.Chain

/-!
# Names as Sets of Words

Two names are compared through the keyed tokens of their words, and the
comparison says no more than the words do: as long as no two of them have one
token, it is the similarity of the two sets of words (`Lib.Overlap`).

The words of a name are what the normaliser leaves of it. On ASCII it cuts the
name at everything that is neither a letter nor a digit, and the pieces,
capitalised, are the words, without those that carry no identity. `Layout` is a
name taken apart that way, and every ASCII name has one (`exists_layout`). So
whatever rewrites a name without touching that set goes unnoticed: other
separators, another order, another case, a word said twice, another title.

## Main definitions

* `nameSimilarity`: The similarity of two names.
* `wordSet`: The normalised words of a name.
* `AsciiTables`: What Python's tables say about ASCII.
* `Layout`: Words and what stands between them.
* `Rewording`, `Rewrites`: The rewritings of a name that leave its words.

## Theorems

* `words_subst`: The words of a cleaned text.
* `normaliseNameTokens_layout`: The normalised words of a layout.
* `exists_layout`: Every ASCII name has a layout.
* `rewrites_wordSet`: Rewritten names have the same words.
* `nameTokenSimilarity_eq`: The similarity of token sets.
* `name_similarity_of_words`: The similarity depends on the words alone.
-/

namespace MmrEngine

namespace Pii

open Overlap

section Words

/-- The nonempty pieces of a text cut at some characters. -/
def wordsBy (sep : Char → Bool) (cs : List Char) : List (List Char) :=
  (cs.splitOnP sep).filter (· ≠ [])

variable {sep : Char → Bool}

theorem wordsBy_word {w : List Char} (hw : ∀ c ∈ w, sep c = false) :
    wordsBy sep w = if w = [] then [] else [w] := by
  rw [wordsBy, List.splitOnP_eq_singleton hw]
  by_cases h : w = []
  · simp only [h, if_true]
    rfl
  · simp only [if_neg h]
    exact List.filter_cons_of_pos (decide_eq_true h)

/-- A word ends at the first separator. -/
theorem wordsBy_append {w : List Char} (hw : ∀ c ∈ w, sep c = false) {c : Char}
    (hc : sep c = true) (t : List Char) :
    wordsBy sep (w ++ c :: t) = (if w = [] then [] else [w]) ++ wordsBy sep t := by
  rw [wordsBy, List.splitOnP_append_cons_of_forall_mem hw c hc]
  by_cases h : w = []
  · simp only [if_pos h, List.nil_append]
    exact List.filter_cons_of_neg (by simp only [h, ne_eq, not_true_eq_false, decide_false,
      Bool.false_eq_true, not_false_eq_true])
  · simp only [if_neg h]
    exact List.filter_cons_of_pos (decide_eq_true h)

/-- Separators before a text make no difference. -/
theorem wordsBy_separators {v : List Char} (hv : ∀ c ∈ v, sep c = true) (t : List Char) :
    wordsBy sep (v ++ t) = wordsBy sep t := by
  induction v with
  | nil => rfl
  | cons c v ih =>
      have hfirst := wordsBy_append (w := []) (fun x hx => absurd hx List.not_mem_nil)
        (hv c List.mem_cons_self) (v ++ t)
      rw [List.nil_append, if_pos rfl, List.nil_append] at hfirst
      rw [List.cons_append, hfirst]
      exact ih fun x hx => hv x (List.mem_cons_of_mem _ hx)

/-- What a word of a normalised name is made of. -/
def nameChar (c : Char) : Bool := c.isUpper || c.isDigit

/-- An ASCII fact is one about 128 characters. -/
theorem ascii_forall {P : Char → Prop} (h : ∀ n : Fin 128, P (Char.ofNat n)) {c : Char}
    (hc : c.toNat < 128) : P c := by
  have hn := h ⟨c.toNat, hc⟩
  rw [Char.ofNat_toNat] at hn
  exact hn

theorem nameChar_ascii {c : Char} (h : nameChar c = true) : c.toNat < 128 := by
  unfold nameChar Char.isUpper Char.isDigit at h
  simp only [Bool.or_eq_true, Bool.and_eq_true, decide_eq_true_eq, UInt32.le_iff_toNat_le] at h
  have h9 : ('9'.val : UInt32).toNat = 57 := rfl
  have hZ : ('Z'.val : UInt32).toNat = 90 := rfl
  show c.val.toNat < 128
  rcases h with h | h
  · omega
  · omega

variable [PyText]

theorem isspace_nameChar {c : Char} (h : nameChar c = true) : PyText.isspace c = false := by
  have hc := nameChar_ascii h
  rw [PyText.isspace_ascii c hc]
  refine ascii_forall (P := fun c => nameChar c = true → asciiSpace c = false) ?_ hc h
  decide

theorem isspace_blank : PyText.isspace ' ' = true := by
  rw [PyText.isspace_ascii ' ' (by decide)]
  rfl

/-- The words of a text are those of the cleaned text. -/
theorem words_subst {b t out : List Char} (h : Regex.Subst nonAlnum [' '] b t out) :
    ∀ w, (∀ c ∈ w, nameChar c = true) →
      wordsBy PyText.isspace (w ++ out) = wordsBy (fun c => !nameChar c) (w ++ t) := by
  have hspace : ∀ w : List Char, (∀ c ∈ w, nameChar c = true) →
      ∀ c ∈ w, PyText.isspace c = false := fun w hw c hc => isspace_nameChar (hw c hc)
  have hother : ∀ w : List Char, (∀ c ∈ w, nameChar c = true) →
      ∀ c ∈ w, (!nameChar c) = false := by
    intro w hw c hc
    rw [hw c hc]
    rfl
  induction h with
  | done b =>
      intro w hw
      rw [List.append_nil, wordsBy_word (hspace w hw), wordsBy_word (hother w hw)]
  | skip b c t out hno h ih =>
      intro w hw
      by_cases hc : nameChar c = true
      · -- The word goes on.
        have hnext := ih (w ++ [c]) fun d hd => by
          rcases List.mem_append.mp hd with hd | hd
          · exact hw d hd
          · rw [List.mem_singleton.mp hd]
            exact hc
        simpa only [List.append_assoc, List.cons_append, List.nil_append] using hnext
      · have hblank : c = ' ' := by
          by_contra hne
          refine hno [c] t rfl (Regex.matches_plus_singleton ?_ b t)
          unfold nameChar at hc
          simp only [hc, hne, decide_false, Bool.or_false, Bool.not_eq_true'] at hc ⊢
        rw [hblank, wordsBy_append (hspace w hw) isspace_blank,
          wordsBy_append (hother w hw) (by decide)]
        exact congrArg _ (ih [] fun d hd => absurd hd List.not_mem_nil)
  | hit b v t out hne hm h ih =>
      intro w hw
      rcases Regex.matches_plus_char hm with ⟨_, hv⟩
      have hsep : ∀ c ∈ v, (!nameChar c) = true := by
        intro c hc
        have hclass := hv c hc
        unfold nameChar
        simp only [Bool.not_eq_true', Bool.or_eq_false_iff] at hclass ⊢
        exact hclass.1
      cases v with
      | nil => exact absurd rfl hne
      | cons c v =>
          rw [List.cons_append, List.nil_append, List.cons_append,
            wordsBy_append (hspace w hw) isspace_blank,
            wordsBy_append (hother w hw) (hsep c List.mem_cons_self),
            wordsBy_separators fun d hd => hsep d (List.mem_cons_of_mem _ hd)]
          exact congrArg _ (ih [] fun d hd => absurd hd List.not_mem_nil)

end Words

section Layouts

/-- What stands between the words of an ASCII name. -/
def separator (c : Char) : Bool := decide (c.toNat < 128) && !c.isAlphanum

/-- A letter or a digit. -/
def wordChar (c : Char) : Bool := decide (c.toNat < 128) && c.isAlphanum

/-- An ASCII name taken apart: what stands before the first word, and each word
    with what follows it, which is something unless it is the last. -/
structure Layout where
  front : List Char
  parts : List (List Char × List Char)
  front_sep : ∀ c ∈ front, separator c = true
  word_ne : ∀ p ∈ parts, p.1 ≠ []
  word_char : ∀ p ∈ parts, ∀ c ∈ p.1, wordChar c = true
  follow_sep : ∀ p ∈ parts, ∀ c ∈ p.2, separator c = true
  apart : parts.IsChain fun p _ => p.2 ≠ []

/-- Words and what follows them, put together again. -/
def joined (parts : List (List Char × List Char)) : List Char :=
  parts.flatMap fun p => p.1 ++ p.2

namespace Layout

def name (l : Layout) : String := String.ofList (l.front ++ joined l.parts)

def words (l : Layout) : List (List Char) := l.parts.map Prod.fst

end Layout

/-- `upper` of an ASCII word. -/
def capitals (w : List Char) : List Char := w.map Char.toUpper

theorem nameChar_toUpper {c : Char} (h : wordChar c = true) : nameChar c.toUpper = true := by
  have hc : c.toNat < 128 := by
    simp only [wordChar, Bool.and_eq_true, decide_eq_true_eq] at h
    exact h.1
  refine ascii_forall (P := fun c => wordChar c = true → nameChar c.toUpper = true) ?_ hc h
  decide

theorem separator_toUpper {c : Char} (h : separator c = true) :
    (!nameChar c.toUpper) = true := by
  have hc : c.toNat < 128 := by
    simp only [separator, Bool.and_eq_true, decide_eq_true_eq] at h
    exact h.1
  refine ascii_forall (P := fun c => separator c = true → (!nameChar c.toUpper) = true) ?_ hc h
  decide

theorem capitals_word {w : List Char} (hw : ∀ c ∈ w, wordChar c = true) :
    ∀ c ∈ capitals w, (!nameChar c) = false := by
  intro c hc
  rcases List.mem_map.mp hc with ⟨d, hd, rfl⟩
  rw [nameChar_toUpper (hw d hd)]
  rfl

theorem capitals_separators {w : List Char} (hw : ∀ c ∈ w, separator c = true) :
    ∀ c ∈ capitals w, (!nameChar c) = true := by
  intro c hc
  rcases List.mem_map.mp hc with ⟨d, hd, rfl⟩
  exact separator_toUpper (hw d hd)

/-- The words of a text that begins with a word. -/
theorem words_joined {parts : List (List Char × List Char)} (hne : ∀ p ∈ parts, p.1 ≠ [])
    (hchar : ∀ p ∈ parts, ∀ c ∈ p.1, wordChar c = true)
    (hsep : ∀ p ∈ parts, ∀ c ∈ p.2, separator c = true)
    (hapart : parts.IsChain fun p _ => p.2 ≠ []) :
    wordsBy (fun c => !nameChar c) (capitals (joined parts)) =
      parts.map fun p => capitals p.1 := by
  induction parts with
  | nil => rfl
  | cons p rest ih =>
      have hword : capitals p.1 ≠ [] := by
        intro h
        exact hne p List.mem_cons_self (List.map_eq_nil_iff.mp h)
      have hclear := capitals_word (hchar p List.mem_cons_self)
      have hrest := ih (fun q hq => hne q (List.mem_cons_of_mem _ hq))
        (fun q hq => hchar q (List.mem_cons_of_mem _ hq))
        (fun q hq => hsep q (List.mem_cons_of_mem _ hq)) (List.IsChain.tail hapart)
      have htext : capitals (joined (p :: rest)) =
          capitals p.1 ++ (capitals p.2 ++ capitals (joined rest)) := by
        simp only [capitals, joined, List.flatMap_cons, List.map_append, List.append_assoc]
      rw [htext, List.map_cons]
      cases hfollow : p.2 with
      | nil =>
          -- Only the last word is followed by nothing.
          cases rest with
          | nil =>
              rw [show capitals ([] : List Char) ++ capitals (joined []) = [] from rfl,
                List.append_nil, wordsBy_word hclear, if_neg hword]
              rfl
          | cons q rest => exact absurd hfollow (List.isChain_cons_cons.mp hapart).1
      | cons c cs =>
          have hfirst := capitals_separators (hsep p List.mem_cons_self)
          rw [hfollow] at hfirst
          have hcut := wordsBy_separators (v := capitals cs)
            (fun d hd => hfirst d (List.mem_cons_of_mem _ hd)) (capitals (joined rest))
          rw [show capitals (c :: cs) = c.toUpper :: capitals cs from rfl, List.cons_append,
            wordsBy_append hclear (hfirst _ List.mem_cons_self), if_neg hword, hcut, hrest]
          rfl

/-- The words of a layout are the words of its name. -/
theorem words_name (l : Layout) :
    wordsBy (fun c => !nameChar c) (capitals l.name.toList) = l.words.map capitals := by
  have htext : capitals l.name.toList = capitals l.front ++ capitals (joined l.parts) := by
    simp only [Layout.name, String.toList_ofList, capitals, List.map_append]
  rw [htext, wordsBy_separators (capitals_separators l.front_sep),
    words_joined l.word_ne l.word_char l.follow_sep l.apart, Layout.words, List.map_map]
  rfl

/-- Every ASCII name has a layout. -/
theorem exists_layout {cs : List Char} (h : ∀ c ∈ cs, c.toNat < 128) :
    ∃ l : Layout, l.front ++ joined l.parts = cs := by
  induction cs with
  | nil =>
      exact ⟨{ front := [], parts := [], front_sep := by simp, word_ne := by simp,
               word_char := by simp, follow_sep := by simp, apart := List.isChain_nil }, rfl⟩
  | cons c cs ih =>
      rcases ih fun d hd => h d (List.mem_cons_of_mem _ hd) with ⟨l, hl⟩
      by_cases halnum : c.isAlphanum = true
      · have hc : wordChar c = true := by
          simp only [wordChar, halnum, h c List.mem_cons_self, decide_true, Bool.and_true]
        by_cases hjoin : l.front = [] ∧ l.parts ≠ []
        · -- The first word begins one character earlier.
          cases hparts : l.parts with
          | nil => exact absurd hparts hjoin.2
          | cons p rest =>
              have hne := l.word_ne
              have hchar := l.word_char
              have hsep := l.follow_sep
              have hapart := l.apart
              rw [hparts, List.forall_mem_cons] at hne hchar hsep
              rw [hparts] at hapart hl
              refine ⟨{ front := []
                        parts := (c :: p.1, p.2) :: rest
                        front_sep := fun d hd => absurd hd List.not_mem_nil
                        word_ne := List.forall_mem_cons.mpr ⟨List.cons_ne_nil _ _, hne.2⟩
                        word_char := List.forall_mem_cons.mpr
                          ⟨List.forall_mem_cons.mpr ⟨hc, hchar.1⟩, hchar.2⟩
                        follow_sep := List.forall_mem_cons.mpr hsep
                        apart := ?_ }, ?_⟩
              · cases rest with
                | nil => exact List.isChain_singleton _
                | cons q rest => exact List.isChain_cons_cons.mpr (List.isChain_cons_cons.mp hapart)
              · rw [hjoin.1] at hl
                exact congrArg (List.cons c) hl
        · -- A word of one character, and what was in front follows it.
          refine ⟨{ front := []
                    parts := ([c], l.front) :: l.parts
                    front_sep := fun d hd => absurd hd List.not_mem_nil
                    word_ne := List.forall_mem_cons.mpr ⟨List.cons_ne_nil _ _, l.word_ne⟩
                    word_char := List.forall_mem_cons.mpr
                      ⟨fun d hd => List.mem_singleton.mp hd ▸ hc, l.word_char⟩
                    follow_sep := List.forall_mem_cons.mpr ⟨l.front_sep, l.follow_sep⟩
                    apart := ?_ }, ?_⟩
          · cases hparts : l.parts with
            | nil => exact List.isChain_singleton _
            | cons q rest =>
                refine List.isChain_cons_cons.mpr ⟨fun hf => ?_, hparts ▸ l.apart⟩
                exact hjoin ⟨hf, hparts ▸ List.cons_ne_nil q rest⟩
          · exact congrArg (List.cons c) hl
      · have hc : separator c = true := by
          simp only [separator, halnum, h c List.mem_cons_self, decide_true, Bool.not_false,
            Bool.and_true]
        refine ⟨{ l with front := c :: l.front, front_sep := ?_ }, ?_⟩
        · intro d hd
          rcases List.mem_cons.mp hd with rfl | hd
          · exact hc
          · exact l.front_sep d hd
        · show c :: (l.front ++ joined l.parts) = c :: cs
          rw [hl]

end Layouts

section Names

variable [PyLibrary]

/-- What Python's tables say about ASCII: letters are capitalised one by one,
    nothing is composed, and nothing combines. -/
structure AsciiTables : Prop where
  upper : ∀ s : String, (∀ c ∈ s.toList, c.toNat < 128) →
    PyLibrary.upper s = String.ofList (capitals s.toList)
  nfkd : ∀ s : String, (∀ c ∈ s.toList, c.toNat < 128) → PyLibrary.nfkd s = s
  combining : ∀ c : Char, c.toNat < 128 → PyLibrary.combining c = false

/-- A word that carries no identity: a stopword, or one letter. -/
def noise (w : List Char) : Bool :=
  decide (String.ofList (capitals w) ∈ nameStopwords) || decide (w.length ≤ 1)

/-- The normalised words of a name. -/
def wordSet (name : String) : Finset String := (normaliseNameTokens (some name)).toFinset

omit [PyLibrary] in
theorem mem_sortedSet {words : List String} {w : String} : w ∈ sortedSet words ↔ w ∈ words := by
  rw [sortedSet, List.mem_insertionSort, List.mem_dedup]

omit [PyLibrary] in
theorem nonAlnum_nonempty (b a : List Char) : ¬ Regex.Matches nonAlnum b [] a :=
  fun h => (Regex.matches_plus_char h).1 rfl

/-- The words that normalising finds. -/
theorem splitWords_cleaned (t : List Char) :
    splitWords (Regex.sub nonAlnum " " (String.ofList t)) =
      (wordsBy (fun c => !nameChar c) t).map String.ofList := by
  have hsubst := Regex.subst_sub nonAlnum_nonempty " " (String.ofList t)
  have hwords := words_subst hsubst [] fun c hc => absurd hc List.not_mem_nil
  rw [List.nil_append, List.nil_append, String.toList_ofList] at hwords
  rw [splitWords, ← hwords, wordsBy]

omit [PyLibrary] in
theorem ascii_name (l : Layout) : ∀ c ∈ l.name.toList, c.toNat < 128 := by
  intro c hc
  rw [Layout.name, String.toList_ofList, List.mem_append] at hc
  rcases hc with hfront | hparts
  · have hsep := l.front_sep c hfront
    simp only [separator, Bool.and_eq_true, decide_eq_true_eq] at hsep
    exact hsep.1
  · rcases List.mem_flatMap.mp hparts with ⟨p, hp, hcp⟩
    rcases List.mem_append.mp hcp with hword | hfollow
    · have hchar := l.word_char p hp c hword
      simp only [wordChar, Bool.and_eq_true, decide_eq_true_eq] at hchar
      exact hchar.1
    · have hsep := l.follow_sep p hp c hfollow
      simp only [separator, Bool.and_eq_true, decide_eq_true_eq] at hsep
      exact hsep.1

/-- Normalising an ASCII name. -/
theorem normaliseNameTokens_ascii (tables : AsciiTables) {name : String}
    (hascii : ∀ c ∈ name.toList, c.toNat < 128) :
    normaliseNameTokens (some name) =
      sortedSet (((wordsBy (fun c => !nameChar c) (capitals name.toList)).map String.ofList).filter
        fun t => t ∉ nameStopwords ∧ 1 < t.toList.length) := by
  have hkept : String.ofList (name.toList.filter fun c => !PyLibrary.combining c) = name := by
    rw [List.filter_eq_self.mpr, String.ofList_toList]
    intro c hc
    rw [tables.combining c (hascii c hc)]
    rfl
  unfold normaliseNameTokens
  by_cases hempty : name = ""
  · rw [hempty]
    rfl
  · simp only [Option.getD_some, if_neg hempty, tables.nfkd name hascii, hkept,
      tables.upper name hascii, splitWords_cleaned]

omit [PyLibrary] in
/-- A word is kept unless it carries no identity. -/
theorem kept_iff (x : List Char) :
    (String.ofList (capitals x) ∉ nameStopwords ∧ 1 < (String.ofList (capitals x)).toList.length) ↔
      noise x = false := by
  unfold noise
  rw [String.toList_ofList, capitals, List.length_map, Bool.or_eq_false_iff,
    decide_eq_false_iff_not, decide_eq_false_iff_not, not_le]

/-- The normalised words of a layout are its words, capitalised, without those
    that carry no identity. -/
theorem mem_wordSet_layout (tables : AsciiTables) (l : Layout) {w : String} :
    w ∈ wordSet l.name ↔
      ∃ x ∈ l.words, noise x = false ∧ w = String.ofList (capitals x) := by
  rw [wordSet, List.mem_toFinset, normaliseNameTokens_ascii tables (ascii_name l), mem_sortedSet,
    words_name, List.mem_filter, List.map_map, List.mem_map, decide_eq_true_iff]
  constructor
  · rintro ⟨⟨x, hx, rfl⟩, hkept⟩
    exact ⟨x, hx, (kept_iff x).mp hkept, rfl⟩
  · rintro ⟨x, hx, hnoise, rfl⟩
    exact ⟨⟨x, hx, rfl⟩, (kept_iff x).mpr hnoise⟩

/-- Rewordings of a name. -/
inductive Rewording : List (List Char) → List (List Char) → Prop
  /- The words stay, and what stands between them changes. -/
  | respace (words : List (List Char)) : Rewording words words
  | permute (words words' : List (List Char)) (h : words.Perm words') : Rewording words words'
  | sayAgain (words : List (List Char)) (w : List Char) (hw : w ∈ words) :
      Rewording words (w :: words)
  | recase (words words' : List (List Char)) (h : words.map capitals = words'.map capitals) :
      Rewording words words'
  | addNoise (words : List (List Char)) (w : List Char) (hw : noise w = true) :
      Rewording words (w :: words)

/-- A name is another one reworded, any number of times. -/
def Rewrites : String → String → Prop :=
  Relation.ReflTransGen fun name name' =>
    ∃ l l' : Layout, l.name = name ∧ l'.name = name' ∧ Rewording l.words l'.words

omit [PyLibrary] in
theorem noise_congr {x x' : List Char} (h : capitals x = capitals x') : noise x = noise x' := by
  have hlength := congrArg List.length h
  rw [capitals, capitals, List.length_map, List.length_map] at hlength
  rw [noise, noise, h, hlength]

omit [PyLibrary] in
/-- A rewording keeps the words that count. -/
theorem rewording_kept {words words' : List (List Char)} (h : Rewording words words')
    (w : String) :
    (∃ x ∈ words, noise x = false ∧ w = String.ofList (capitals x)) ↔
      ∃ x ∈ words', noise x = false ∧ w = String.ofList (capitals x) := by
  cases h with
  | respace => exact Iff.rfl
  | permute _ hperm => simp only [hperm.mem_iff]
  | sayAgain v hv =>
      constructor
      · rintro ⟨x, hx, hkept⟩
        exact ⟨x, List.mem_cons_of_mem _ hx, hkept⟩
      · rintro ⟨x, hx, hkept⟩
        rcases List.mem_cons.mp hx with rfl | hx
        · exact ⟨x, hv, hkept⟩
        · exact ⟨x, hx, hkept⟩
  | recase _ hcapitals =>
      -- Capitals are all that is looked at, of a word and of its being noise.
      have hone : ∀ ws ws' : List (List Char), ws.map capitals = ws'.map capitals →
          (∃ x ∈ ws, noise x = false ∧ w = String.ofList (capitals x)) →
            ∃ x ∈ ws', noise x = false ∧ w = String.ofList (capitals x) := by
        rintro ws ws' heq ⟨x, hx, hnoise, rfl⟩
        have hmem : capitals x ∈ ws'.map capitals := heq ▸ List.mem_map_of_mem hx
        rcases List.mem_map.mp hmem with ⟨x', hx', hsame⟩
        exact ⟨x', hx', (noise_congr hsame).trans hnoise, by rw [hsame]⟩
      exact ⟨hone _ _ hcapitals, hone _ _ hcapitals.symm⟩
  | addNoise v hv =>
      constructor
      · rintro ⟨x, hx, hkept⟩
        exact ⟨x, List.mem_cons_of_mem _ hx, hkept⟩
      · rintro ⟨x, hx, hnoise, hw⟩
        rcases List.mem_cons.mp hx with rfl | hx
        · -- The word that was added does not count.
          rw [hv] at hnoise
          cases hnoise
        · exact ⟨x, hx, hnoise, hw⟩

/-- The normalised words do not change. -/
theorem rewording_wordSet (tables : AsciiTables) {l l' : Layout}
    (h : Rewording l.words l'.words) : wordSet l.name = wordSet l'.name := by
  ext w
  rw [mem_wordSet_layout tables, mem_wordSet_layout tables]
  exact rewording_kept h w

theorem rewrites_wordSet (tables : AsciiTables) {name name' : String}
    (h : Rewrites name name') : wordSet name = wordSet name' := by
  induction h with
  | refl => rfl
  | tail _ hstep ih =>
      rcases hstep with ⟨l, l', hl, hl', hreword⟩
      rw [ih, ← hl, ← hl']
      exact rewording_wordSet tables hreword

/-- `hmac.new(key, word).hexdigest()[:32]`. -/
def token (word : String) : String := takeFirst (PyLibrary.hmacHex word) 32

/-- The similarity of two names, through their tokens. -/
def nameSimilarity (a b : String) : Option ℚ :=
  nameTokenSimilarity (some (tokenizeName (some a))) (some (tokenizeName (some b)))

omit [PyLibrary] in
/-- Lists of tokens are compared as sets. -/
theorem nameTokenSimilarity_eq (x y : List String) :
    nameTokenSimilarity (some x) (some y) = similarity x.toFinset y.toFinset := by
  have hcommon : (x.dedup.filter fun t => t ∈ y.dedup).length =
      (x.toFinset ∩ y.toFinset).card := by
    rw [← List.toFinset_card_of_nodup (x.nodup_dedup.filter _)]
    congr 1
    ext t
    simp only [List.mem_toFinset, List.mem_filter, List.mem_dedup, decide_eq_true_eq,
      Finset.mem_inter]
  have hempty : ∀ l : List String, noName (some l) = true ↔ l.toFinset.card = 0 := by
    intro l
    rw [noName, Option.getD_some, List.isEmpty_iff, Finset.card_eq_zero, List.toFinset_eq_empty_iff]
  have hnone : (noName (some x) || noName (some y)) = true ↔
      x.toFinset.card = 0 ∨ y.toFinset.card = 0 := by
    rw [Bool.or_eq_true, hempty, hempty]
  unfold nameTokenSimilarity similarity coefficient
  by_cases h : x.toFinset.card = 0 ∨ y.toFinset.card = 0
  · rw [if_pos (hnone.mpr h), if_pos h]
  · rw [if_neg fun hc => h (hnone.mp hc), if_neg h]
    simp only [Option.getD_some, hcommon, List.card_toFinset]
    rfl

theorem toFinset_tokenizeName (name : String) :
    (tokenizeName (some name)).toFinset = (wordSet name).image token := by
  ext t
  rw [List.mem_toFinset, tokenizeName, mem_sortedSet, List.mem_map, Finset.mem_image]
  simp only [wordSet, List.mem_toFinset, token]

/-- The similarity is that of the sets of tokens. -/
theorem nameSimilarity_eq (a b : String) :
    nameSimilarity a b = similarity ((wordSet a).image token) ((wordSet b).image token) := by
  rw [nameSimilarity, nameTokenSimilarity_eq, toFinset_tokenizeName, toFinset_tokenizeName]

/-- The similarity of two names depends on their normalised words alone.
    There is none if either has no words. Otherwise it does not matter which
    comes first, and it is between 0 and 1, 0 exactly for disjoint sets, and 1
    exactly for equal sets and where a set of two or more words is contained in
    the other. It does not change when either name is reworded. The words of a
    name laid out as words and separators are these, capitalised, without those
    that carry no identity. -/
theorem name_similarity_of_words (tables : AsciiTables) (a b : String)
    (hinj : ∀ v ∈ wordSet a ∪ wordSet b, ∀ w ∈ wordSet a ∪ wordSet b, token v = token w → v = w) :
    (nameSimilarity a b = none ↔ wordSet a = ∅ ∨ wordSet b = ∅) ∧
      nameSimilarity a b = nameSimilarity b a ∧
      (∀ s, nameSimilarity a b = some s → 0 ≤ s ∧ s ≤ 1 ∧
        (s = 0 ↔ Disjoint (wordSet a) (wordSet b)) ∧
        (s = 1 ↔ wordSet a = wordSet b ∨
          (2 ≤ (wordSet a).card ∧ wordSet a ⊆ wordSet b) ∨
          (2 ≤ (wordSet b).card ∧ wordSet b ⊆ wordSet a))) ∧
      (∀ a' b', Rewrites a a' → Rewrites b b' → nameSimilarity a' b' = nameSimilarity a b) ∧
      ∀ (l : Layout) (w : String), w ∈ wordSet l.name ↔
        ∃ x ∈ l.words, noise x = false ∧ w = String.ofList (capitals x) := by
  -- The keyed hash does not confuse the words of these two names.
  have hinjOn : Set.InjOn token ((wordSet a ∪ wordSet b : Finset String) : Set String) := by
    intro v hv w hw heq
    exact hinj v (Finset.mem_coe.mp hv) w (Finset.mem_coe.mp hw) heq
  have hwords : nameSimilarity a b = similarity (wordSet a) (wordSet b) := by
    rw [nameSimilarity_eq, similarity_image hinjOn]
  refine ⟨?_, ?_, fun s hs => ?_, fun a' b' hra hrb => ?_,
    fun l w => mem_wordSet_layout tables l⟩
  · rw [hwords, similarity_eq_none_iff]
  · rw [nameSimilarity_eq, nameSimilarity_eq, similarity_comm]
  · rw [hwords] at hs
    rcases similarity_mem hs with ⟨h0, h1⟩
    exact ⟨h0, h1, similarity_eq_zero_iff hs, similarity_eq_one_iff hs⟩
  · rw [nameSimilarity_eq, nameSimilarity_eq, rewrites_wordSet tables hra,
      rewrites_wordSet tables hrb]

end Names

section Exhibit

theorem asciiLibrary_tables : @AsciiTables asciiLibrary :=
  @AsciiTables.mk asciiLibrary (fun _ _ => rfl) (fun _ _ => rfl) (fun _ _ => rfl)

/-- A title, another order and a middle name that one of the banks drops. -/
theorem name_similarity_of_words_middleName :
    let a := "Mr. Adebayo JOHN"
    let b := "john-adebayo, oluwaseun"
    (@nameSimilarity asciiLibrary a b = none ↔
      @wordSet asciiLibrary a = ∅ ∨ @wordSet asciiLibrary b = ∅) ∧
      @nameSimilarity asciiLibrary a b = @nameSimilarity asciiLibrary b a ∧
      (∀ s, @nameSimilarity asciiLibrary a b = some s → 0 ≤ s ∧ s ≤ 1 ∧
        (s = 0 ↔ Disjoint (@wordSet asciiLibrary a) (@wordSet asciiLibrary b)) ∧
        (s = 1 ↔ @wordSet asciiLibrary a = @wordSet asciiLibrary b ∨
          (2 ≤ (@wordSet asciiLibrary a).card ∧
            @wordSet asciiLibrary a ⊆ @wordSet asciiLibrary b) ∨
          (2 ≤ (@wordSet asciiLibrary b).card ∧
            @wordSet asciiLibrary b ⊆ @wordSet asciiLibrary a))) ∧
      (∀ a' b', Rewrites a a' → Rewrites b b' →
        @nameSimilarity asciiLibrary a' b' = @nameSimilarity asciiLibrary a b) ∧
      ∀ (l : Layout) (w : String), w ∈ @wordSet asciiLibrary l.name ↔
        ∃ x ∈ l.words, noise x = false ∧ w = String.ofList (capitals x) := by
  intro a b
  refine @name_similarity_of_words asciiLibrary asciiLibrary_tables a b ?_
  decide +kernel

end Exhibit

end Pii

end MmrEngine
