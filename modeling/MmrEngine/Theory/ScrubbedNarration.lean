import MmrEngine.Engine.Masking
import MmrEngine.Lib.RegexRuns

/-!
# Scrubbed Narrations

What is left of the identifiers of a narration.

Phone numbers, bank verification numbers and account numbers are runs of
digits of a form, so no replacement makes one out of the rest of the text, and
an address has characters no replacement has. After the four substitutions
none of the patterns is found (`redact_clean`).

Then the text is cut at 500 characters. The cut is the end of a run of digits
it goes through, and what is left of a longer run can be an account number. It
can also leave whitespace at the end, which the next scrubbing strips. Apart
from these two the result is clean and stays as it is
(`scrub_narration_of_cut`).

## Main definitions

* `DigitTables`: What Python's tables say about digits.
* `Identifier`: The runs of digits that are replaced.
* `Clean`: None of the patterns is found.
* `redact`: The substitutions.
* `Scrubbed`: A narration without identifiers that is scrubbed once and for all.
* `CutsWell`: Nothing comes of the cut.

## Theorems

* `phonePattern_runs`, `digitRun_runs`: The patterns of numbers match runs.
* `clean_iff`: A clean text has no address and no identifier.
* `redact_clean`: Redacted text is clean.
* `scrubNarration_eq_self`: Clean text is left alone.
* `scrub_narration_of_cut`: A narration is scrubbed when the cut does no harm.
-/

namespace MmrEngine

namespace Pii

open Regex (Run HasRun RunPattern Found Matches Subst Foreign)

section Scrubbing

variable [PyLibrary]

/-- What Python's tables say about digits: which characters of ASCII are, and
    that none is whitespace. -/
structure DigitTables : Prop where
  ascii : ∀ c : Char, c.toNat < 128 → PyLibrary.isdecimal c = c.isDigit
  not_space : ∀ c : Char, PyLibrary.isdecimal c = true → PyText.isspace c = false

omit [PyLibrary] in
/-- `[789][01]\d{8}`, of a run of digits. -/
def subscriber : List Char → Bool
  | c :: d :: rest => ['7', '8', '9'].contains c && ['0', '1'].contains d && rest.length == 8
  | _ => false

/-- `(?:234|0)[789][01]\d{8}`, of a run of digits. -/
def Mobile (x : List Char) : Prop :=
  (x.take 3 = ['2', '3', '4'] ∧ subscriber (x.drop 3) = true) ∨
    (x.take 1 = ['0'] ∧ subscriber (x.drop 1) = true)

/-- A mobile number, a verification number or an account number. -/
def Identifier (x : List Char) : Prop := Mobile x ∨ x.length = 11 ∨ x.length = 10

instance : DecidablePred Mobile := fun _ => inferInstanceAs (Decidable (_ ∨ _))

instance : DecidablePred Identifier := fun _ => inferInstanceAs (Decidable (_ ∨ _))

/-- The patterns of identifiers, in the order they are replaced. -/
def piiPatterns : List Regex := [emailPattern, phonePattern, bvnPattern, nubanPattern]

/-- No identifier is found in the text. -/
def Clean (text : List Char) : Prop := ∀ r ∈ piiPatterns, ¬ Found r text

instance (text : List Char) : Decidable (Clean text) :=
  inferInstanceAs (Decidable (∀ r ∈ piiPatterns, ¬ Found r text))

/-- A digit pattern matches the runs of its length. -/
theorem digitRun_runs (n : Nat) (hn : 0 < n) :
    RunPattern PyLibrary.isdecimal (digitRun n) (fun x => x.length = n) := by
  constructor
  · rintro b w a ⟨_, _, rfl, ⟨rfl, hb⟩, v, _, rfl, hv, rfl, ha⟩
    rcases (Regex.matches_times_char n _ _ _).mp hv with ⟨hlength, hall⟩
    refine ⟨hb, [], v, by simp only [List.append_nil, List.nil_append], ⟨?_, hall, hb, ha⟩, hlength⟩
    exact List.length_pos_iff.mp (by omega)
  · intro b x a hrun hlength
    refine ⟨[], x, rfl, ⟨rfl, hrun.left⟩, x, [], (List.append_nil _).symm, ?_, rfl, hrun.right⟩
    exact (Regex.matches_times_char n _ _ _).mpr ⟨hlength, hrun.all⟩

/-- The digits a pattern spells out are decimal. -/
theorem decimal_of_mem (tables : DigitTables) {c : Char} {l : List Char}
    (hl : l.all (fun d => decide (d.toNat < 128) && d.isDigit) = true) (hc : c ∈ l) :
    PyLibrary.isdecimal c = true := by
  have hdigit := List.all_eq_true.mp hl c hc
  rw [Bool.and_eq_true, decide_eq_true_iff] at hdigit
  rw [tables.ascii c hdigit.1]
  exact hdigit.2

omit [PyLibrary] in
/-- How a mobile number begins. -/
theorem matches_front (b w a : List Char) :
    Matches (.alt (.seq (Regex.opt (Regex.literal "+")) (Regex.literal "234"))
      (Regex.literal "0")) b w a ↔
    w = ['+', '2', '3', '4'] ∨ w = ['2', '3', '4'] ∨ w = ['0'] := by
  constructor
  · rintro (⟨p, q, rfl, hplus | hplus, hcode⟩ | hzero)
    · rw [(Regex.matches_literal "+" _ _ _).mp hplus, (Regex.matches_literal "234" _ _ _).mp hcode]
      exact Or.inl rfl
    · have hnil : p = [] := hplus
      rw [hnil, (Regex.matches_literal "234" _ _ _).mp hcode]
      exact Or.inr (Or.inl rfl)
    · rw [(Regex.matches_literal "0" _ _ _).mp hzero]
      exact Or.inr (Or.inr rfl)
  · rintro (rfl | rfl | rfl)
    · exact Or.inl ⟨['+'], ['2', '3', '4'], rfl, Or.inl ((Regex.matches_literal "+" _ _ _).mpr rfl),
        (Regex.matches_literal "234" _ _ _).mpr rfl⟩
    · exact Or.inl ⟨[], ['2', '3', '4'], rfl, Or.inr rfl,
        (Regex.matches_literal "234" _ _ _).mpr rfl⟩
    · exact Or.inr ((Regex.matches_literal "0" _ _ _).mpr rfl)

/-- How it goes on, to the end of the run. -/
theorem matches_subscriber (tables : DigitTables) (b w a : List Char) :
    Matches (.seq (oneOf ['7', '8', '9']) (.seq (oneOf ['0', '1'])
      (.seq (Regex.times digit 8) (.notBefore PyLibrary.isdecimal)))) b w a ↔
    subscriber w = true ∧ (∀ c ∈ w, PyLibrary.isdecimal c = true) ∧
      a.head?.any PyLibrary.isdecimal = false := by
  constructor
  · rintro ⟨_, _, rfl, ⟨c, rfl, hc⟩, _, _, rfl, ⟨d, rfl, hd⟩, v, _, rfl, hv, rfl, ha⟩
    rcases (Regex.matches_times_char 8 _ _ _).mp hv with ⟨hlength, hall⟩
    -- The first two digits are spelled out, the other eight are not.
    have hc' : PyLibrary.isdecimal c = true :=
      decimal_of_mem tables (l := ['7', '8', '9']) rfl (List.contains_iff_mem.mp hc)
    have hd' : PyLibrary.isdecimal d = true :=
      decimal_of_mem tables (l := ['0', '1']) rfl (List.contains_iff_mem.mp hd)
    simp only [List.append_nil, List.cons_append, List.nil_append]
    refine ⟨?_, ?_, ha⟩
    · simp only [subscriber, hc, hd, hlength, Bool.and_self, beq_self_eq_true]
    · exact List.forall_mem_cons.mpr ⟨hc', List.forall_mem_cons.mpr ⟨hd', hall⟩⟩
  · rintro ⟨hsubscriber, hall, ha⟩
    rcases w with _ | ⟨c, _ | ⟨d, rest⟩⟩
    · cases hsubscriber
    · cases hsubscriber
    · simp only [subscriber, Bool.and_eq_true, beq_iff_eq] at hsubscriber
      refine ⟨[c], d :: rest, rfl, ⟨c, rfl, hsubscriber.1.1⟩, [d], rest, rfl,
        ⟨d, rfl, hsubscriber.1.2⟩, rest, [], (List.append_nil _).symm, ?_, rfl, ha⟩
      refine (Regex.matches_times_char 8 _ _ _).mpr ⟨hsubscriber.2, fun e he => hall e ?_⟩
      exact List.mem_cons_of_mem _ (List.mem_cons_of_mem _ he)

theorem phonePattern_runs (tables : DigitTables) :
    RunPattern PyLibrary.isdecimal phonePattern Mobile := by
  have hplus : PyLibrary.isdecimal '+' = false := tables.ascii '+' (by decide)
  constructor
  · rintro b w a ⟨_, _, rfl, ⟨rfl, hb⟩, f, s, rfl, hfront, hs⟩
    rcases (matches_subscriber tables _ s a).mp hs with ⟨hsubscriber, hall, ha⟩
    have hrun : ∀ {d : Char} {ds b' : List Char},
        (d :: ds).all (fun c => decide (c.toNat < 128) && c.isDigit) = true →
        b'.head?.any PyLibrary.isdecimal = false →
        Run PyLibrary.isdecimal b' (d :: ds ++ s) a := by
      intro d ds b' hds hb'
      refine ⟨List.cons_ne_nil _ _, List.forall_mem_append.mpr ⟨?_, hall⟩, hb', ha⟩
      exact fun c hc => decimal_of_mem tables hds hc
    refine ⟨hb, ?_⟩
    -- The plus sign is the only character that is not part of the run.
    rcases (matches_front _ f _).mp hfront with rfl | rfl | rfl
    · exact ⟨['+'], ['2', '3', '4'] ++ s, rfl, hrun rfl hplus, Or.inl ⟨rfl, hsubscriber⟩⟩
    · exact ⟨[], ['2', '3', '4'] ++ s, rfl, hrun rfl hb, Or.inl ⟨rfl, hsubscriber⟩⟩
    · exact ⟨[], ['0'] ++ s, rfl, hrun rfl hb, Or.inr ⟨rfl, hsubscriber⟩⟩
  · intro b x a hrun hx
    have hrest : ∀ n b', subscriber (x.drop n) = true →
        Matches (.seq (oneOf ['7', '8', '9']) (.seq (oneOf ['0', '1'])
          (.seq (Regex.times digit 8) (.notBefore PyLibrary.isdecimal)))) b' (x.drop n) a := by
      intro n b' hn
      refine (matches_subscriber tables b' _ a).mpr ⟨hn, fun c hc => ?_, hrun.right⟩
      exact hrun.all c (List.mem_of_mem_drop hc)
    refine ⟨[], x, rfl, ⟨rfl, hrun.left⟩, ?_⟩
    rcases hx with ⟨hcode, hn⟩ | ⟨hzero, hn⟩
    · refine ⟨x.take 3, x.drop 3, (List.take_append_drop 3 x).symm, ?_, hrest 3 _ hn⟩
      exact (matches_front _ _ _).mpr (Or.inr (Or.inl hcode))
    · refine ⟨x.take 1, x.drop 1, (List.take_append_drop 1 x).symm, ?_, hrest 1 _ hn⟩
      exact (matches_front _ _ _).mpr (Or.inr (Or.inr hzero))

omit [PyLibrary] in
theorem emailPattern_plain : Regex.plain emailPattern = true := rfl

omit [PyLibrary] in
/-- An address has an at sign, and no bracket. -/
theorem emailPattern_matches {b w a : List Char} (h : Matches emailPattern b w a) :
    '@' ∈ w ∧ ∀ c ∈ w, c ≠ '[' ∧ c ≠ ']' := by
  constructor
  · rcases h with ⟨u, v, rfl, _, p, q, rfl, hat, _⟩
    rw [(Regex.matches_literal "@" _ _ _).mp hat]
    exact List.mem_append_right _ (List.mem_append_left _ List.mem_cons_self)
  · refine Regex.matches_within emailPattern ?_ h
    have hne : ∀ {p : Char → Bool}, p '[' = false → p ']' = false →
        ∀ c, p c = true → c ≠ '[' ∧ c ≠ ']' := by
      intro p hopen hclose c hc
      constructor
      · rintro rfl
        rw [hopen] at hc
        cases hc
      · rintro rfl
        rw [hclose] at hc
        cases hc
    exact ⟨⟨hne rfl rfl, hne rfl rfl⟩, ⟨hne rfl rfl, trivial⟩, ⟨hne rfl rfl, hne rfl rfl⟩,
      ⟨hne rfl rfl, trivial⟩, ⟨hne rfl rfl, hne rfl rfl, trivial⟩, hne rfl rfl⟩

/-- A replacement: between brackets, with no at sign and no digit. -/
structure Label (label : List Char) : Prop where
  first : label.head? = some '['
  last : label.getLast? = some ']'
  others : label.all (fun c => decide (c.toNat < 128) && !c.isDigit && c != '@') = true

namespace Label

variable {label : List Char}

omit [PyLibrary] in
theorem ne_nil (hlabel : Label label) : label ≠ [] := by
  intro hnil
  have hfirst := hlabel.first
  rw [hnil] at hfirst
  cases hfirst

omit [PyLibrary] in
theorem of_mem (hlabel : Label label) {c : Char} (hc : c ∈ label) :
    c.toNat < 128 ∧ c.isDigit = false ∧ c ≠ '@' := by
  have h := List.all_eq_true.mp hlabel.others c hc
  simpa [and_assoc] using h

/-- No part of a label is a number. -/
theorem not_decimal (hlabel : Label label) (tables : DigitTables) :
    ∀ c ∈ label, PyLibrary.isdecimal c = false := by
  intro c hc
  rw [tables.ascii c (hlabel.of_mem hc).1]
  exact (hlabel.of_mem hc).2.1

omit [PyLibrary] in
/-- No address is part of a label or reaches into one. -/
theorem foreign (hlabel : Label label) {b w a : List Char} (h : Matches emailPattern b w a) :
    Foreign label w := by
  rcases emailPattern_matches h with ⟨hat, hbrackets⟩
  refine ⟨List.ne_nil_of_mem hat, fun hin => ?_, fun c hc hw => ?_, fun c hc hw => ?_⟩
  · exact (hlabel.of_mem (hin.subset hat)).2.2 rfl
  · rw [hlabel.first, Option.mem_some_iff] at hc
    exact (hbrackets c hw).1 hc.symm
  · rw [hlabel.last, Option.mem_some_iff] at hc
    exact (hbrackets c hw).2 hc.symm

end Label

omit [PyLibrary] in
theorem label_email : Label "[REDACTED-EMAIL]".toList := ⟨rfl, rfl, rfl⟩

omit [PyLibrary] in
theorem label_phone : Label "[REDACTED-PHONE]".toList := ⟨rfl, rfl, rfl⟩

omit [PyLibrary] in
theorem label_bvn : Label "[REDACTED-BVN]".toList := ⟨rfl, rfl, rfl⟩

omit [PyLibrary] in
theorem label_account : Label "[REDACTED-ACCOUNT]".toList := ⟨rfl, rfl, rfl⟩

omit [PyLibrary] in
theorem emailPattern_nonempty (b a : List Char) : ¬ Matches emailPattern b [] a := by
  intro h
  cases (emailPattern_matches h).1

theorem bvnPattern_runs : RunPattern PyLibrary.isdecimal bvnPattern (fun x => x.length = 11) :=
  digitRun_runs 11 (by decide)

theorem nubanPattern_runs : RunPattern PyLibrary.isdecimal nubanPattern (fun x => x.length = 10) :=
  digitRun_runs 10 (by decide)

theorem clean_patterns (text : List Char) : Clean text ↔ ¬ Found emailPattern text ∧
    ¬ Found phonePattern text ∧ ¬ Found bvnPattern text ∧ ¬ Found nubanPattern text := by
  simp [Clean, piiPatterns]

/-- Clean text has no address and no run that is an identifier. -/
theorem clean_iff (tables : DigitTables) (text : List Char) : Clean text ↔
    ¬ Found emailPattern text ∧ ¬ HasRun PyLibrary.isdecimal Identifier text := by
  have hphone := Regex.found_iff_hasRun (phonePattern_runs tables) text
  have hbvn := Regex.found_iff_hasRun bvnPattern_runs text
  have hnuban := Regex.found_iff_hasRun nubanPattern_runs text
  rw [clean_patterns, hphone, hbvn, hnuban]
  constructor
  · rintro ⟨hemail, hmobile, heleven, hten⟩
    refine ⟨hemail, ?_⟩
    rintro ⟨b, x, a, htext, hrun, hx | hx | hx⟩
    · exact hmobile ⟨b, x, a, htext, hrun, hx⟩
    · exact heleven ⟨b, x, a, htext, hrun, hx⟩
    · exact hten ⟨b, x, a, htext, hrun, hx⟩
  · rintro ⟨hemail, hno⟩
    exact ⟨hemail, fun h => hno (h.imp fun x hx => Or.inl hx),
      fun h => hno (h.imp fun x hx => Or.inr (Or.inl hx)),
      fun h => hno (h.imp fun x hx => Or.inr (Or.inr hx))⟩

section Substitution

variable {r : Regex} {form : List Char → Prop} {label : String}

/-- What replacing the numbers of a form does: there are none left, and nothing
    else comes of it. -/
theorem sub_numbers (tables : DigitTables) (hr : RunPattern PyLibrary.isdecimal r form)
    (hlabel : Label label.toList) (text : String) :
    ¬ HasRun PyLibrary.isdecimal form (Regex.sub r label text).toList ∧
      (∀ form', ¬ HasRun PyLibrary.isdecimal form' text.toList →
        ¬ HasRun PyLibrary.isdecimal form' (Regex.sub r label text).toList) ∧
      (¬ Found emailPattern text.toList →
        ¬ Found emailPattern (Regex.sub r label text).toList) := by
  have hsub := Regex.subst_sub hr.nonempty label text
  have hother := hlabel.not_decimal tables
  refine ⟨Regex.not_hasRun_sub hr hsub hlabel.ne_nil hother, fun form' hno => ?_, fun hno => ?_⟩
  · exact Regex.not_hasRun_of_sub hr hsub hlabel.ne_nil hother hno
  · exact Regex.not_found_of_sub emailPattern_plain (fun b w a h => hlabel.foreign h) hsub
      hlabel.ne_nil hno

/-- A stripped text has no whitespace at its ends, nor has a label. -/
theorem strip_sub (hempty : ∀ b a, ¬ Matches r b [] a) (hlabel : Label label.toList)
    {text : String} (hstrip : strip text = text) :
    strip (Regex.sub r label text) = Regex.sub r label text := by
  have hbracket : ∀ c : Char, c = '[' ∨ c = ']' → PyText.isspace c = false := by
    rintro c (rfl | rfl)
    · exact PyText.isspace_ascii '[' (by decide)
    · exact PyText.isspace_ascii ']' (by decide)
  have hsub := Regex.subst_sub hempty label text
  rw [strip_eq_self_iff] at hstrip ⊢
  constructor
  · refine Regex.subst_head hlabel.ne_nil (fun c hc => hbracket c (Or.inl ?_)) hsub hstrip.1
    rw [hlabel.first, Option.mem_some_iff] at hc
    exact hc.symm
  · refine Regex.subst_last hlabel.ne_nil (fun c hc => hbracket c (Or.inr ?_)) hsub hstrip.2
    rw [hlabel.last, Option.mem_some_iff] at hc
    exact hc.symm

omit [PyLibrary] in
theorem sub_empty (hempty : ∀ b a, ¬ Matches r b [] a) : Regex.sub r label "" = "" :=
  String.toList_inj.mp (Regex.subst_nil (Regex.subst_sub hempty label ""))

omit [PyLibrary] in
theorem sub_ne_empty (hempty : ∀ b a, ¬ Matches r b [] a) (hlabel : Label label.toList)
    {text : String} (hne : text ≠ "") : Regex.sub r label text ≠ "" := by
  have hsub := Regex.subst_sub hempty label text
  intro h
  refine Regex.subst_ne_nil hlabel.ne_nil hsub (fun hnil => hne ?_) ?_
  · exact String.toList_inj.mp hnil
  · rw [h]
    rfl

end Substitution

/-- The substitutions, in their order. -/
def redact (text : String) : String :=
  let text := Regex.sub emailPattern "[REDACTED-EMAIL]" text
  let text := Regex.sub phonePattern "[REDACTED-PHONE]" text
  let text := Regex.sub bvnPattern "[REDACTED-BVN]" text
  Regex.sub nubanPattern "[REDACTED-ACCOUNT]" text

theorem scrubNarration_some (text : String) : scrubNarration (some text) =
    if strip text = "" then none else some (takeFirst (redact (strip text)) 500) := by
  simp only [scrubNarration, redact, Option.bind_some]

/-- Each substitution removes what its pattern matches and brings back nothing
    that an earlier one removed. -/
theorem redact_clean (tables : DigitTables) (text : String) : Clean (redact text).toList := by
  let t₁ := Regex.sub emailPattern "[REDACTED-EMAIL]" text
  let t₂ := Regex.sub phonePattern "[REDACTED-PHONE]" t₁
  let t₃ := Regex.sub bvnPattern "[REDACTED-BVN]" t₂
  have hemail : ¬ Found emailPattern t₁.toList :=
    Regex.not_found_sub emailPattern_plain (fun b w a h => label_email.foreign h)
      (Regex.subst_sub emailPattern_nonempty _ text) label_email.ne_nil
  rcases sub_numbers tables (phonePattern_runs tables) label_phone t₁ with ⟨hphone, _, hkeep₂⟩
  rcases sub_numbers tables bvnPattern_runs label_bvn t₂ with ⟨hbvn, hruns₃, hkeep₃⟩
  rcases sub_numbers tables nubanPattern_runs label_account t₃ with ⟨hnuban, hruns₄, hkeep₄⟩
  refine (clean_iff tables _).mpr ⟨hkeep₄ (hkeep₃ (hkeep₂ hemail)), ?_⟩
  rintro ⟨b, x, a, htext, hrun, hx | hx | hx⟩
  · exact hruns₄ _ (hruns₃ _ hphone) ⟨b, x, a, htext, hrun, hx⟩
  · exact hruns₄ _ hbvn ⟨b, x, a, htext, hrun, hx⟩
  · exact hnuban ⟨b, x, a, htext, hrun, hx⟩

/-- Clean text has nothing to replace. -/
theorem redact_of_clean (tables : DigitTables) {text : String} (hclean : Clean text.toList) :
    redact text = text := by
  rcases (clean_patterns _).mp hclean with ⟨hemail, hphone, hbvn, hnuban⟩
  unfold redact
  simp only [Regex.sub_of_not_found emailPattern_nonempty _ hemail,
    Regex.sub_of_not_found (phonePattern_runs tables).nonempty _ hphone,
    Regex.sub_of_not_found bvnPattern_runs.nonempty _ hbvn,
    Regex.sub_of_not_found nubanPattern_runs.nonempty _ hnuban]

/-- Redacted text is stripped if it was. -/
theorem strip_redact (tables : DigitTables) {text : String} (hstrip : strip text = text) :
    strip (redact text) = redact text := by
  refine strip_sub nubanPattern_runs.nonempty label_account ?_
  refine strip_sub bvnPattern_runs.nonempty label_bvn ?_
  refine strip_sub (phonePattern_runs tables).nonempty label_phone ?_
  exact strip_sub emailPattern_nonempty label_email hstrip

theorem redact_ne_empty (tables : DigitTables) {text : String} (hne : text ≠ "") :
    redact text ≠ "" := by
  refine sub_ne_empty nubanPattern_runs.nonempty label_account ?_
  refine sub_ne_empty bvnPattern_runs.nonempty label_bvn ?_
  refine sub_ne_empty (phonePattern_runs tables).nonempty label_phone ?_
  exact sub_ne_empty emailPattern_nonempty label_email hne

/-- Stripping leaves clean text clean: what it takes away is no digit, and stood
    beside no run. -/
theorem clean_strip (tables : DigitTables) {text : String} (hclean : Clean text.toList) :
    Clean (strip text).toList := by
  rcases exists_strip text with ⟨p, q, htext, hp, hq⟩
  have hother : ∀ l : List Char, (∀ c ∈ l, PyText.isspace c = true) →
      ∀ c ∈ l, PyLibrary.isdecimal c = false := by
    intro l hl c hc
    by_contra hdigit
    have hspace := tables.not_space c (by simpa using hdigit)
    rw [hl c hc] at hspace
    cases hspace
  rw [clean_iff tables, htext] at hclean
  refine (clean_iff tables _).mpr ⟨fun hfound => hclean.1 ?_, fun hrun => hclean.2 ?_⟩
  · exact Regex.found_of_infix emailPattern_plain ⟨p, q, List.append_assoc _ _ _⟩ hfound
  · exact Regex.hasRun_append (hother p hp) (hother q hq) hrun

/-- Scrubbing clean text only strips and cuts it. -/
theorem scrubNarration_clean (tables : DigitTables) {text : String} (hclean : Clean text.toList) :
    scrubNarration (some text) =
      if strip text = "" then none else some (takeFirst (strip text) 500) := by
  rw [scrubNarration_some, redact_of_clean tables (clean_strip tables hclean)]

theorem redact_empty (tables : DigitTables) : redact "" = "" := by
  unfold redact
  simp only [sub_empty emailPattern_nonempty, sub_empty (phonePattern_runs tables).nonempty,
    sub_empty bvnPattern_runs.nonempty, sub_empty nubanPattern_runs.nonempty]

omit [PyLibrary] in
theorem takeFirst_ne_empty {text : String} {n : Nat} (hne : text ≠ "") (hn : 0 < n) :
    takeFirst text n ≠ "" := by
  intro h
  have hlist := congrArg String.toList h
  rw [toList_takeFirst, String.toList_empty, List.take_eq_nil_iff] at hlist
  rcases hlist with hzero | hnil
  · omega
  · exact hne (String.toList_inj.mp hnil)

omit [PyLibrary] in
theorem takeFirst_eq_self {text : String} {n : Nat} (h : text.toList.length ≤ n) :
    takeFirst text n = text := by
  rw [takeFirst, List.take_of_length_le h, String.ofList_toList]

/-- Of clean text that is not too long, what is stripped stays as it is. -/
theorem scrubNarration_eq_self (tables : DigitTables) {text : String} (hclean : Clean text.toList)
    (hne : text ≠ "") (hlength : text.toList.length ≤ 500) :
    scrubNarration (some text) = some text ↔ strip text = text := by
  rw [scrubNarration_clean tables hclean]
  have hshort : (strip text).toList.length ≤ 500 := by
    rcases exists_strip text with ⟨p, q, htext, _, _⟩
    have htotal := congrArg List.length htext
    simp only [List.length_append] at htotal
    omega
  constructor
  · intro h
    by_cases hempty : strip text = ""
    · rw [if_pos hempty] at h
      cases h
    · rw [if_neg hempty, takeFirst_eq_self hshort, Option.some.injEq] at h
      exact h
  · intro h
    rw [h, if_neg hne, takeFirst_eq_self hlength]

/-- A clean text cut short is clean unless what the cut leaves of a run is an
    identifier. -/
theorem clean_take (tables : DigitTables) {text : List Char} (hclean : Clean text) (n : Nat) :
    Clean (text.take n) ↔
      text.length ≤ n ∨ ¬ Identifier ((text.take n).rtakeWhile PyLibrary.isdecimal) := by
  have hwhole := (clean_iff tables text).mp hclean
  have htext := List.take_append_drop n text
  rw [clean_iff tables]
  constructor
  · intro h
    by_contra hcut
    rw [not_or, Classical.not_not] at hcut
    refine h.2 (Regex.hasRun_rtakeWhile (fun hnil => ?_) hcut.2)
    -- No identifier is empty.
    have hno : ¬ Identifier [] := by decide
    exact hno (hnil ▸ hcut.2)
  · rintro (hshort | hlast)
    · rw [List.take_of_length_le hshort]
      exact hwhole
    · refine ⟨fun hfound => hwhole.1 ?_, fun hrun => ?_⟩
      · exact Regex.found_of_infix emailPattern_plain (List.take_prefix n text).isInfix hfound
      · rcases Regex.hasRun_of_prefix (s := text.drop n) hrun with hin | hend
        · rw [htext] at hin
          exact hwhole.2 hin
        · exact hlast hend

/-- A stripped text cut short is stripped unless the cut leaves whitespace. -/
theorem strip_takeFirst {text : String} (hstrip : strip text = text) {n : Nat} (hn : 0 < n) :
    strip (takeFirst text n) = takeFirst text n ↔ text.toList.length ≤ n ∨
      ∀ c ∈ (text.toList.take n).getLast?, PyText.isspace c = false := by
  by_cases hshort : text.toList.length ≤ n
  · rw [takeFirst_eq_self hshort]
    exact ⟨fun _ => Or.inl hshort, fun _ => hstrip⟩
  · rw [strip_eq_self_iff, toList_takeFirst]
    constructor
    · exact fun h => Or.inr h.2
    · rintro (h | hlast)
      · exact absurd h hshort
      · refine ⟨fun c hc => ((strip_eq_self_iff text).mp hstrip).1 c ?_, hlast⟩
        rw [List.head?_take, if_neg (by omega)] at hc
        exact hc

/-- No identifier is found in what is kept, it is not too long, and scrubbing it
    again changes nothing. -/
def Scrubbed (text : String) : Prop :=
  (∀ out, scrubNarration (some text) = some out →
      (∀ r ∈ piiPatterns, ¬ Found r out.toList) ∧ out.toList.length ≤ 500) ∧
    scrubNarration (scrubNarration (some text)) = scrubNarration (some text)

/-- The text is not cut, or the cut leaves no identifier and no whitespace at the
    end. -/
def CutsWell (text : List Char) : Prop :=
  text.length ≤ 500 ∨
    (¬ Identifier ((text.take 500).rtakeWhile PyLibrary.isdecimal) ∧
      ∀ c ∈ (text.take 500).getLast?, PyText.isspace c = false)

/-- A narration is scrubbed exactly when cutting the redacted text at 500
    characters does no harm. -/
theorem scrub_narration_of_cut (tables : DigitTables) (text : String) :
    Scrubbed text ↔ CutsWell (redact (strip text)).toList := by
  have hclean := redact_clean tables (strip text)
  have hstrip := strip_redact tables (strip_strip text)
  unfold Scrubbed
  by_cases hempty : strip text = ""
  · have hnone : scrubNarration (some text) = none := by
      rw [scrubNarration_some, if_pos hempty]
    have hshort : (redact (strip text)).toList.length ≤ 500 := by
      rw [hempty, redact_empty tables]
      decide
    rw [hnone]
    refine ⟨fun _ => Or.inl hshort, fun _ => ⟨fun out h => ?_, rfl⟩⟩
    exact absurd h.symm (Option.some_ne_none out)
  · have hne : takeFirst (redact (strip text)) 500 ≠ "" :=
      takeFirst_ne_empty (redact_ne_empty tables hempty) (by decide)
    have hlength : (takeFirst (redact (strip text)) 500).toList.length ≤ 500 := by
      rw [toList_takeFirst]
      exact List.length_take_le 500 _
    have hcut := clean_take tables hclean 500
    have hends := strip_takeFirst hstrip (n := 500) (by decide)
    rw [scrubNarration_some, if_neg hempty]
    constructor
    · rintro ⟨hout, hagain⟩
      -- What is kept is clean, so scrubbing it again would only strip it.
      have hkept := (hout _ rfl).1
      rw [scrubNarration_eq_self tables hkept hne hlength, hends] at hagain
      rw [toList_takeFirst] at hkept
      rcases hagain with hshort | hlast
      · exact Or.inl hshort
      · rcases hcut.mp hkept with hshort | hno
        · exact Or.inl hshort
        · exact Or.inr ⟨hno, hlast⟩
    · intro hwell
      -- A clean cut stays clean, and has nothing to strip.
      have hkept : Clean (takeFirst (redact (strip text)) 500).toList := by
        rw [toList_takeFirst]
        exact hcut.mpr (hwell.imp_right And.left)
      refine ⟨fun out hout => ?_, ?_⟩
      · rw [← Option.some.inj hout]
        exact ⟨hkept, hlength⟩
      · exact (scrubNarration_eq_self tables hkept hne hlength).mpr
          (hends.mpr (hwell.imp_right And.right))

end Scrubbing

section Exhibit

theorem asciiLibrary_digits : @DigitTables asciiLibrary := by
  refine @DigitTables.mk asciiLibrary (fun _ _ => rfl) (fun c hc => ?_)
  have hdigit : 48 ≤ c.toNat ∧ c.toNat ≤ 57 := by
    have h : c.isDigit = true := hc
    simpa [Char.isDigit, UInt32.le_iff_toNat_le] using h
  have hspace : asciiSpace c = false := by
    unfold asciiSpace
    simp only [List.contains_eq_mem, decide_eq_false_iff_not, List.mem_cons, List.not_mem_nil,
      or_false]
    omega
  exact hspace

-- Eleven digits are an identifier, and no eleven of twelve are.
example : ¬ @Clean asciiLibrary "12345678901".toList ∧
    @Clean asciiLibrary "123456789012".toList := by
  decide

/-- A transfer to an account. -/
theorem scrub_narration_of_cut_transfer :
    @Scrubbed asciiLibrary "Transfer to 0123456789 for rent" :=
  (@scrub_narration_of_cut asciiLibrary asciiLibrary_digits _).mpr (Or.inl (by decide +kernel))

/-- A long narration that ends in a number of twelve digits. -/
def longNarration : List Char := List.replicate 490 '/' ++ "123456789012".toList

theorem longNarration_clean : @Clean asciiLibrary longNarration := by
  have hslash : ∀ c ∈ List.replicate 490 '/', c = '/' := fun c hc => List.eq_of_mem_replicate hc
  rw [@clean_iff asciiLibrary asciiLibrary_digits]
  constructor
  · rintro ⟨b, w, a, htext, hm⟩
    have hat : '@' ∈ longNarration := by
      rw [htext]
      exact List.mem_append_right _ (List.mem_append_left _ (emailPattern_matches hm).1)
    rcases List.mem_append.mp hat with hpad | hdigits
    · exact absurd (hslash '@' hpad) (by decide)
    · exact absurd hdigits (by decide)
  · intro hrun
    have hform := Regex.hasRun_after (p := List.replicate 490 '/') (fun c hc => ?_) ?_ hrun
    · exact absurd hform (by decide)
    · rw [hslash c hc]
      rfl
    · have hall : "123456789012".toList.all Char.isDigit = true := rfl
      exact List.all_eq_true.mp hall

/-- The number is no identifier. The cut leaves its first ten digits, which are. -/
theorem long_narration_keeps_account :
    ¬ @Scrubbed asciiLibrary (String.ofList longNarration) := by
  intro hscrubbed
  have hlist : (String.ofList longNarration).toList = longNarration := String.toList_ofList
  have hclean : @Clean asciiLibrary (String.ofList longNarration).toList :=
    hlist.symm ▸ longNarration_clean
  have hstrip : @strip asciiText (String.ofList longNarration) = String.ofList longNarration := by
    rw [@strip_eq_self_iff asciiText, hlist]
    have hends : longNarration.head? = some '/' ∧ longNarration.getLast? = some '2' := by
      refine ⟨rfl, ?_⟩
      rw [longNarration, List.getLast?_append_of_ne_nil _ (by decide)]
      rfl
    rw [hends.1, hends.2]
    exact ⟨fun c hc => Option.mem_some_iff.mp hc ▸ rfl, fun c hc => Option.mem_some_iff.mp hc ▸ rfl⟩
  have hne : String.ofList longNarration ≠ "" := by
    intro h
    rw [← String.toList_inj, hlist] at h
    cases h
  -- There is nothing to replace in the narration, so it is only cut.
  have hout := @scrubNarration_clean asciiLibrary asciiLibrary_digits _ hclean
  rw [hstrip, if_neg hne] at hout
  have hkept := (hscrubbed.1 _ hout).1
  rw [toList_takeFirst, hlist] at hkept
  rcases (@clean_take asciiLibrary asciiLibrary_digits _ longNarration_clean 500).mp hkept with
    hshort | hno
  · exact absurd hshort (by decide +kernel)
  · exact hno (by decide +kernel)

end Exhibit

end Pii

end MmrEngine
