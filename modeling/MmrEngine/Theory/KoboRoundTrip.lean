import MmrEngine.Core.Score
import MmrEngine.Dashboard.Money
import Mathlib.Tactic.FieldSimp
import Mathlib.Tactic.Positivity

/-!
# Kobo, Parsed and Printed

What `toKobo` makes of a text, and that `koboToDecimalString` is its inverse.

A text is read if and only if it is a plain decimal with white space around it
(`toKobo_spaced`, `spaced_of_toKobo`). Its value is rounded half away from zero,
as the third digit behind the point tells alone whether half a kobo is reached.

## Main definitions

* `IsDecimal`, `decimalText`: A plain decimal and its text.
* `decimalValue`: The number it stands for.
* `roundHalfAway`: Rounding to an integer, ties away from zero.
* `Spaced`, `Printed`: A plain decimal with white space around it, and one as it
  is printed.
* `commaGroups`, `unformatted`: Groups of digits with their commas, and the text
  without them.

## Theorems

* `DECIMAL_RE_eq_some`: What the expression matches.
* `koboOf_eq_floor`: What is computed of a match.
* `toKobo_spaced`, `spaced_of_toKobo`: What is read, and what for.
* `toKobo_koboToDecimalString`, `koboToDecimalString_toKobo`: The round trips.
* `groupThousands_eq`: Where the commas stand.
* `kobo_round_trip`: All of it.
-/

namespace MmrEngine

namespace Money

open Digits

/-! ### What is read -/

/-- The parts of a plain decimal: a sign or none, digits, and a dot with digits
    behind it or none. -/
structure IsDecimal (sign whole : List Char) (frac : Option (List Char)) : Prop where
  sign_cases : sign = [] ∨ sign = ['+'] ∨ sign = ['-']
  whole_digits : AllDigits whole
  whole_ne : whole ≠ []
  frac_digits : ∀ f ∈ frac, AllDigits f

/-- Its text. -/
def decimalText (sign whole : List Char) (frac : Option (List Char)) : List Char :=
  sign ++ (whole ++ (frac.map fun f => '.' :: f).getD [])

theorem isDigit_not_sign {c : Char} (h : c.isDigit = true) : isSign c = false := by
  rw [isDigit_iff] at h
  rw [isSign, Bool.or_eq_false_iff, decide_eq_false_iff_not, decide_eq_false_iff_not]
  constructor
  · rintro rfl
    exact absurd h.1 (by decide)
  · rintro rfl
    exact absurd h.1 (by decide)

/-- A run of digits ends where no digit follows. -/
theorem span_digits {whole tail : List Char} (hwhole : AllDigits whole)
    (htail : ∀ c ∈ tail.head?, c.isDigit = false) :
    (whole ++ tail).takeWhile Char.isDigit = whole ∧
      (whole ++ tail).dropWhile Char.isDigit = tail := by
  have hnil : tail.takeWhile Char.isDigit = [] ∧ tail.dropWhile Char.isDigit = tail := by
    cases tail with
    | nil => exact ⟨rfl, rfl⟩
    | cons c tail =>
        have hc := htail c rfl
        exact ⟨List.takeWhile_cons_of_neg (by simp [hc]), List.dropWhile_cons_of_neg (by simp [hc])⟩
  rw [List.takeWhile_append_of_pos hwhole, List.dropWhile_append_of_pos hwhole, hnil.1, hnil.2,
    List.append_nil]
  exact ⟨rfl, rfl⟩

/-- The sign is split off. -/
theorem split_sign {sign rest : List Char} (hsign : sign = [] ∨ sign = ['+'] ∨ sign = ['-'])
    (hrest : ∀ c ∈ rest.head?, isSign c = false) :
    ((sign ++ rest).take 1).filter isSign = sign ∧ (sign ++ rest).drop sign.length = rest := by
  rcases hsign with rfl | rfl | rfl
  · cases rest with
    | nil => exact ⟨rfl, rfl⟩
    | cons c rest => exact ⟨by simp [hrest c rfl], rfl⟩
  · exact ⟨rfl, rfl⟩
  · exact ⟨rfl, rfl⟩

/-- A plain decimal matches, with its parts as the groups. -/
theorem DECIMAL_RE_decimalText {sign whole : List Char} {frac : Option (List Char)}
    (h : IsDecimal sign whole frac) : DECIMAL_RE (decimalText sign whole frac) =
      some { sign := sign, whole := whole, frac := frac.getD [] } := by
  -- The whole part begins with a digit, so the sign ends before it.
  have hhead : ∀ tail : List Char, ∀ c ∈ (whole ++ tail).head?, isSign c = false := by
    intro tail c hc
    cases hwhole : whole with
    | nil => exact absurd hwhole h.whole_ne
    | cons d rest =>
        rw [hwhole] at hc
        have hd : d = c := Option.some.inj hc
        exact isDigit_not_sign (h.whole_digits c (by rw [hwhole, hd]; exact List.mem_cons_self))
  rcases split_sign h.sign_cases (hhead _) with ⟨htake, hdrop⟩
  rw [DECIMAL_RE, decimalText, htake, hdrop]
  cases frac with
  | none =>
      have hspan := @span_digits whole [] h.whole_digits fun c hc => by cases hc
      rw [Option.map_none, Option.getD_none, hspan.1, hspan.2, if_neg h.whole_ne, if_pos rfl]
  | some f =>
      have hspan := @span_digits whole ('.' :: f) h.whole_digits fun c hc => by
        rw [← Option.some.inj hc]
        rfl
      have hdigits : f.all Char.isDigit = true := List.all_eq_true.mpr (h.frac_digits f rfl)
      rw [Option.map_some, Option.getD_some, hspan.1, hspan.2, if_neg h.whole_ne,
        if_neg (List.cons_ne_nil _ _), if_pos ⟨rfl, hdigits⟩]
      rfl

/-- What is taken for the sign is one or nothing, and the rest follows it. -/
theorem sign_of_text (text : List Char) :
    ((text.take 1).filter isSign = [] ∨ (text.take 1).filter isSign = ['+'] ∨
        (text.take 1).filter isSign = ['-']) ∧
      text = (text.take 1).filter isSign ++ text.drop ((text.take 1).filter isSign).length := by
  cases text with
  | nil => exact ⟨Or.inl rfl, rfl⟩
  | cons c text =>
      cases hc : isSign c with
      | false => simp [hc]
      | true =>
          have hsign : c = '+' ∨ c = '-' := by simpa [isSign] using hc
          rcases hsign with rfl | rfl
          · exact ⟨Or.inr (Or.inl rfl), rfl⟩
          · exact ⟨Or.inr (Or.inr rfl), rfl⟩

/-- And nothing else does. -/
theorem DECIMAL_RE_eq_some {text : List Char} {m : DecimalMatch} :
    DECIMAL_RE text = some m ↔ ∃ frac, IsDecimal m.sign m.whole frac ∧
      text = decimalText m.sign m.whole frac ∧ m.frac = frac.getD [] := by
  constructor
  · intro h
    rcases sign_of_text text with ⟨hsign, htext⟩
    unfold DECIMAL_RE at h
    let sign := (text.take 1).filter isSign
    let rest := text.drop sign.length
    have hwhole : AllDigits (rest.takeWhile Char.isDigit) := fun c hc => List.mem_takeWhile_imp hc
    have hrest : rest.takeWhile Char.isDigit ++ rest.dropWhile Char.isDigit = rest :=
      List.takeWhile_append_dropWhile
    -- Without a digit nothing matches.
    by_cases hne : rest.takeWhile Char.isDigit = []
    · rw [if_pos hne] at h
      cases h
    rw [if_neg hne] at h
    -- The digits go to the end, or a dot is behind them and digits to the end.
    by_cases hnil : rest.dropWhile Char.isDigit = []
    · rw [if_pos hnil] at h
      rw [hnil, List.append_nil] at hrest
      cases h
      refine ⟨none, ⟨hsign, hwhole, hne, fun f hf => by cases hf⟩, ?_, rfl⟩
      rw [decimalText, Option.map_none, Option.getD_none, List.append_nil, hrest]
      exact htext
    · rw [if_neg hnil] at h
      by_cases hdot : (rest.dropWhile Char.isDigit).head? = some '.' ∧
          (rest.dropWhile Char.isDigit).tail.all Char.isDigit
      · rw [if_pos hdot] at h
        have htail : rest.dropWhile Char.isDigit = '.' :: (rest.dropWhile Char.isDigit).tail :=
          (List.cons_head?_tail hdot.1).symm
        cases h
        refine ⟨some (rest.dropWhile Char.isDigit).tail, ⟨hsign, hwhole, hne, ?_⟩, ?_, rfl⟩
        · intro f hf
          cases hf
          exact List.all_eq_true.mp hdot.2
        · rw [decimalText, Option.map_some, Option.getD_some, ← htail, hrest]
          exact htext
      · rw [if_neg hdot] at h
        cases h
  · rintro ⟨frac, hdecimal, rfl, hfrac⟩
    rw [DECIMAL_RE_decimalText hdecimal, ← hfrac]

/-! ### Its value -/

/-- The magnitude of a plain decimal. -/
def magnitude (whole frac : List Char) : ℚ := value whole + value frac / 10 ^ frac.length

/-- The number a plain decimal stands for. -/
def decimalValue (sign whole frac : List Char) : ℚ :=
  if sign = ['-'] then -magnitude whole frac else magnitude whole frac

/-- Rounding to an integer, a tie going away from zero. -/
def roundHalfAway (x : ℚ) : ℤ := if x < 0 then -⌊-x + 1 / 2⌋ else ⌊x + 1 / 2⌋

/-- The kobo of a magnitude, as `toKobo` computes them. -/
def koboOf (whole frac : List Char) : Nat :=
  let kobo := value whole * 100 + value ((frac ++ ['0', '0']).take 2)
  if frac[2]?.any fun c => decide (53 ≤ c.toNat) then kobo + 1 else kobo

/-- A digit is five or more if its character is. -/
theorem five_le_value {c : Char} (h : c.isDigit = true) : 53 ≤ c.toNat ↔ 5 ≤ value [c] := by
  have hc := isDigit_iff.mp h
  have h48 : '0'.toNat = 48 := rfl
  rw [value_singleton, h48]
  omega

/-- Of the digits behind the second the first one tells whether they come to half
    a unit of it. -/
theorem half_le_iff {c : Char} {rest : List Char} (h : AllDigits (c :: rest)) :
    5 ≤ value [c] ↔ (1 : ℚ) / 2 ≤ value (c :: rest) / 10 ^ (c :: rest).length := by
  have hrest := value_lt fun d hd => h d (List.mem_cons_of_mem c hd)
  have hpow : (0 : ℚ) < 10 ^ (c :: rest).length := by positivity
  rw [le_div_iff₀ hpow, List.length_cons, pow_succ]
  have hcast : (1 : ℚ) / 2 * (10 ^ rest.length * 10) ≤ value (c :: rest) ↔
      5 * 10 ^ rest.length ≤ value (c :: rest) := by
    have hle : (1 : ℚ) / 2 * (10 ^ rest.length * 10) = ((5 * 10 ^ rest.length : Nat) : ℚ) := by
      push_cast
      ring
    rw [hle]
    exact Nat.cast_le
  have hvalue := value_cons c rest
  rw [hcast]
  constructor
  · intro hc
    have hmul := Nat.mul_le_mul_left (10 ^ rest.length) hc
    omega
  · intro hle
    by_contra hlt
    have hfour : value [c] ≤ 4 := by omega
    have hmul := Nat.mul_le_mul_left (10 ^ rest.length) hfour
    omega

/-- The digits behind the point, as the two that are kept and what is cut off. -/
theorem frac_split {frac : List Char} (h : AllDigits frac) : ∃ r : ℚ, 0 ≤ r ∧ r < 1 ∧
    (value frac : ℚ) / 10 ^ frac.length * 100 = value ((frac ++ ['0', '0']).take 2) + r ∧
    ((frac[2]?.any fun c => decide (53 ≤ c.toNat)) = true ↔ 1 / 2 ≤ r) := by
  -- Fewer than two digits are filled up, and nothing is cut off.
  cases frac with
  | nil => exact ⟨0, le_refl _, by norm_num, by norm_num [value, Nat.ofDigitChars], by norm_num⟩
  | cons a frac =>
      cases frac with
      | nil =>
          refine ⟨0, le_refl _, by norm_num, ?_, by norm_num⟩
          have hvalue : value [a, '0'] = 10 * value [a] := value_concat [a] '0'
          simp only [List.cons_append, List.nil_append, List.take_succ_cons, List.take_zero,
            List.length_singleton, hvalue]
          push_cast
          ring
      | cons b rest =>
          have hdigits : AllDigits rest := fun c hc =>
            h c (List.mem_cons_of_mem a (List.mem_cons_of_mem b hc))
          have hlt := value_lt hdigits
          have hpow : (0 : ℚ) < 10 ^ rest.length := by positivity
          refine ⟨(value rest : ℚ) / 10 ^ rest.length, by positivity, ?_, ?_, ?_⟩
          · rw [div_lt_one hpow]
            exact_mod_cast hlt
          · have hvalue : value (a :: b :: rest) = 10 ^ rest.length * value [a, b] + value rest :=
              value_append [a, b] rest
            simp only [List.cons_append, List.take_succ_cons, List.take_zero, List.length_cons,
              hvalue]
            push_cast
            rw [pow_succ, pow_succ]
            field_simp
            ring
          · cases rest with
            | nil => norm_num
            | cons c rest =>
                have hc := hdigits c List.mem_cons_self
                rw [← half_le_iff hdigits, ← five_le_value hc]
                simp

/-- The kobo of a magnitude are its hundredfold, rounded. -/
theorem koboOf_eq_floor {whole frac : List Char} (h : AllDigits frac) :
    (koboOf whole frac : ℤ) = ⌊magnitude whole frac * 100 + 1 / 2⌋ := by
  rcases frac_split h with ⟨r, hnonneg, hlt, hsplit, hup⟩
  have hvalue : magnitude whole frac * 100
      = ((value whole * 100 + value ((frac ++ ['0', '0']).take 2) : Nat) : ℚ) + r := by
    rw [magnitude, add_mul, hsplit]
    push_cast
    ring
  rw [eq_comm, Int.floor_eq_iff, hvalue, koboOf]
  by_cases hhalf : (frac[2]?.any fun c => decide (53 ≤ c.toNat)) = true
  · have hr := hup.mp hhalf
    rw [if_pos hhalf]
    push_cast
    constructor <;> linarith
  · have hr : r < 1 / 2 := not_le.mp fun hle => hhalf (hup.mpr hle)
    rw [if_neg hhalf]
    push_cast
    constructor <;> linarith

theorem magnitude_nonneg (whole frac : List Char) : 0 ≤ magnitude whole frac := by
  unfold magnitude
  positivity

/-- With its sign. -/
theorem koboOf_eq_roundHalfAway {sign whole frac : List Char} (h : AllDigits frac) :
    (if sign = ['-'] then -(koboOf whole frac : ℤ) else koboOf whole frac)
      = roundHalfAway (decimalValue sign whole frac * 100) := by
  have hnonneg := magnitude_nonneg whole frac
  rw [koboOf_eq_floor h, decimalValue]
  by_cases hsign : sign = ['-']
  · rw [if_pos hsign, if_pos hsign, roundHalfAway]
    by_cases hneg : -magnitude whole frac * 100 < 0
    · rw [if_pos hneg]
      congr 3
      ring
    · -- Zero has no sign.
      have hzero : magnitude whole frac = 0 := by linarith
      rw [if_neg hneg, hzero]
      norm_num
  · rw [if_neg hsign, if_neg hsign, roundHalfAway, if_neg (by linarith)]

/-! ### The white space around it -/

/-- A digit is no white space. -/
theorem isDigit_not_space {c : Char} (h : c.isDigit = true) : jsSpace c = false := by
  rw [isDigit_iff] at h
  rw [jsSpace, JsText.whiteSpace, List.contains_eq_mem, decide_eq_false_iff_not]
  intro hc
  simp only [List.mem_cons, List.not_mem_nil, or_false] at hc
  omega

/-- Nor is anything else of a plain decimal. -/
theorem decimalText_no_space {sign whole : List Char} {frac : Option (List Char)}
    (h : IsDecimal sign whole frac) : ∀ c ∈ decimalText sign whole frac, jsSpace c = false := by
  intro c hc
  rcases List.mem_append.mp hc with hsign | hrest
  · rcases h.sign_cases with rfl | rfl | rfl
    · cases hsign
    · rw [List.mem_singleton.mp hsign]
      rfl
    · rw [List.mem_singleton.mp hsign]
      rfl
  · rcases List.mem_append.mp hrest with hwhole | hfrac
    · exact isDigit_not_space (h.whole_digits c hwhole)
    · cases frac with
      | none => cases hfrac
      | some f =>
          rcases List.mem_cons.mp hfrac with rfl | hdigit
          · rfl
          · exact isDigit_not_space (h.frac_digits f rfl c hdigit)

theorem decimalText_ne_nil {sign whole : List Char} {frac : Option (List Char)}
    (h : IsDecimal sign whole frac) : decimalText sign whole frac ≠ [] := by
  intro hnil
  have hrest := (List.append_eq_nil_iff.mp hnil).2
  exact h.whole_ne (List.append_eq_nil_iff.mp hrest).1

/-- A plain decimal with white space around it. -/
structure Spaced (v : String) (sign whole : List Char) (frac : Option (List Char)) : Prop
    extends IsDecimal sign whole frac where
  around : ∃ lead trail, v.toList = lead ++ (decimalText sign whole frac ++ trail) ∧
    (∀ c ∈ lead, jsSpace c = true) ∧ ∀ c ∈ trail, jsSpace c = true

/-- What `toKobo` computes of one. -/
theorem toKobo_spaced {v : String} {sign whole : List Char} {frac : Option (List Char)}
    (h : Spaced v sign whole frac) : toKobo (some v) = some (if sign = ['-']
      then -(koboOf whole (frac.getD []) : ℤ) else koboOf whole (frac.getD [])) := by
  rcases h.around with ⟨lead, trail, hv, hlead, htrail⟩
  rw [toKobo, Option.bind_some, hv, JsText.trim_append hlead htrail
    (decimalText_no_space h.toIsDecimal) (decimalText_ne_nil h.toIsDecimal),
    DECIMAL_RE_decimalText h.toIsDecimal]
  rfl

/-- A text that is read is one. -/
theorem spaced_of_toKobo {v : String} {k : ℤ} (h : toKobo (some v) = some k) :
    ∃ sign whole frac, Spaced v sign whole frac := by
  rw [toKobo, Option.bind_some, Option.map_eq_some_iff] at h
  rcases h with ⟨m, hm, -⟩
  rcases DECIMAL_RE_eq_some.mp hm with ⟨frac, hdecimal, htext, -⟩
  rcases JsText.exists_trim jsSpace v.toList with ⟨lead, trail, hv, hlead, htrail⟩
  rw [htext] at hv
  exact ⟨m.sign, m.whole, frac, hdecimal, lead, trail, hv, hlead, htrail⟩

/-! ### Round trips -/

/-- The sign of printed kobo. -/
def signText (kobo : ℤ) : List Char := if kobo < 0 then ['-'] else []

theorem toList_koboToDecimalString (kobo : ℤ) : (koboToDecimalString kobo).toList =
    decimalText (signText kobo) (Nat.toDigits 10 (kobo.natAbs / 100))
      (some (padded 2 (kobo.natAbs % 100))) := by
  have hsign : (if kobo < 0 then "-" else "").toList = signText kobo := by
    rw [signText]
    split
    · rfl
    · rfl
  have hdot : (".").toList = ['.'] := rfl
  simp only [koboToDecimalString, String.toList_append, String.toList_ofList, hsign, hdot,
    decimalText, Option.map_some, Option.getD_some, List.append_assoc, List.singleton_append]

theorem isDecimal_printed (kobo : ℤ) : IsDecimal (signText kobo)
    (Nat.toDigits 10 (kobo.natAbs / 100)) (some (padded 2 (kobo.natAbs % 100))) where
  sign_cases := by
    rw [signText]
    split
    · exact Or.inr (Or.inr rfl)
    · exact Or.inl rfl
  whole_digits := allDigits_toDigits _
  whole_ne := Nat.toDigits_ne_nil
  frac_digits := by
    intro f hf
    rw [← Option.some.inj hf]
    exact allDigits_padded _ _

/-- Two digits are read as they are. -/
theorem koboOf_two {whole frac : List Char} (h : frac.length = 2) :
    koboOf whole frac = value whole * 100 + value frac := by
  have hthird : frac[2]? = none := List.getElem?_eq_none (by omega)
  have htake : (frac ++ ['0', '0']).take 2 = frac := by
    rw [← h, List.take_left]
  rw [koboOf, hthird, htake]
  rfl

/-- What is printed is read back. -/
theorem toKobo_koboToDecimalString (kobo : ℤ) :
    toKobo (some (koboToDecimalString kobo)) = some kobo := by
  have hspaced : Spaced (koboToDecimalString kobo) (signText kobo)
      (Nat.toDigits 10 (kobo.natAbs / 100)) (some (padded 2 (kobo.natAbs % 100))) :=
    { isDecimal_printed kobo with
      around := ⟨[], [], by rw [toList_koboToDecimalString, List.nil_append, List.append_nil],
        by simp, by simp⟩ }
  have hlength : (padded 2 (kobo.natAbs % 100)).length = 2 := length_padded (by omega) (by omega)
  rw [toKobo_spaced hspaced, Option.getD_some, koboOf_two hlength, value_toDigits, value_padded,
    signText, Option.some_inj]
  by_cases hneg : kobo < 0
  · rw [if_pos hneg, if_pos rfl]
    omega
  · rw [if_neg hneg, if_neg (by decide)]
    omega

/-- `-?digits.dd`, without superfluous zeros in front. -/
structure Printed (v : String) (sign whole frac : List Char) : Prop where
  text : v.toList = decimalText sign whole (some frac)
  sign_cases : sign = [] ∨ sign = ['-']
  whole_canonical : Canonical whole
  frac_digits : AllDigits frac
  frac_length : frac.length = 2

/-- What is read of such a text is printed as it was. -/
theorem koboToDecimalString_toKobo {v : String} {sign whole frac : List Char}
    (h : Printed v sign whole frac) (hzero : v ≠ "-0.00") :
    ∃ kobo, toKobo (some v) = some kobo ∧ koboToDecimalString kobo = v := by
  have hdecimal : IsDecimal sign whole (some frac) :=
    { sign_cases := h.sign_cases.imp_right Or.inr
      whole_digits := h.whole_canonical.1
      whole_ne := h.whole_canonical.ne_nil
      frac_digits := fun f hf => Option.some.inj hf ▸ h.frac_digits }
  have hspaced : Spaced v sign whole (some frac) :=
    { hdecimal with
      around := ⟨[], [], by rw [h.text, List.nil_append, List.append_nil], by simp, by simp⟩ }
  have hfrac := value_lt h.frac_digits
  rw [h.frac_length] at hfrac
  refine ⟨_, toKobo_spaced hspaced, String.toList_inj.mp ?_⟩
  rw [Option.getD_some, koboOf_two h.frac_length, toList_koboToDecimalString, h.text]
  let n := value whole * 100 + value frac
  have hprinted : padded 2 (value frac) = frac := by
    have hne : frac ≠ [] := List.ne_nil_of_length_pos (by rw [h.frac_length]; decide)
    have hpadded := padded_value h.frac_digits hne
    rwa [h.frac_length] at hpadded
  have habs : ∀ k : ℤ, k.natAbs = n → Nat.toDigits 10 (k.natAbs / 100) = whole ∧
      padded 2 (k.natAbs % 100) = frac := by
    intro k hk
    have hdiv : k.natAbs / 100 = value whole := by omega
    have hmod : k.natAbs % 100 = value frac := by omega
    rw [hdiv, hmod]
    exact ⟨toDigits_value h.whole_canonical, hprinted⟩
  rcases h.sign_cases with rfl | rfl
  · rw [if_neg (by decide)]
    rcases habs (n : ℤ) (by omega) with ⟨hwhole, hpadded⟩
    rw [hwhole, hpadded, signText, if_neg (by omega)]
  · rw [if_pos rfl]
    rcases habs (-(n : ℤ)) (by omega) with ⟨hwhole, hpadded⟩
    -- Zero would have lost its sign.
    have hpos : 0 < n := by
      by_contra hn
      have hn' : value whole = 0 ∧ value frac = 0 := by omega
      have hwhole0 := toDigits_value h.whole_canonical
      rw [hn'.1] at hwhole0
      rw [hn'.2] at hprinted
      refine hzero (String.toList_inj.mp ?_)
      rw [h.text, ← hwhole0, ← hprinted]
      rfl
    rw [hwhole, hpadded, signText, if_pos (by omega)]

/-! ### The commas -/

/-- The expression finds groups of three up to the end of a run of digits. -/
theorem lookahead_digits {rest : List Char} (h : AllDigits rest) :
    lookahead rest = true ↔ rest ≠ [] ∧ rest.length % 3 = 0 := by
  rw [lookahead, List.any_eq_true]
  simp only [List.mem_range, Bool.and_eq_true, decide_eq_true_eq, Bool.not_eq_true',
    List.length_take]
  constructor
  · rintro ⟨k, hk, ⟨hlength, -⟩, hend⟩
    -- No digit may follow, so nothing does.
    have hnil : rest.drop (3 * (k + 1)) = [] := by
      cases hdrop : rest.drop (3 * (k + 1)) with
      | nil => rfl
      | cons c tail =>
          have hmem : c ∈ rest := List.mem_of_mem_drop (hdrop ▸ List.mem_cons_self)
          rw [hdrop, List.head?_cons, Option.any_some, h c hmem] at hend
          cases hend
    have hle : rest.length ≤ 3 * (k + 1) := List.drop_eq_nil_iff.mp hnil
    have hne : rest ≠ [] := List.ne_nil_of_length_pos (by omega)
    exact ⟨hne, by omega⟩
  · rintro ⟨hne, hmod⟩
    have hpos := List.length_pos_iff.mpr hne
    have hthree : 3 * (rest.length / 3 - 1 + 1) = rest.length := by omega
    refine ⟨rest.length / 3 - 1, by omega, ⟨by omega, ?_⟩, ?_⟩
    · exact List.all_eq_true.mpr fun c hc => h c (List.mem_of_mem_take hc)
    · rw [hthree, List.drop_length]
      rfl

theorem wordChar_of_digit {c : Char} (h : c.isDigit = true) : wordChar c = true := by
  rw [wordChar, Char.isAlphanum, h, Bool.or_true, Bool.true_or]

/-- Inside a run of digits there is a comma where a multiple of three follow. -/
theorem groupFrom_digits {d c : Char} {rest : List Char} (hd : d.isDigit = true)
    (h : AllDigits (c :: rest)) : groupFrom (some d) (c :: rest) =
      (if (c :: rest).length % 3 = 0 then [','] else []) ++ c :: groupFrom (some c) rest := by
  have hc := h c List.mem_cons_self
  have hword : notBoundary (some d) (some c) = true := by
    rw [notBoundary, Option.any_some, Option.any_some, wordChar_of_digit hd, wordChar_of_digit hc]
    rfl
  have hlook : lookahead (c :: rest) = decide ((c :: rest).length % 3 = 0) := by
    rw [Bool.eq_iff_iff, lookahead_digits h, decide_eq_true_eq]
    exact and_iff_right (List.cons_ne_nil _ _)
  rw [groupFrom, hword, Bool.true_and, hlook]
  simp only [decide_eq_true_eq]

/-- Groups of three, each with a comma before it. -/
def commaGroups (groups : List (List Char)) : List Char := groups.flatMap fun g => ',' :: g

/-- Behind a digit, so many groups of three digits are set off by commas. -/
theorem groupFrom_groups (m : Nat) {d : Char} {rest : List Char} (hd : d.isDigit = true)
    (h : AllDigits rest) (hlength : rest.length = 3 * m) :
    ∃ groups : List (List Char), rest = groups.flatten ∧ (∀ g ∈ groups, g.length = 3) ∧
      groupFrom (some d) rest = commaGroups groups := by
  induction m generalizing d rest with
  | zero =>
      rw [List.length_eq_zero_iff.mp hlength]
      exact ⟨[], rfl, fun g hg => absurd hg List.not_mem_nil, rfl⟩
  | succ m ih =>
      -- The next three digits are a group.
      rcases rest with _ | ⟨a, _ | ⟨b, _ | ⟨c, rest⟩⟩⟩
      · simp at hlength
      · simp at hlength
        omega
      · simp at hlength
        omega
      · have hlen : rest.length = 3 * m := by
          simp only [List.length_cons] at hlength
          omega
        have hb : AllDigits (b :: c :: rest) := fun x hx => h x (List.mem_cons_of_mem a hx)
        have hc : AllDigits (c :: rest) := fun x hx => hb x (List.mem_cons_of_mem b hx)
        have hrest : AllDigits rest := fun x hx => hc x (List.mem_cons_of_mem c hx)
        rcases ih (hc c List.mem_cons_self) hrest hlen with ⟨groups, hflat, hthree, heq⟩
        refine ⟨[a, b, c] :: groups, by rw [List.flatten_cons, ← hflat]; rfl, ?_, ?_⟩
        · intro g hg
          rcases List.mem_cons.mp hg with rfl | hmem
          · rfl
          · exact hthree g hmem
        · rw [groupFrom_digits hd h, groupFrom_digits (h a List.mem_cons_self) hb,
            groupFrom_digits (hb b List.mem_cons_self) hc, heq]
          simp only [List.length_cons, hlen]
          rw [if_pos (by omega), if_neg (by omega), if_neg (by omega)]
          rfl

/-- The digits are grouped from the end: up to three, then groups of three. -/
theorem groupThousands_eq {digits : List Char} (h : AllDigits digits) (hne : digits ≠ []) :
    ∃ first groups, digits = first ++ groups.flatten ∧ 1 ≤ first.length ∧ first.length ≤ 3 ∧
      (∀ g ∈ groups, g.length = 3) ∧ groupThousands digits = first ++ commaGroups groups := by
  -- At the start of the text there is no comma.
  have hstart : ∀ c rest, AllDigits (c :: rest) →
      groupThousands (c :: rest) = c :: groupFrom (some c) rest := by
    intro c rest hdigits
    have hword : notBoundary none (some c) = false := by
      rw [notBoundary, Option.any_some, wordChar_of_digit (hdigits c List.mem_cons_self)]
      rfl
    rw [groupThousands, groupFrom, hword]
    rfl
  have htail : ∀ c rest, AllDigits (c :: rest) → AllDigits rest := fun c rest hdigits x hx =>
    hdigits x (List.mem_cons_of_mem c hx)
  rcases digits with _ | ⟨a, rest⟩
  · exact absurd rfl hne
  have ha := h a List.mem_cons_self
  have hrest := htail a rest h
  rw [hstart a rest h]
  by_cases hone : rest.length % 3 = 0
  · rcases groupFrom_groups (rest.length / 3) ha hrest (by omega) with ⟨groups, hflat, hthree, heq⟩
    exact ⟨[a], groups, by rw [hflat]; rfl, by simp, by simp, hthree, by rw [heq]; rfl⟩
  · rcases rest with _ | ⟨b, rest⟩
    · exact absurd rfl hone
    have hb := hrest b List.mem_cons_self
    have hrest' := htail b rest hrest
    rw [groupFrom_digits ha hrest, if_neg hone]
    by_cases htwo : rest.length % 3 = 0
    · rcases groupFrom_groups (rest.length / 3) hb hrest' (by omega) with
        ⟨groups, hflat, hthree, heq⟩
      exact ⟨[a, b], groups, by rw [hflat]; rfl, by simp, by simp, hthree, by rw [heq]; rfl⟩
    · rcases rest with _ | ⟨c, rest⟩
      · exact absurd rfl htwo
      have hc := hrest' c List.mem_cons_self
      have hrest'' := htail c rest hrest'
      rw [groupFrom_digits hb hrest', if_neg htwo]
      simp only [List.length_cons] at hone htwo
      rcases groupFrom_groups (rest.length / 3) hc hrest'' (by omega) with
        ⟨groups, hflat, hthree, heq⟩
      exact ⟨[a, b, c], groups, by rw [hflat]; rfl, by simp, by simp, hthree, by rw [heq]; rfl⟩

/-! ### What is shown -/

/-- The text without the naira sign and the commas, and with an ASCII minus. -/
def unformatted (text : List Char) : List Char :=
  (text.filter fun c => !(c = '₦' || c = ',')).map fun c => if c = '−' then '-' else c

theorem unformatted_append (l l' : List Char) :
    unformatted (l ++ l') = unformatted l ++ unformatted l' := by
  rw [unformatted, List.filter_append, List.map_append]
  rfl

theorem unformatted_digits {l : List Char} (h : AllDigits l) : unformatted l = l := by
  have hascii : ∀ c ∈ l, ∀ d : Char, 57 < d.toNat ∨ d.toNat < 48 → c ≠ d := by
    rintro c hc d hd rfl
    have hdigit := isDigit_iff.mp (h c hc)
    omega
  have hfilter : (l.filter fun c => !(c = '₦' || c = ',')) = l := by
    refine List.filter_eq_self.mpr fun c hc => ?_
    have hnaira := hascii c hc '₦' (Or.inl (by decide))
    have hcomma := hascii c hc ',' (Or.inr (by decide))
    simp [hnaira, hcomma]
  rw [unformatted, hfilter]
  refine (List.map_congr_left fun c hc => ?_).trans (List.map_id l)
  exact if_neg (hascii c hc '−' (Or.inl (by decide)))

theorem unformatted_commaGroups {groups : List (List Char)} (h : AllDigits groups.flatten) :
    unformatted (commaGroups groups) = groups.flatten := by
  induction groups with
  | nil => rfl
  | cons g groups ih =>
      rw [List.flatten_cons] at h ⊢
      have hsplit : commaGroups (g :: groups) = [','] ++ (g ++ commaGroups groups) := rfl
      rw [hsplit, unformatted_append, unformatted_append, unformatted_digits h.of_append.1,
        ih h.of_append.2]
      rfl

/-- The printed and the shown amount differ in the signs and the commas, which
    stand before every third digit from the point. -/
theorem formatKobo_eq (kobo : ℤ) : ∃ first groups,
    1 ≤ first.length ∧ first.length ≤ 3 ∧ (∀ g ∈ groups, g.length = 3) ∧
    (koboToDecimalString kobo).toList = signText kobo ++ (first ++ groups.flatten ++
      '.' :: padded 2 (kobo.natAbs % 100)) ∧
    (formatKobo kobo).toList = (if kobo < 0 then ['−'] else []) ++ '₦' ::
      (first ++ commaGroups groups ++ '.' :: padded 2 (kobo.natAbs % 100)) ∧
    unformatted (formatKobo kobo).toList = (koboToDecimalString kobo).toList := by
  have hdigits := allDigits_toDigits (kobo.natAbs / 100)
  rcases groupThousands_eq hdigits Nat.toDigits_ne_nil with
    ⟨first, groups, hwhole, hpos, hle, hthree, hgroups⟩
  -- The whole naira are the groups without the commas.
  have hprinted : (koboToDecimalString kobo).toList = signText kobo ++ (first ++ groups.flatten ++
      '.' :: padded 2 (kobo.natAbs % 100)) := by
    rw [toList_koboToDecimalString, decimalText, hwhole]
    rfl
  have hshown : (formatKobo kobo).toList = (if kobo < 0 then ['−'] else []) ++ '₦' ::
      (first ++ commaGroups groups ++ '.' :: padded 2 (kobo.natAbs % 100)) := by
    have hsign : (if kobo < 0 then "−" else "").toList = if kobo < 0 then ['−'] else [] := by
      split
      · rfl
      · rfl
    have hnaira : ("₦").toList = ['₦'] := rfl
    have hdot : (".").toList = ['.'] := rfl
    simp only [formatKobo, hgroups, String.toList_append, String.toList_ofList, hsign, hnaira,
      hdot, List.append_assoc, List.cons_append, List.nil_append]
  refine ⟨first, groups, hpos, hle, hthree, hprinted, hshown, ?_⟩
  rw [hwhole] at hdigits
  -- The minus sign is another character in what is shown.
  have hminus : unformatted (if kobo < 0 then ['−'] else []) = signText kobo := by
    rw [signText]
    split
    · rfl
    · rfl
  have hnaira : ∀ l, unformatted ('₦' :: l) = unformatted l := fun l => unformatted_append ['₦'] l
  have hdot : ∀ l, unformatted ('.' :: l) = '.' :: unformatted l := fun l =>
    unformatted_append ['.'] l
  rw [hshown, hprinted, unformatted_append, hminus, hnaira, unformatted_append,
    unformatted_append, unformatted_digits hdigits.of_append.1,
    unformatted_commaGroups hdigits.of_append.2, hdot, unformatted_digits (allDigits_padded _ _)]

/-- Printing and parsing are inverse to each other, on all kobo and on all texts
    that are printed so; a text is read if and only if it is a plain decimal with
    white space around it, to its value rounded half away from zero; and the amount
    that is shown is the one that is printed, with commas before every third digit
    from the point. -/
theorem kobo_round_trip :
    (∀ kobo, toKobo (some (koboToDecimalString kobo)) = some kobo) ∧
    (∀ v sign whole frac, Printed v sign whole frac → v ≠ "-0.00" →
      (toKobo (some v)).map koboToDecimalString = some v) ∧
    (∀ v sign whole frac, Spaced v sign whole frac →
      toKobo (some v) = some (roundHalfAway (decimalValue sign whole (frac.getD []) * 100))) ∧
    (∀ v, (¬ ∃ sign whole frac, Spaced v sign whole frac) → toKobo (some v) = none) ∧
    ∀ kobo, ∃ first groups, 1 ≤ first.length ∧ first.length ≤ 3 ∧
      (∀ g ∈ groups, g.length = 3) ∧
      (koboToDecimalString kobo).toList = signText kobo ++ (first ++ groups.flatten ++
        '.' :: padded 2 (kobo.natAbs % 100)) ∧
      (formatKobo kobo).toList = (if kobo < 0 then ['−'] else []) ++ '₦' ::
        (first ++ commaGroups groups ++ '.' :: padded 2 (kobo.natAbs % 100)) ∧
      unformatted (formatKobo kobo).toList = (koboToDecimalString kobo).toList := by
  refine ⟨toKobo_koboToDecimalString, ?_, ?_, ?_, formatKobo_eq⟩
  · intro v sign whole frac h hzero
    rcases koboToDecimalString_toKobo h hzero with ⟨kobo, hread, hprint⟩
    rw [hread, Option.map_some, hprint]
  · intro v sign whole frac h
    have hfrac : AllDigits (frac.getD []) := by
      cases frac with
      | none => exact fun c hc => absurd hc List.not_mem_nil
      | some f => exact h.frac_digits f rfl
    rw [toKobo_spaced h, koboOf_eq_roundHalfAway hfrac]
  · intro v h
    by_contra hne
    rcases Option.ne_none_iff_exists'.mp hne with ⟨kobo, hread⟩
    exact h (spaced_of_toKobo hread)

end Money

end MmrEngine
