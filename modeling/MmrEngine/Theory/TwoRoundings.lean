import MmrEngine.Api.MoneyText
import MmrEngine.Theory.KoboRoundTrip

/-!
# Two Roundings of One Amount

The API rounds an amount to kobo with ties to even, the dashboard with ties
away from zero.

An amount of six decimals is a tie exactly at half a kobo, and the two part
there where the kobo below is even (`roundings_agree_iff`). So a discrepancy
whose amounts differ by such an amount is shown with a Difference that is a kobo
larger than its exposure.

## Main definitions

* `Agrees`: An amount that is no such tie.

## Theorems

* `floor_add_half_eq_roundHalfEven_iff`: When the two roundings of a number agree.
* `toKobo_str`, `toKobo_money`: What the dashboard reads of the two texts.
* `formatKobo_injective`: Amounts that are shown alike are equal.
* `money_agrees_iff`: The texts, and what is shown of a discrepancy.
-/

namespace MmrEngine

namespace Money

open Digits Discrepancy Reconciliation

/-- Ties away from zero and ties to even part where an even number is below. -/
theorem floor_add_half_eq_roundHalfEven_iff (x : ℚ) : ⌊x + 1 / 2⌋ = roundHalfEven x ↔
    ¬ (x - ⌊x⌋ = 1 / 2 ∧ ⌊x⌋ % 2 = 0) := by
  have hlow := Int.floor_le x
  have hhigh := Int.lt_floor_add_one x
  unfold roundHalfEven
  by_cases hdown : x - ⌊x⌋ < 1 / 2
  · have hfloor : ⌊x + 1 / 2⌋ = ⌊x⌋ := by
      rw [Int.floor_eq_iff]
      constructor <;> linarith
    rw [if_pos hdown, hfloor]
    exact iff_of_true rfl fun h => absurd h.1 (ne_of_lt hdown)
  · have hfloor : ⌊x + 1 / 2⌋ = ⌊x⌋ + 1 := by
      rw [Int.floor_eq_iff]
      push_cast
      constructor <;> linarith
    rw [if_neg hdown, hfloor]
    by_cases hup : 1 / 2 < x - ⌊x⌋
    · rw [if_pos hup]
      exact iff_of_true rfl fun h => absurd h.1.symm (ne_of_lt hup)
    · have htie : x - ⌊x⌋ = 1 / 2 := le_antisymm (not_lt.mp hup) (not_lt.mp hdown)
      rw [if_neg hup]
      by_cases heven : ⌊x⌋ % 2 = 0
      · rw [if_pos heven]
        exact iff_of_false (by omega) fun h => h ⟨htie, heven⟩
      · rw [if_neg heven]
        exact iff_of_true rfl fun h => heven h.2

/-- The amount is not half a kobo above an even number of them. -/
def Agrees (v : Numeric) : Prop := v.micros.natAbs % 20000 ≠ 5000

instance (v : Numeric) : Decidable (Agrees v) := inferInstanceAs (Decidable (_ ≠ _))

/-- On an amount of six decimals. -/
theorem roundings_agree_iff (v : Numeric) :
    ⌊|v.toRat| * 100 + 1 / 2⌋ = roundHalfEven (|v.toRat| * 100) ↔ Agrees v := by
  -- Whole kobo and a rest in millionths of a naira.
  let q := v.micros.natAbs / 10000
  let r := v.micros.natAbs % 10000
  have hr : r < 10000 := Nat.mod_lt _ (by omega)
  have hsplit : v.micros.natAbs = 10000 * q + r := (Nat.div_add_mod _ _).symm
  have hvalue : |v.toRat| * 100 = q + (r : ℚ) / 10000 := by
    rw [v.abs_toRat, hsplit]
    push_cast
    ring
  have hlt : (r : ℚ) / 10000 < 1 := by
    rw [div_lt_one (by norm_num)]
    exact_mod_cast hr
  have hfloor : ⌊|v.toRat| * 100⌋ = (q : ℤ) := by
    rw [Int.floor_eq_iff, hvalue]
    push_cast
    constructor
    · have hnonneg : 0 ≤ (r : ℚ) / 10000 := by positivity
      linarith
    · linarith
  -- The roundings can differ only where the rest is half a kobo.
  have htie : |v.toRat| * 100 - (q : ℤ) = 1 / 2 ↔ r = 5000 := by
    rw [hvalue]
    push_cast
    rw [add_sub_cancel_left, div_eq_div_iff (by norm_num) (by norm_num)]
    constructor
    · intro h
      have hcast : (r : ℚ) = (5000 : Nat) := by
        push_cast
        linarith
      exact_mod_cast hcast
    · intro h
      rw [h]
      norm_num
  -- And there they do if the whole kobo are even.
  rw [floor_add_half_eq_roundHalfEven_iff, hfloor, htie, Agrees, hsplit]
  omega

/-- The text of an amount whose digits are those of its magnitude. -/
theorem toKobo_signed (v : Numeric) {whole frac : List Char} (hwhole : AllDigits whole)
    (hne : whole ≠ []) (hfrac : AllDigits frac) :
    toKobo (some (v.sign ++ String.ofList whole ++ "." ++ String.ofList frac)) =
      some (if v.micros < 0 then -(koboOf whole frac : ℤ) else koboOf whole frac) := by
  have hsign : v.sign.toList = signText v.micros := by
    rw [Numeric.sign, signText]
    split
    · rfl
    · rfl
  have hdot : (".").toList = ['.'] := rfl
  have htext : (v.sign ++ String.ofList whole ++ "." ++ String.ofList frac).toList
      = decimalText (signText v.micros) whole (some frac) := by
    simp only [String.toList_append, String.toList_ofList, hsign, hdot, decimalText,
      Option.map_some, Option.getD_some, List.append_assoc, List.singleton_append]
  have hspaced : Spaced (v.sign ++ String.ofList whole ++ "." ++ String.ofList frac)
      (signText v.micros) whole (some frac) :=
    { sign_cases := by
        rw [signText]
        split
        · exact Or.inr (Or.inr rfl)
        · exact Or.inl rfl
      whole_digits := hwhole
      whole_ne := hne
      frac_digits := fun f hf => Option.some.inj hf ▸ hfrac
      around := ⟨[], [], by rw [htext, List.nil_append, List.append_nil], by simp, by simp⟩ }
  rw [toKobo_spaced hspaced, Option.getD_some, signText]
  by_cases hneg : v.micros < 0
  · rw [if_pos hneg, if_pos rfl, if_pos hneg]
  · rw [if_neg hneg, if_neg (by decide), if_neg hneg]

/-- The text of `str` is rounded by the dashboard. -/
theorem toKobo_str (v : Numeric) : toKobo (some v.str) =
    some (if v.micros < 0 then -⌊|v.toRat| * 100 + 1 / 2⌋ else ⌊|v.toRat| * 100 + 1 / 2⌋) := by
  have hlength : (padded 6 (v.micros.natAbs % 10 ^ 6)).length = 6 :=
    length_padded (by omega) (Nat.mod_lt _ (by norm_num))
  have hmagnitude : magnitude (Nat.toDigits 10 (v.micros.natAbs / 10 ^ 6))
      (padded 6 (v.micros.natAbs % 10 ^ 6)) = |v.toRat| := by
    have hsplit := Nat.div_add_mod v.micros.natAbs (10 ^ 6)
    rw [magnitude, value_toDigits, value_padded, hlength, v.abs_toRat]
    have hcast : (v.micros.natAbs : ℚ) = 10 ^ 6 * ((v.micros.natAbs / 10 ^ 6 : Nat) : ℚ)
        + ((v.micros.natAbs % 10 ^ 6 : Nat) : ℚ) := by exact_mod_cast hsplit.symm
    rw [hcast, add_div, mul_div_cancel_left₀ _ (by norm_num)]
  rw [Numeric.str, toKobo_signed v (allDigits_toDigits _) Nat.toDigits_ne_nil
    (allDigits_padded _ _), koboOf_eq_floor (allDigits_padded _ _), hmagnitude]

/-- The text of `money` is rounded already. -/
theorem toKobo_money (v : Numeric) : toKobo (some v.money) =
    some (if v.micros < 0 then -roundHalfEven (|v.toRat| * 100)
      else roundHalfEven (|v.toRat| * 100)) := by
  have hlength : (padded 2 (v.quantizedKobo % 100)).length = 2 :=
    length_padded (by omega) (Nat.mod_lt _ (by norm_num))
  have hnonneg : 0 ≤ roundHalfEven (|v.toRat| * 100) := by
    have hmono := roundHalfEven_mono (show ((0 : ℤ) : ℚ) ≤ |v.toRat| * 100 by positivity)
    rwa [roundHalfEven_intCast] at hmono
  have hkobo : (koboOf (Nat.toDigits 10 (v.quantizedKobo / 100))
      (padded 2 (v.quantizedKobo % 100)) : ℤ) = roundHalfEven (|v.toRat| * 100) := by
    rw [koboOf_two hlength, value_toDigits, value_padded, Numeric.quantizedKobo]
    omega
  rw [Numeric.money, toKobo_signed v (allDigits_toDigits _) Nat.toDigits_ne_nil
    (allDigits_padded _ _), hkobo]

theorem toKobo_agree_iff (v : Numeric) :
    toKobo (some v.str) = toKobo (some v.money) ↔ Agrees v := by
  rw [toKobo_str, toKobo_money, Option.some_inj, ← roundings_agree_iff]
  split
  · exact neg_inj
  · exact Iff.rfl

/-- Amounts that are shown alike are the same. -/
theorem formatKobo_injective : Function.Injective formatKobo := by
  intro k k' h
  rcases formatKobo_eq k with ⟨_, _, _, _, _, _, _, hk⟩
  rcases formatKobo_eq k' with ⟨_, _, _, _, _, _, _, hk'⟩
  have hprinted : koboToDecimalString k = koboToDecimalString k' := by
    refine String.toList_inj.mp ?_
    rw [← hk, ← hk', h]
  have hread := toKobo_koboToDecimalString k
  rw [hprinted, toKobo_koboToDecimalString, Option.some_inj] at hread
  exact hread.symm

/-- An amount discrepancy has the difference as its exposure and as its evidence. -/
theorem evidence_of_amounts {a b : ℚ} {fxRateA fxRateB : Option ℚ}
    (h : (classifyAmountDiscrepancy a b fxRateA fxRateB).discrepancyType ≠ none) :
    (classifyAmountDiscrepancy a b fxRateA fxRateB).estimatedExposureNgn = |a - b| ∧
      ∃ pct fx classification, (classifyAmountDiscrepancy a b fxRateA fxRateB).evidence
        = .amounts a b |a - b| pct fx classification := by
  simp only [classifyAmountDiscrepancy] at h ⊢
  generalize (classifyAmountDelta a b (fxVariance fxRateA fxRateB)).1 = delta at h ⊢
  cases delta with
  | none => exact absurd rfl h
  | some classification => exact ⟨rfl, _, _, _, rfl⟩

/-- The dashboard reads the same kobo of an amount and of what the API makes of it
    if and only if the amount is not half a kobo above an even number of them; and
    it shows the same Difference and exposure for just the discrepancies whose
    amounts do not differ by such an amount. -/
theorem money_agrees_iff (v : Numeric) :
    (toKobo (some v.str) = toKobo (some v.money) ↔ v.micros.natAbs % 20000 ≠ 5000) ∧
    ∀ (a b : Numeric) (fxRateA fxRateB : Option ℚ),
      (classifyAmountDiscrepancy a.toRat b.toRat fxRateA fxRateB).discrepancyType ≠ none →
      v.toRat = |a.toRat - b.toRat| →
      (classifyAmountDiscrepancy a.toRat b.toRat fxRateA fxRateB).estimatedExposureNgn
        = v.toRat ∧
      (∃ pct fx classification,
        (classifyAmountDiscrepancy a.toRat b.toRat fxRateA fxRateB).evidence
          = .amounts a.toRat b.toRat v.toRat pct fx classification) ∧
      (amountDifference (some a.str) (some b.str) (some v.str) = formatNgn (some v.money) ↔
        v.micros.natAbs % 20000 ≠ 5000) := by
  refine ⟨toKobo_agree_iff v, fun a b fxRateA fxRateB h hdelta => ?_⟩
  rcases evidence_of_amounts h with ⟨hexposure, hevidence⟩
  rw [hdelta]
  refine ⟨hexposure, hevidence, ?_⟩
  have hagree := toKobo_agree_iff v
  rw [toKobo_str, toKobo_money, Option.some_inj] at hagree
  rw [amountDifference, formatNgn, toKobo_str, toKobo_money, Option.some_or]
  exact formatKobo_injective.eq_iff.trans hagree

/-! ### An eighth of a naira -/

/-- 0.125 naira. -/
def eighth : Numeric where
  micros := 125000
  precision := by decide

/-- It is rounded up by the dashboard and down by the API, also where it is what
    10.125 and 10 naira differ by. -/
theorem eighth_disagrees : toKobo (some eighth.str) ≠ toKobo (some eighth.money) ∧
    (classifyAmountDiscrepancy (81 / 8) 10 none none).discrepancyType = some .amountMismatch ∧
    (classifyAmountDiscrepancy (81 / 8) 10 none none).estimatedExposureNgn = eighth.toRat ∧
    amountDifference (some "10.125000") (some "10.000000") (some eighth.str)
      ≠ formatNgn (some eighth.money) := by
  have hne : toKobo (some eighth.str) ≠ toKobo (some eighth.money) := fun h =>
    absurd ((toKobo_agree_iff eighth).mp h) (by decide)
  have hdelta : |(81 / 8 : ℚ) - 10| = 1 / 8 := by
    rw [abs_of_pos (by norm_num)]
    norm_num
  have htype : (classifyAmountDiscrepancy (81 / 8) 10 none none).discrepancyType
      = some .amountMismatch := by
    simp only [classifyAmountDiscrepancy, classifyAmountDelta, deltaPct, hdelta, fxVariance,
      amountThresholdPct]
    rw [if_neg (by norm_num), if_neg (by norm_num)]
  refine ⟨hne, htype, ?_, ?_⟩
  · rw [(evidence_of_amounts (by rw [htype]; exact Option.some_ne_none _)).1, hdelta,
      Numeric.toRat]
    norm_num [eighth]
  · rw [toKobo_str, toKobo_money, ne_eq, Option.some_inj] at hne
    rw [amountDifference, formatNgn, toKobo_str, toKobo_money, Option.some_or]
    exact fun h => hne (formatKobo_injective h)

end Money

end MmrEngine
