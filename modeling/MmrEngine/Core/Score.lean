import Mathlib.Algebra.Order.Floor.Ring
import Mathlib.Algebra.Order.Ring.Rat
import Mathlib.Data.Rat.Floor
import Mathlib.Tactic.Linarith

/-!
# Score Arithmetic

The numbers of the matching engine. Amounts are `Decimal`s out of a
`NUMERIC(20,6)` column and distances in time are whole microseconds, so both
are exact and are rationals here. Scores, weights and thresholds are Python
floats.

What the engine relies on about floats is little: scores are compared, the
runner-up is subtracted from the best, and the score that is stored is rounded
to four decimals. `ScoreArith` is that much. It is a parameter, so a result
that does not say otherwise holds for binary64 with whatever its additions and
multiplications round to, and for exact arithmetic, which is the instance on
the rationals that concrete evaluations use.

## Main definitions

* `ScoreArith`: The operations on scores and their laws.
* `roundHalfEven`: Rounding to an integer, ties to even.

## Theorems

* `roundHalfEven_intCast`: An integer is its own rounding.
* `roundHalfEven_mono`: Rounding is monotone.
* `roundHalfEven_eq_iff`: What a number rounds to, without the case split.
-/

namespace MmrEngine

/-- Python's float arithmetic as far as scores need it: `float(x)` of an exact
    value, and `round(x, 4)`. -/
class ScoreArith (F : Type) [LinearOrder F] [Add F] [Sub F] [Mul F] [Div F] where
  ofRat : ℚ → F
  round4 : F → F
  sub_le_sub : ∀ a x y : F, x ≤ y → a - y ≤ a - x
  round4_mono : ∀ x y : F, x ≤ y → round4 x ≤ round4 y
  round4_decimal : ∀ n : ℤ, round4 (ofRat (n / 10000)) = ofRat (n / 10000)

/-- Rounding to the nearest integer, a tie going to the even neighbour. -/
def roundHalfEven (x : ℚ) : ℤ :=
  if x - ⌊x⌋ < 1 / 2 then ⌊x⌋
  else if 1 / 2 < x - ⌊x⌋ then ⌊x⌋ + 1
  else if ⌊x⌋ % 2 = 0 then ⌊x⌋ else ⌊x⌋ + 1

theorem roundHalfEven_intCast (n : ℤ) : roundHalfEven n = n := by
  unfold roundHalfEven
  rw [Int.floor_intCast, sub_self, if_pos (by norm_num)]

theorem floor_le_roundHalfEven (x : ℚ) : ⌊x⌋ ≤ roundHalfEven x := by
  unfold roundHalfEven
  split_ifs <;> omega

theorem roundHalfEven_le_floor_add_one (x : ℚ) : roundHalfEven x ≤ ⌊x⌋ + 1 := by
  unfold roundHalfEven
  split_ifs <;> omega

/-- Rounding moves a number by half a unit at most. -/
theorem abs_roundHalfEven_sub_le (x : ℚ) : |(roundHalfEven x : ℚ) - x| ≤ 1 / 2 := by
  have hlow := Int.floor_le x
  have hhigh := Int.lt_floor_add_one x
  unfold roundHalfEven
  rw [abs_le]
  split_ifs
  · constructor <;> linarith
  · push_cast
    constructor <;> linarith
  · constructor <;> linarith
  · push_cast
    constructor <;> linarith

theorem roundHalfEven_near (x : ℚ) : |x - roundHalfEven x| < 1 / 2 ∨
    (|x - roundHalfEven x| = 1 / 2 ∧ Even (roundHalfEven x)) := by
  have hlow := Int.floor_le x
  have hhigh := Int.lt_floor_add_one x
  unfold roundHalfEven
  split_ifs with hdown hup heven
  · left
    rw [abs_lt]
    constructor <;> linarith
  · left
    push_cast
    rw [abs_lt]
    constructor <;> linarith
  · right
    have htie : x - ⌊x⌋ = 1 / 2 := le_antisymm (not_lt.mp hup) (not_lt.mp hdown)
    rw [htie, Int.even_iff]
    exact ⟨by norm_num, heven⟩
  · right
    have htie : x - ⌊x⌋ = 1 / 2 := le_antisymm (not_lt.mp hup) (not_lt.mp hdown)
    have hrest : x - (⌊x⌋ + 1 : ℤ) = -(1 / 2) := by
      push_cast
      linarith
    rw [hrest, Int.even_iff]
    exact ⟨by norm_num, by omega⟩

/-- The rounding of a number is the integer that is nearer than half a unit, or
    half a unit away and even. -/
theorem roundHalfEven_eq_iff (x : ℚ) (n : ℤ) : roundHalfEven x = n ↔
    |x - n| < 1 / 2 ∨ (|x - n| = 1 / 2 ∧ Even n) := by
  constructor
  · rintro rfl
    exact roundHalfEven_near x
  · intro hn
    have hr := roundHalfEven_near x
    -- The two are one unit apart at most, and not one unit as both would be even.
    have hdist : |((roundHalfEven x - n : ℤ) : ℚ)| ≤ |x - n| + |x - roundHalfEven x| := by
      have hsub : ((roundHalfEven x - n : ℤ) : ℚ) = (x - n) - (x - roundHalfEven x) := by
        push_cast
        ring
      rw [hsub]
      exact abs_sub _ _
    have hone : |((roundHalfEven x - n : ℤ) : ℚ)| < 1 ∨
        (|((roundHalfEven x - n : ℤ) : ℚ)| ≤ 1 ∧ Even (roundHalfEven x) ∧ Even n) := by
      rcases hn with hn | ⟨hn, hneven⟩
      · left
        rcases hr with hr | ⟨hr, -⟩ <;> linarith
      · rcases hr with hr | ⟨hr, hreven⟩
        · left
          linarith
        · right
          exact ⟨by linarith, hreven, hneven⟩
    rw [← Int.cast_abs] at hone
    rcases hone with hlt | ⟨hle, hreven, hneven⟩
    · have hlt' : |roundHalfEven x - n| < 1 := by exact_mod_cast hlt
      have hzero := Int.abs_lt_one_iff.mp hlt'
      omega
    · have hle' : |roundHalfEven x - n| ≤ 1 := by exact_mod_cast hle
      rw [Int.even_iff] at hreven hneven
      rw [abs_le] at hle'
      omega

theorem roundHalfEven_mono {x y : ℚ} (h : x ≤ y) : roundHalfEven x ≤ roundHalfEven y := by
  have hfloor : ⌊x⌋ ≤ ⌊y⌋ := Int.floor_mono h
  by_cases heq : ⌊x⌋ = ⌊y⌋
  · -- In one unit interval the fractional parts decide.
    have hfract : x - ⌊y⌋ ≤ y - ⌊y⌋ := by linarith
    unfold roundHalfEven
    rw [heq]
    by_cases h1 : y - ⌊y⌋ < 1 / 2
    · rw [if_pos h1, if_pos (lt_of_le_of_lt hfract h1)]
    by_cases h2 : 1 / 2 < y - ⌊y⌋
    · rw [if_neg h1, if_pos h2]
      split_ifs <;> omega
    · have h3 : ¬ 1 / 2 < x - ⌊y⌋ := fun hx => h2 (lt_of_lt_of_le hx hfract)
      rw [if_neg h1, if_neg h2, if_neg h3]
      split_ifs <;> omega
  · have hx := roundHalfEven_le_floor_add_one x
    have hy := floor_le_roundHalfEven y
    omega

/-- Exact arithmetic. -/
instance : ScoreArith ℚ where
  ofRat x := x
  round4 x := roundHalfEven (x * 10000) / 10000
  sub_le_sub a x y h := by linarith
  round4_mono x y h := by
    have hround : roundHalfEven (x * 10000) ≤ roundHalfEven (y * 10000) :=
      roundHalfEven_mono (by linarith)
    have hcast : (roundHalfEven (x * 10000) : ℚ) ≤ roundHalfEven (y * 10000) := by
      exact_mod_cast hround
    linarith
  round4_decimal n := by
    have hn : (n / 10000 : ℚ) * 10000 = n := by ring
    rw [hn, roundHalfEven_intCast]

@[simp] theorem ofRat_rat (x : ℚ) : (ScoreArith.ofRat x : ℚ) = x := rfl

end MmrEngine
