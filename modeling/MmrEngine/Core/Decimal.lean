import MmrEngine.Core.Score
import Mathlib.Algebra.Order.Field.Power
import Mathlib.Data.Int.Log
import Mathlib.Tactic.NormNum
import Mathlib.Tactic.Positivity

/-!
# Decimal Arithmetic

Division and `quantize` of Python's `Decimal` in its default context: 28
significant digits, ties to even, exponents up to 999999.

A `Decimal` out of its constructor is exact, whatever its length; only the
results of operations are rounded. A result too large for the context raises
`decimal.Overflow`, a `quantize` whose result would need more than 28 digits
raises `decimal.InvalidOperation`, and a result too small is rounded towards
zero without an exception. Values are rationals here. Which of the equal
representations of a value Python would print is not modelled.

Both exceptions are about the magnitude of a rounded value, and rounding moves
a value across a power of ten only from half a unit below it
(`le_roundedMagnitude_iff`). So each has an exact threshold.

## Main definitions

* `roundedMagnitude`: A magnitude to 28 significant digits.
* `divide`: `a / b`.
* `quantizeMicro`: `x.quantize(Decimal("0.000001"))`.

## Theorems

* `le_roundHalfEven_iff`: What rounds up to an even integer.
* `le_roundedMagnitude_iff`: What rounds up to a power of ten.
* `divide_overflows_iff`: When a division raises.
* `conversion_fails_iff`: When a division followed by `quantize` does.
* `divide_exact`, `toMillionths_error`: What the results are, and how far off.
-/

namespace MmrEngine

namespace Decimal

/-- The exceptions of the `decimal` module that the default context raises. -/
inductive DecimalError where
  | overflow
  | invalidOperation
  deriving DecidableEq, Repr

/-- The exponent of the last place a subnormal result can have. -/
def etiny : ℤ := -1000026

/-- The exponent of the last of 28 significant digits of a magnitude. -/
def lastPlace (a : ℚ) : ℤ := max (Int.log 10 a - 27) etiny

/-- A magnitude rounded to 28 significant digits, ties to even. -/
def roundedMagnitude (a : ℚ) : ℚ := roundHalfEven (a / 10 ^ lastPlace a) * 10 ^ lastPlace a

/-- The result of an operation in the default context, given its exact value. -/
def inContext (x : ℚ) : Except DecimalError ℚ :=
  if 10 ^ (1000000 : ℤ) ≤ roundedMagnitude |x| then .error .overflow
  else .ok (if x < 0 then -roundedMagnitude |x| else roundedMagnitude |x|)

/-- `a / b`, for a divisor that is not zero. -/
def divide (a b : ℚ) : Except DecimalError ℚ := inContext (a / b)

/-- `x.quantize(Decimal("0.000001"))`. -/
def quantizeMicro (x : ℚ) : Except DecimalError ℚ :=
  if 10 ^ 28 ≤ roundHalfEven (|x| * 10 ^ 6) then .error .invalidOperation
  else .ok (if x < 0 then -(roundHalfEven (|x| * 10 ^ 6) / 10 ^ 6)
    else roundHalfEven (|x| * 10 ^ 6) / 10 ^ 6)

/-- Half a unit below an even integer is where rounding up to it starts. -/
theorem le_roundHalfEven_iff {n : ℤ} (heven : n % 2 = 0) (x : ℚ) :
    n ≤ roundHalfEven x ↔ (n : ℚ) - 1 / 2 ≤ x := by
  constructor
  · intro h
    by_contra hlt
    have hfloor : ⌊x⌋ < n := by
      rw [Int.floor_lt]
      linarith
    have hup := roundHalfEven_le_floor_add_one x
    -- Only from the unit below could it get there, and there it is below a half.
    have hunit : ⌊x⌋ = n - 1 := by omega
    have hdown : roundHalfEven x = ⌊x⌋ := by
      unfold roundHalfEven
      rw [if_pos]
      rw [hunit]
      push_cast
      linarith
    omega
  · intro h
    have htie : roundHalfEven ((n : ℚ) - 1 / 2) = n := by
      have hfloor : ⌊(n : ℚ) - 1 / 2⌋ = n - 1 := by
        rw [Int.floor_eq_iff]
        push_cast
        constructor <;> linarith
      unfold roundHalfEven
      rw [hfloor, if_neg (by push_cast; linarith), if_neg (by push_cast; linarith),
        if_neg (by omega)]
      omega
    rw [← htie]
    exact roundHalfEven_mono h

/-- An integer bound survives rounding. -/
theorem le_roundHalfEven_of_le {n : ℤ} {x : ℚ} (h : (n : ℚ) ≤ x) : n ≤ roundHalfEven x := by
  rw [← roundHalfEven_intCast n]
  exact roundHalfEven_mono h

theorem roundHalfEven_le_of_le {n : ℤ} {x : ℚ} (h : x ≤ n) : roundHalfEven x ≤ n := by
  rw [← roundHalfEven_intCast n]
  exact roundHalfEven_mono h

theorem zpow_ten_pos (m : ℤ) : (0 : ℚ) < 10 ^ m := zpow_pos (by norm_num) m

theorem zpow_ten_add (m n : ℤ) : (10 : ℚ) ^ (m + n) = 10 ^ m * 10 ^ n :=
  zpow_add₀ (by norm_num) m n

theorem zpow_ten_le {m n : ℤ} (h : m ≤ n) : (10 : ℚ) ^ m ≤ 10 ^ n :=
  zpow_le_zpow_right₀ (by norm_num) h

theorem zpow_log_le {a : ℚ} (ha : 0 < a) : (10 : ℚ) ^ Int.log 10 a ≤ a := by
  exact_mod_cast Int.zpow_log_le_self (b := 10) (by norm_num) ha

theorem lt_zpow_log_succ (a : ℚ) : a < (10 : ℚ) ^ (Int.log 10 a + 1) := by
  exact_mod_cast Int.lt_zpow_succ_log_self (b := 10) (by norm_num) a

/-- A decimal that ends no later than the last place is a whole number of its
    units. -/
theorem units_of_lastPlace (n : ℤ) {j : ℤ} {a : ℚ} (hplace : lastPlace a ≤ j) :
    ∃ u : ℤ, (n : ℚ) * 10 ^ j = u * 10 ^ lastPlace a := by
  have hplaces : ((j - lastPlace a).toNat : ℤ) = j - lastPlace a := Int.toNat_of_nonneg (by omega)
  refine ⟨n * 10 ^ (j - lastPlace a).toNat, ?_⟩
  push_cast
  rw [← zpow_natCast, hplaces, mul_assoc, ← zpow_ten_add]
  congr 2
  ring

/-- A magnitude does not round past such a decimal above it. -/
theorem roundedMagnitude_le_of_le (n : ℤ) {j : ℤ} {a : ℚ} (hplace : lastPlace a ≤ j)
    (hle : a ≤ n * 10 ^ j) : roundedMagnitude a ≤ n * 10 ^ j := by
  rcases units_of_lastPlace n hplace with ⟨u, hu⟩
  rw [hu] at hle ⊢
  have hround : roundHalfEven (a / 10 ^ lastPlace a) ≤ u := by
    refine roundHalfEven_le_of_le ?_
    rw [div_le_iff₀ (zpow_ten_pos _)]
    exact hle
  exact mul_le_mul_of_nonneg_right (by exact_mod_cast hround) (zpow_ten_pos _).le

/-- Nor down to one that is a unit of the last place below it. -/
theorem lt_roundedMagnitude_of_gap (n : ℤ) {j : ℤ} {a : ℚ} (hplace : lastPlace a ≤ j)
    (hgap : n * 10 ^ j + 10 ^ lastPlace a ≤ a) : n * 10 ^ j < roundedMagnitude a := by
  rcases units_of_lastPlace n hplace with ⟨u, hu⟩
  rw [hu] at hgap ⊢
  have hround : u + 1 ≤ roundHalfEven (a / 10 ^ lastPlace a) := by
    refine le_roundHalfEven_of_le ?_
    rw [le_div_iff₀ (zpow_ten_pos _)]
    push_cast
    linarith
  have hlt : (u : ℚ) < roundHalfEven (a / 10 ^ lastPlace a) := by
    exact_mod_cast (by omega : u < roundHalfEven (a / 10 ^ lastPlace a))
  exact mul_lt_mul_of_pos_right hlt (zpow_ten_pos _)

/-- A decimal that fits is its own rounding. -/
theorem roundedMagnitude_of_units (n : ℤ) {j : ℤ} {a : ℚ} (ha : a = n * 10 ^ j)
    (hplace : lastPlace a ≤ j) : roundedMagnitude a = a := by
  rcases units_of_lastPlace n hplace with ⟨u, hu⟩
  have hunits : a / 10 ^ lastPlace a = u := by
    rw [div_eq_iff (zpow_ten_pos _).ne', ← hu]
    exact ha
  rw [roundedMagnitude, hunits, roundHalfEven_intCast, ← hu]
  exact ha.symm

/-- Half a unit of the last place is the error of a rounding. -/
theorem abs_roundedMagnitude_sub_le (a : ℚ) :
    |roundedMagnitude a - a| ≤ 10 ^ lastPlace a / 2 := by
  have hunit := zpow_ten_pos (lastPlace a)
  have herror := abs_roundHalfEven_sub_le (a / 10 ^ lastPlace a)
  have hscaled : roundedMagnitude a - a
      = (roundHalfEven (a / 10 ^ lastPlace a) - a / 10 ^ lastPlace a) * 10 ^ lastPlace a := by
    rw [sub_mul, div_mul_cancel₀ _ hunit.ne']
    rfl
  rw [hscaled, abs_mul, abs_of_pos hunit]
  calc _ ≤ 1 / 2 * (10 : ℚ) ^ lastPlace a := mul_le_mul_of_nonneg_right herror hunit.le
    _ = 10 ^ lastPlace a / 2 := by ring

/-- The last place of what is below a power of ten. -/
theorem lastPlace_le {m : ℤ} (hm : etiny ≤ m - 27) {a : ℚ} (ha : 0 < a) (hlt : a < 10 ^ (m + 1)) :
    lastPlace a ≤ m - 27 := by
  have hlog : Int.log 10 a ≤ m := by
    by_contra hc
    exact absurd hlt (not_lt.mpr ((zpow_ten_le (by omega)).trans (zpow_log_le ha)))
  unfold lastPlace
  omega

/-- A magnitude below a power of ten does not round past it. -/
theorem roundedMagnitude_le {m : ℤ} (hm : etiny ≤ m) {a : ℚ} (ha : 0 < a) (hle : a < 10 ^ m) :
    roundedMagnitude a ≤ 10 ^ m := by
  have hlog : Int.log 10 a < m := by
    by_contra hc
    exact absurd hle (not_lt.mpr ((zpow_ten_le (not_lt.mp hc)).trans (zpow_log_le ha)))
  have hplace : lastPlace a ≤ m := by
    unfold lastPlace
    omega
  have hone := roundedMagnitude_le_of_le 1 hplace (by simpa using hle.le)
  simpa using hone

/-- A magnitude does not round below its leading digit. -/
theorem zpow_log_le_roundedMagnitude {a : ℚ} (ha : 0 < a) (hnormal : etiny ≤ Int.log 10 a - 27) :
    (10 : ℚ) ^ Int.log 10 a ≤ roundedMagnitude a := by
  have hq : lastPlace a = Int.log 10 a - 27 := by
    unfold lastPlace
    omega
  have hlead : (10 : ℚ) ^ 27 * 10 ^ lastPlace a = 10 ^ Int.log 10 a := by
    rw [show ((10 : ℚ) ^ 27) = 10 ^ (27 : ℤ) by norm_num, ← zpow_ten_add, hq]
    congr 1
    ring
  have hround : (10 : ℤ) ^ 27 ≤ roundHalfEven (a / 10 ^ lastPlace a) := by
    refine le_roundHalfEven_of_le ?_
    have hcast : (((10 : ℤ) ^ 27 : ℤ) : ℚ) = 10 ^ 27 := by norm_num
    rw [le_div_iff₀ (zpow_ten_pos _), hcast, hlead]
    exact zpow_log_le ha
  calc (10 : ℚ) ^ Int.log 10 a = 10 ^ 27 * 10 ^ lastPlace a := hlead.symm
    _ ≤ roundHalfEven (a / 10 ^ lastPlace a) * 10 ^ lastPlace a := by
        refine mul_le_mul_of_nonneg_right ?_ (zpow_ten_pos _).le
        exact_mod_cast hround

/-- A magnitude rounds up to a power of ten exactly from half a unit of its last
    place below it. -/
theorem le_roundedMagnitude_iff {m : ℤ} (hm : etiny ≤ m - 27) {a : ℚ} (ha : 0 < a) :
    10 ^ (m + 1) ≤ roundedMagnitude a ↔ ((10 : ℚ) ^ 28 - 1 / 2) * 10 ^ (m - 27) ≤ a := by
  have htop : (10 : ℚ) ^ (m + 1) = 10 ^ 28 * 10 ^ (m - 27) := by
    rw [show m + 1 = 28 + (m - 27) by ring, zpow_ten_add]
    norm_num
  have hmid : (10 : ℚ) ^ m = 10 ^ 27 * 10 ^ (m - 27) := by
    rw [show m = 27 + (m - 27) by ring, zpow_ten_add]
    norm_num
  have hunit := zpow_ten_pos (m - 27)
  rcases lt_trichotomy (Int.log 10 a) m with hlt | heq | hgt
  · -- Below `10 ^ m` there is a whole digit to go.
    have ha' : a < 10 ^ m := lt_of_lt_of_le (lt_zpow_log_succ a) (zpow_ten_le (by omega))
    have hvalue := roundedMagnitude_le (by unfold etiny at *; omega) ha ha'
    rw [hmid] at ha' hvalue
    rw [htop]
    constructor <;> intro h <;> nlinarith
  · -- The last place is the one the statement speaks of.
    have hq : lastPlace a = m - 27 := by
      unfold lastPlace
      omega
    have heven : ((10 : ℤ) ^ 28) % 2 = 0 := by norm_num
    have hcast : (((10 : ℤ) ^ 28 : ℤ) : ℚ) = 10 ^ 28 := by norm_num
    have hiff := le_roundHalfEven_iff heven (a / 10 ^ (m - 27))
    rw [hcast] at hiff
    unfold roundedMagnitude
    rw [hq, htop, mul_le_mul_iff_left₀ hunit, ← le_div_iff₀ hunit, ← hiff, ← hcast, Int.cast_le]
  · -- From `10 ^ (m + 1)` on both sides hold.
    have hvalue := zpow_log_le_roundedMagnitude ha (by omega)
    have hpow : (10 : ℚ) ^ (m + 1) ≤ 10 ^ Int.log 10 a := zpow_ten_le (by omega)
    have hlow := zpow_log_le ha
    constructor
    · intro _
      rw [htop] at hpow
      nlinarith
    · intro _
      exact hpow.trans hvalue

/-- What a magnitude has to reach for an operation with it as the exact result to
    raise `Overflow`. -/
def overflowLimit : ℚ := (10 ^ 28 - 1 / 2) * 10 ^ (999972 : ℤ)

/-- What a quotient has to reach for its conversion to millionths to raise. -/
def conversionLimit : ℚ := (10 ^ 28 - 1 / 2) / 10 ^ 6

theorem overflowLimit_pos : 0 < overflowLimit :=
  mul_pos (by norm_num) (zpow_ten_pos _)

/-- A conversion raises long before a division does. -/
theorem limits_le : conversionLimit ≤ overflowLimit := by
  unfold conversionLimit overflowLimit
  rw [div_eq_mul_inv]
  refine mul_le_mul_of_nonneg_left ?_ (by norm_num)
  have hone : (1 : ℚ) ≤ 10 ^ (999972 : ℤ) := one_le_zpow₀ (by norm_num) (by norm_num)
  have hsmall : ((10 : ℚ) ^ 6)⁻¹ ≤ 1 := by norm_num
  exact hsmall.trans hone

theorem roundedMagnitude_nonneg {a : ℚ} (ha : 0 ≤ a) : 0 ≤ roundedMagnitude a := by
  refine mul_nonneg ?_ (zpow_ten_pos _).le
  have hround : (0 : ℤ) ≤ roundHalfEven (a / 10 ^ lastPlace a) :=
    le_roundHalfEven_of_le (by simpa using div_nonneg ha (zpow_ten_pos _).le)
  exact_mod_cast hround

theorem roundedMagnitude_zero : roundedMagnitude 0 = 0 := by
  have hround : roundHalfEven 0 = 0 := by exact_mod_cast roundHalfEven_intCast 0
  simp [roundedMagnitude, hround]

/-- `Overflow` is raised exactly from the limit on. -/
theorem divide_overflows_iff (a b : ℚ) :
    divide a b = .error .overflow ↔ overflowLimit ≤ |a / b| := by
  unfold divide inContext
  rcases eq_or_lt_of_le (abs_nonneg (a / b)) with hzero | hpos
  · rw [← hzero, roundedMagnitude_zero, if_neg (not_le.mpr (zpow_ten_pos _))]
    simp [overflowLimit_pos]
  · have hiff := le_roundedMagnitude_iff (m := 999999) (by unfold etiny; omega) hpos
    rw [show (999999 : ℤ) + 1 = 1000000 by norm_num,
      show (999999 : ℤ) - 27 = 999972 by norm_num] at hiff
    by_cases h : 10 ^ (1000000 : ℤ) ≤ roundedMagnitude |a / b|
    · rw [if_pos h]
      exact ⟨fun _ => hiff.mp h, fun _ => rfl⟩
    · rw [if_neg h]
      exact ⟨fun hc => absurd hc (by simp), fun hc => absurd (hiff.mpr hc) h⟩

/-- A division raises nothing else, and keeps the sign of the quotient. -/
theorem divide_cases (a b : ℚ) :
    divide a b = .error .overflow ∨
      ∃ x, divide a b = .ok x ∧ |x| = roundedMagnitude |a / b| := by
  unfold divide inContext
  by_cases h : 10 ^ (1000000 : ℤ) ≤ roundedMagnitude |a / b|
  · rw [if_pos h]
    exact Or.inl rfl
  · rw [if_neg h]
    have hnonneg := roundedMagnitude_nonneg (abs_nonneg (a / b))
    refine Or.inr ⟨_, rfl, ?_⟩
    split_ifs
    · rw [abs_neg, abs_of_nonneg hnonneg]
    · rw [abs_of_nonneg hnonneg]

theorem divide_of_nonneg {a b : ℚ} (hnonneg : 0 ≤ a / b) (hlimit : a / b < overflowLimit) :
    divide a b = .ok (roundedMagnitude (a / b)) := by
  have hfits : ¬ overflowLimit ≤ |a / b| := by
    rw [abs_of_nonneg hnonneg]
    exact not_le.mpr hlimit
  rcases divide_cases a b with hover | ⟨x, hx, -⟩
  · exact absurd ((divide_overflows_iff a b).mp hover) hfits
  · rw [divide, inContext] at hx ⊢
    split at hx
    · cases hx
    · rw [if_neg (not_lt.mpr hnonneg), abs_of_nonneg hnonneg] at *
      next hsmall => rw [if_neg hsmall]

/-- A quotient that fits is what the division returns. -/
theorem divide_exact {a b x : ℚ} (h : divide a b = .ok x)
    (hfits : roundedMagnitude |a / b| = |a / b|) : x = a / b := by
  unfold divide inContext at h
  split at h
  · cases h
  · rw [← Except.ok.inj h, hfits]
    split
    · next hneg => rw [abs_of_neg hneg, neg_neg]
    · next hnonneg => exact abs_of_nonneg (not_lt.mp hnonneg)

/-- A magnitude whose millionths round up to 29 digits is one that rounds up to
    the power of ten. -/
theorem millionths_iff {a : ℚ} (ha : 0 < a) :
    (10 : ℤ) ^ 28 ≤ roundHalfEven (roundedMagnitude a * 10 ^ 6) ↔ conversionLimit ≤ a := by
  have hlimit : ((10 : ℚ) ^ 28 - 1 / 2) * 10 ^ ((21 : ℤ) - 27) = conversionLimit := by
    unfold conversionLimit
    norm_num
  have hiff := le_roundedMagnitude_iff (m := 21) (by unfold etiny; omega) ha
  rw [hlimit, show (21 : ℤ) + 1 = 22 by norm_num] at hiff
  rw [← hiff]
  constructor
  · intro h
    by_contra hlt
    have hlt' : roundedMagnitude a < 10 ^ (22 : ℤ) := not_le.mp hlt
    have hlog : Int.log 10 a < 22 := by
      by_contra hc
      have hlead := zpow_log_le_roundedMagnitude ha (by unfold etiny; omega)
      exact hlt ((zpow_ten_le (not_lt.mp hc)).trans hlead)
    by_cases hunit : Int.log 10 a = 21
    · -- The last place is the millionth, so the millionths are whole already.
      have hq : lastPlace a = -6 := by
        unfold lastPlace etiny
        omega
      have hwhole : roundedMagnitude a * 10 ^ 6
          = ((roundHalfEven (a / 10 ^ lastPlace a) : ℤ) : ℚ) := by
        rw [roundedMagnitude, mul_assoc, hq]
        norm_num
      rw [hwhole, roundHalfEven_intCast] at h
      have hcast : ((10 : ℚ) ^ 28) ≤ ((roundHalfEven (a / 10 ^ lastPlace a) : ℤ) : ℚ) := by
        exact_mod_cast h
      rw [← hwhole] at hcast
      norm_num at hlt'
      linarith
    · have hsmall : a < 10 ^ (21 : ℤ) :=
        lt_of_lt_of_le (lt_zpow_log_succ a) (zpow_ten_le (by omega))
      have hle := roundedMagnitude_le (by unfold etiny; omega) ha hsmall
      have hround : roundHalfEven (roundedMagnitude a * 10 ^ 6) ≤ 10 ^ 27 := by
        refine roundHalfEven_le_of_le ?_
        push_cast
        norm_num at hle
        linarith
      omega
  · intro h
    refine le_roundHalfEven_of_le ?_
    push_cast
    norm_num at h
    linarith

/-- Dividing and then quantizing to millionths. -/
def toMillionths (a b : ℚ) : Except DecimalError ℚ := do
  let quotient ← divide a b
  quantizeMicro quotient

/-- The conversion raises exactly where the quotient, rounded to millionths,
    would have more than 28 digits. -/
theorem conversion_fails_iff (a b : ℚ) :
    (∃ e, toMillionths a b = .error e) ↔ conversionLimit ≤ |a / b| := by
  unfold toMillionths
  rcases divide_cases a b with hover | ⟨x, hx, habs⟩
  · rw [hover]
    exact ⟨fun _ => limits_le.trans ((divide_overflows_iff a b).mp hover), fun _ => ⟨_, rfl⟩⟩
  · rw [hx]
    have hbind : (Except.ok x >>= quantizeMicro : Except DecimalError ℚ) = quantizeMicro x := rfl
    rw [hbind, quantizeMicro, habs]
    rcases eq_or_lt_of_le (abs_nonneg (a / b)) with hzero | hpos
    · rw [← hzero, roundedMagnitude_zero, zero_mul]
      have hround : roundHalfEven 0 = 0 := by exact_mod_cast roundHalfEven_intCast 0
      have hlimit : (0 : ℚ) < conversionLimit := by
        unfold conversionLimit
        norm_num
      rw [hround, if_neg (by norm_num)]
      simp [hlimit]
    · rw [← millionths_iff hpos]
      by_cases h : (10 : ℤ) ^ 28 ≤ roundHalfEven (roundedMagnitude |a / b| * 10 ^ 6)
      · rw [if_pos h]
        exact ⟨fun _ => h, fun _ => ⟨_, rfl⟩⟩
      · rw [if_neg h]
        exact ⟨fun ⟨_, hc⟩ => absurd hc (by simp), fun hc => absurd hc h⟩

/-- Half a millionth is the error of quantizing. -/
theorem quantizeMicro_error {y x : ℚ} (hy : 0 ≤ y) (h : quantizeMicro y = .ok x) :
    |x - y| ≤ 1 / 10 ^ 6 / 2 := by
  unfold quantizeMicro at h
  split at h
  · cases h
  · rw [if_neg (not_lt.mpr hy), abs_of_nonneg hy] at h
    have herror := abs_roundHalfEven_sub_le (y * 10 ^ 6)
    rw [abs_le] at herror ⊢
    rw [← Except.ok.inj h]
    constructor <;> linarith

/-- The two roundings of a conversion move it by a millionth at most. -/
theorem toMillionths_error {a b x : ℚ} (hpos : 0 < a / b) (h : toMillionths a b = .ok x) :
    |x - a / b| ≤ 1 / 10 ^ 6 := by
  have hfits : ¬ conversionLimit ≤ |a / b| := by
    rw [← conversion_fails_iff, h]
    rintro ⟨e, he⟩
    cases he
  rw [not_le, abs_of_pos hpos] at hfits
  -- So the last of the 28 digits is a millionth or less.
  have hbound : a / b < 10 ^ ((21 : ℤ) + 1) := by
    unfold conversionLimit at hfits
    norm_num at hfits ⊢
    linarith
  have hplace := lastPlace_le (by unfold etiny; omega) hpos hbound
  have hunit : (10 : ℚ) ^ lastPlace (a / b) ≤ 1 / 10 ^ 6 := by
    have hle := zpow_ten_le hplace
    norm_num at hle ⊢
    linarith
  have hfirst := abs_roundedMagnitude_sub_le (a / b)
  have hquotient := divide_of_nonneg hpos.le (lt_of_lt_of_le hfits limits_le)
  have hquantized : quantizeMicro (roundedMagnitude (a / b)) = .ok x := by
    rw [toMillionths, hquotient] at h
    exact h
  have hsecond := quantizeMicro_error (roundedMagnitude_nonneg hpos.le) hquantized
  calc |x - a / b| ≤ |x - roundedMagnitude (a / b)| + |roundedMagnitude (a / b) - a / b| :=
        abs_sub_le _ _ _
    _ ≤ 1 / 10 ^ 6 := by linarith

end Decimal

end MmrEngine
