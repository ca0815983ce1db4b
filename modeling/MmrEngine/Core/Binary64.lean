import MmrEngine.Core.Score
import Mathlib.Data.Int.Log
import Mathlib.Order.Lattice
import Mathlib.Tactic.Positivity

/-!
# Binary64

Python's floats: 53 bits times a power of two, with the subnormals below.

An operation on floats is the one on rationals, rounded to the nearest float, a
tie going to the even significand. There is no largest float here, so nothing
overflows, and there is one zero.

All that proofs need of rounding is that it does not cross a float: a float
below a number is below what the number rounds to (`le_round`), and the same
above (`round_le`). A float far smaller than the number is not on the grid the
number is rounded on, but then a power of two lies between them that is.

## Main definitions

* `spacing`, `round`: The grid around a number, and the float nearest to it.
* `IsFloat`: A number that is a float.
* `Binary64`: The floats, with their order and arithmetic.

## Theorems

* `le_round`, `round_le`: Rounding does not cross a float.
* `isFloat_round`, `round_of_isFloat`: What rounding returns, and what it keeps.
* `val_natCast`: Integers up to 53 bits are floats.
-/

namespace MmrEngine

namespace Binary64

/-- The distance of the floats around `x`. -/
def spacing (x : ℚ) : ℚ := 2 ^ max (Int.log 2 |x| - 52) (-1074)

/-- The float nearest to `x`, a tie going to the even significand. -/
def round (x : ℚ) : ℚ := roundHalfEven (x / spacing x) * spacing x

/-- At most 53 bits times a power of two. -/
def IsFloat (x : ℚ) : Prop := ∃ m e : ℤ, |m| ≤ 2 ^ 53 ∧ -1074 ≤ e ∧ x = m * 2 ^ e

theorem spacing_pos (x : ℚ) : 0 < spacing x := zpow_pos (by norm_num) _

/-- A point of the grid below `x` is below what `x` rounds to. -/
theorem multiple_le_round {x : ℚ} {n : ℤ} (h : n * spacing x ≤ x) : n * spacing x ≤ round x := by
  have hle : (n : ℚ) ≤ x / spacing x := (le_div_iff₀ (spacing_pos x)).mpr h
  have hround := roundHalfEven_mono hle
  rw [roundHalfEven_intCast] at hround
  exact mul_le_mul_of_nonneg_right (Int.cast_le.mpr hround) (spacing_pos x).le

theorem round_le_multiple {x : ℚ} {n : ℤ} (h : x ≤ n * spacing x) : round x ≤ n * spacing x := by
  have hle : x / spacing x ≤ n := (div_le_iff₀ (spacing_pos x)).mpr h
  have hround := roundHalfEven_mono hle
  rw [roundHalfEven_intCast] at hround
  exact mul_le_mul_of_nonneg_right (Int.cast_le.mpr hround) (spacing_pos x).le

/-- A power of two that is not finer than the grid is on it. -/
theorem multiple_of_le (m : ℤ) {x : ℚ} {e : ℤ} (h : max (Int.log 2 |x| - 52) (-1074) ≤ e) :
    ∃ n : ℤ, (m * 2 ^ e : ℚ) = n * spacing x := by
  refine ⟨m * 2 ^ (e - max (Int.log 2 |x| - 52) (-1074)).toNat, ?_⟩
  have hsplit : (2 : ℚ) ^ e = 2 ^ (e - max (Int.log 2 |x| - 52) (-1074)).toNat * spacing x := by
    rw [spacing, ← zpow_natCast, ← zpow_add₀ (by norm_num), Int.toNat_of_nonneg (by omega),
      sub_add_cancel]
  rw [hsplit]
  push_cast
  ring

/-- A float is on the grid around `x`, or smaller than the power of two below
    `x`. -/
theorem isFloat_cases {f x : ℚ} (hf : IsFloat f) :
    (∃ n : ℤ, f = n * spacing x) ∨ (|f| < 2 ^ Int.log 2 |x| ∧ -1074 ≤ Int.log 2 |x|) := by
  rcases hf with ⟨m, e, hm, he, rfl⟩
  by_cases hgrid : max (Int.log 2 |x| - 52) (-1074) ≤ e
  · exact Or.inl (multiple_of_le m hgrid)
  · have hlog : e + 53 ≤ Int.log 2 |x| := by omega
    have habs : |(m * 2 ^ e : ℚ)| = |(m : ℚ)| * 2 ^ e := by
      rw [abs_mul, abs_of_pos (zpow_pos (by norm_num : (0 : ℚ) < 2) e)]
    have hbits : |(m : ℚ)| ≤ 2 ^ 53 := by exact_mod_cast hm
    have htop : (2 : ℚ) ^ 53 * 2 ^ e = 2 ^ (e + 53) := by
      rw [zpow_add₀ (by norm_num), mul_comm]
      norm_cast
    by_cases hsmall : |(m * 2 ^ e : ℚ)| < 2 ^ Int.log 2 |x|
    · exact Or.inr ⟨hsmall, by omega⟩
    · -- All 53 bits and one more power of two: the significand is even.
      have hpow : (0 : ℚ) < 2 ^ e := zpow_pos (by norm_num) e
      have hle : (2 : ℚ) ^ (e + 53) ≤ |(m : ℚ)| * 2 ^ e := by
        rw [← habs]
        exact (zpow_le_zpow_right₀ (by norm_num) hlog).trans (not_lt.mp hsmall)
      have hfull : |m| = 2 ^ 53 := by
        refine le_antisymm hm ?_
        have hcast : (2 : ℚ) ^ 53 ≤ |(m : ℚ)| := by
          rw [← htop] at hle
          exact le_of_mul_le_mul_right hle hpow
        exact_mod_cast hcast
      have heq : Int.log 2 |x| = e + 53 := by
        have hge : (2 : ℚ) ^ Int.log 2 |x| ≤ 2 ^ (e + 53) := by
          refine (not_lt.mp hsmall).trans ?_
          rw [habs, ← htop]
          exact mul_le_mul_of_nonneg_right hbits hpow.le
        have hlog' := (zpow_le_zpow_iff_right₀ (by norm_num : (1 : ℚ) < 2)).mp hge
        omega
      have heven : ∃ n : ℤ, m = 2 * n := by
        rcases abs_choice m with habs' | habs'
        · exact ⟨2 ^ 52, by omega⟩
        · exact ⟨-2 ^ 52, by omega⟩
      rcases heven with ⟨n, rfl⟩
      have hdouble : ((2 * n : ℤ) * 2 ^ e : ℚ) = n * 2 ^ (e + 1) := by
        rw [zpow_add₀ (by norm_num), zpow_one]
        push_cast
        ring
      rw [hdouble]
      exact Or.inl (multiple_of_le n (by omega))

/-- The power of two below a number that is not subnormal is on the grid. -/
theorem power_multiple {x : ℚ} (h : -1074 ≤ Int.log 2 |x|) :
    ∃ n : ℤ, (2 : ℚ) ^ Int.log 2 |x| = n * spacing x := by
  rcases multiple_of_le 1 (x := x) (e := Int.log 2 |x|) (by omega) with ⟨n, hn⟩
  rw [Int.cast_one, one_mul] at hn
  exact ⟨n, hn⟩

/-- A float below `x` is below what `x` rounds to. -/
theorem le_round {f x : ℚ} (hf : IsFloat f) (h : f ≤ x) : f ≤ round x := by
  rcases isFloat_cases (x := x) hf with ⟨n, rfl⟩ | ⟨hsmall, hlog⟩
  · exact multiple_le_round h
  · rcases power_multiple hlog with ⟨n, hn⟩
    rcases lt_trichotomy x 0 with hneg | rfl | hpos
    · -- A number below a negative one is not the smaller of the two.
      have hpower := Int.zpow_log_le_self (b := 2) (by norm_num) (abs_pos.mpr hneg.ne)
      rw [abs_of_neg hneg] at hpower hsmall
      rw [abs_of_neg (h.trans_lt hneg)] at hsmall
      push_cast at hpower
      linarith
    · exact (multiple_le_round (x := 0) (n := 0) (by simp)).trans' (by simpa using h)
    · have hpower := Int.zpow_log_le_self (b := 2) (by norm_num) (abs_pos.mpr hpos.ne')
      rw [abs_of_pos hpos] at hpower
      have hbelow : (n : ℚ) * spacing x ≤ x := by
        rw [← hn, abs_of_pos hpos]
        exact_mod_cast hpower
      have hround := multiple_le_round hbelow
      rw [← hn] at hround
      exact ((le_abs_self f).trans hsmall.le).trans hround

/-- A float above `x` is above what `x` rounds to. -/
theorem round_le {f x : ℚ} (hf : IsFloat f) (h : x ≤ f) : round x ≤ f := by
  rcases isFloat_cases (x := x) hf with ⟨n, rfl⟩ | ⟨hsmall, hlog⟩
  · exact round_le_multiple h
  · rcases power_multiple hlog with ⟨n, hn⟩
    rcases lt_trichotomy x 0 with hneg | rfl | hpos
    · have hpower := Int.zpow_log_le_self (b := 2) (by norm_num) (abs_pos.mpr hneg.ne)
      rw [abs_of_neg hneg] at hpower
      have habove : x ≤ ((-n : ℤ) : ℚ) * spacing x := by
        rw [Int.cast_neg, neg_mul, ← hn, abs_of_neg hneg]
        push_cast at hpower
        linarith
      have hround := round_le_multiple habove
      rw [Int.cast_neg, neg_mul, ← hn] at hround
      have hlow := neg_abs_le f
      linarith
    · exact (round_le_multiple (x := 0) (n := 0) (by simp)).trans (by simpa using h)
    · have hpower := Int.zpow_log_le_self (b := 2) (by norm_num) (abs_pos.mpr hpos.ne')
      rw [abs_of_pos hpos] at hpower hsmall
      rw [abs_of_pos (hpos.trans_le h)] at hsmall
      push_cast at hpower
      linarith

/-- What is rounded is a float. -/
theorem isFloat_round (x : ℚ) : IsFloat (round x) := by
  refine ⟨roundHalfEven (x / spacing x), max (Int.log 2 |x| - 52) (-1074), ?_, by omega, rfl⟩
  have hbound : |x / spacing x| ≤ ((2 ^ 53 : ℤ) : ℚ) := by
    rw [abs_div, abs_of_pos (spacing_pos x), div_le_iff₀ (spacing_pos x)]
    have hlt := Int.lt_zpow_succ_log_self (b := 2) (by norm_num) |x|
    have hgrid : (2 : ℚ) ^ (Int.log 2 |x| + 1)
        ≤ 2 ^ ((53 : ℤ) + max (Int.log 2 |x| - 52) (-1074)) :=
      zpow_le_zpow_right₀ (by norm_num) (by omega)
    have hsplit : (2 : ℚ) ^ ((53 : ℤ) + max (Int.log 2 |x| - 52) (-1074))
        = ((2 ^ 53 : ℤ) : ℚ) * spacing x := by
      rw [zpow_add₀ (by norm_num), spacing]
      norm_cast
    rw [hsplit] at hgrid
    exact (le_of_lt (by exact_mod_cast hlt)).trans hgrid
  rw [abs_le] at hbound ⊢
  constructor
  · have h := roundHalfEven_mono hbound.1
    rw [← Int.cast_neg, roundHalfEven_intCast] at h
    exact h
  · have h := roundHalfEven_mono hbound.2
    rw [roundHalfEven_intCast] at h
    exact h

/-- A float is its own rounding. -/
theorem round_of_isFloat {f : ℚ} (hf : IsFloat f) : round f = f :=
  le_antisymm (round_le hf le_rfl) (le_round hf le_rfl)

/-- An integer of at most 53 bits, over a power of two. -/
theorem isFloat_div (m : ℤ) (e : Nat) (hm : |m| ≤ 2 ^ 53) (he : e ≤ 1074) :
    IsFloat (m / 2 ^ e) := by
  refine ⟨m, -(e : ℤ), hm, by omega, ?_⟩
  rw [zpow_neg, zpow_natCast, div_eq_mul_inv]

theorem isFloat_intCast (m : ℤ) (hm : |m| ≤ 2 ^ 53) : IsFloat m :=
  ⟨m, 0, hm, by norm_num, by rw [zpow_zero, mul_one]⟩

theorem isFloat_zero : IsFloat 0 := ⟨0, 0, by norm_num, by norm_num, by simp⟩

/-- Floats on a grid of `2 ^ -e` are that dense. -/
theorem floor_le_round {x : ℚ} (e : Nat) (he : e ≤ 1074) (hx : |⌊x * 2 ^ e⌋| ≤ 2 ^ 53) :
    x - 1 / 2 ^ e ≤ round x := by
  have hpow : (0 : ℚ) < 2 ^ e := by positivity
  have hbelow : (⌊x * 2 ^ e⌋ : ℚ) / 2 ^ e ≤ x := (div_le_iff₀ hpow).mpr (Int.floor_le _)
  have habove : x < ((⌊x * 2 ^ e⌋ : ℚ) + 1) / 2 ^ e :=
    (lt_div_iff₀ hpow).mpr (Int.lt_floor_add_one _)
  have hround := le_round (isFloat_div _ e hx he) hbelow
  rw [add_div] at habove
  linarith

end Binary64

/-- A Python float that is neither infinite nor a NaN. -/
@[ext] structure Binary64 where
  val : ℚ
  isFloat : Binary64.IsFloat val

namespace Binary64

/-- The float nearest to an exact value. -/
def ofRat (x : ℚ) : Binary64 := ⟨round x, isFloat_round x⟩

instance : LinearOrder Binary64 := LinearOrder.lift' val fun _ _ h => Binary64.ext h

instance : Zero Binary64 := ⟨ofRat 0⟩
instance : One Binary64 := ⟨ofRat 1⟩
instance : NatCast Binary64 := ⟨fun n => ofRat n⟩
instance : IntCast Binary64 := ⟨fun n => ofRat n⟩
instance : Neg Binary64 := ⟨fun x => ofRat (-x.val)⟩
instance : Add Binary64 := ⟨fun x y => ofRat (x.val + y.val)⟩
instance : Sub Binary64 := ⟨fun x y => ofRat (x.val - y.val)⟩
instance : Mul Binary64 := ⟨fun x y => ofRat (x.val * y.val)⟩
instance : Div Binary64 := ⟨fun x y => ofRat (x.val / y.val)⟩

theorem le_iff {x y : Binary64} : x ≤ y ↔ x.val ≤ y.val := Iff.rfl

theorem val_neg (x : Binary64) : (-x).val = round (-x.val) := rfl

theorem val_add (x y : Binary64) : (x + y).val = round (x.val + y.val) := rfl

theorem val_sub (x y : Binary64) : (x - y).val = round (x.val - y.val) := rfl

theorem val_mul (x y : Binary64) : (x * y).val = round (x.val * y.val) := rfl

theorem val_div (x y : Binary64) : (x / y).val = round (x.val / y.val) := rfl

@[simp] theorem val_natCast {n : Nat} (h : n ≤ 2 ^ 53) : ((n : Binary64)).val = n := by
  have habs : |(n : ℤ)| ≤ 2 ^ 53 := by
    rw [abs_of_nonneg (Int.natCast_nonneg n)]
    exact_mod_cast h
  exact round_of_isFloat (isFloat_intCast n habs)

@[simp] theorem val_zero : (0 : Binary64).val = 0 := by
  have h := val_natCast (n := 0) (by norm_num)
  rw [Nat.cast_zero] at h
  exact h

@[simp] theorem val_one : (1 : Binary64).val = 1 := by
  have h := val_natCast (n := 1) (by norm_num)
  rw [Nat.cast_one] at h
  exact h

@[simp] theorem val_ofNat (n : Nat) [n.AtLeastTwo] (h : n ≤ 2 ^ 53) :
    (OfNat.ofNat n : Binary64).val = n := val_natCast h

/-! ### Signs -/

theorem le_add {x y : Binary64} (h : 0 ≤ y) : x ≤ x + y := by
  rw [le_iff, val_zero] at h
  exact le_round x.isFloat (le_add_of_nonneg_right h)

theorem add_le {x y z : Binary64} (h : x.val + y.val ≤ z.val) : x + y ≤ z := round_le z.isFloat h

theorem le_add_left {x y : Binary64} (h : 0 ≤ x) : y ≤ x + y := by
  rw [le_iff, val_zero] at h
  exact le_round y.isFloat (le_add_of_nonneg_left h)

theorem nonneg_sub {x y : Binary64} (h : x ≤ y) : 0 ≤ y - x := by
  rw [le_iff, val_zero, val_sub]
  exact le_round isFloat_zero (sub_nonneg.mpr h)

theorem nonneg_mul {x y : Binary64} (hx : 0 ≤ x) (hy : 0 ≤ y) : 0 ≤ x * y := by
  rw [le_iff, val_zero] at hx hy ⊢
  rw [val_mul]
  exact le_round isFloat_zero (mul_nonneg hx hy)

theorem nonneg_div {x y : Binary64} (hx : 0 ≤ x) (hy : 0 ≤ y) : 0 ≤ x / y := by
  rw [le_iff, val_zero] at hx hy ⊢
  rw [val_div]
  exact le_round isFloat_zero (div_nonneg hx hy)

theorem natCast_le_natCast {m n : Nat} (hm : m ≤ 2 ^ 53) (h : m ≤ n) :
    (m : Binary64) ≤ (n : Binary64) := by
  rw [le_iff, val_natCast hm]
  refine le_round (isFloat_intCast m ?_) (by exact_mod_cast h)
  rw [abs_of_nonneg (Int.natCast_nonneg m)]
  exact_mod_cast hm

theorem nonneg_natCast (n : Nat) : (0 : Binary64) ≤ (n : Binary64) := by
  have h := natCast_le_natCast (m := 0) (n := n) (by norm_num) (Nat.zero_le n)
  rwa [le_iff, val_natCast (by norm_num), Nat.cast_zero, ← val_zero, ← le_iff] at h

end Binary64

end MmrEngine
