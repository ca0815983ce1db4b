import MmrEngine.Api.Reconciliation
import MmrEngine.Lib.Digits

/-!
# Amounts as Texts

How a `NUMERIC(20,6)` amount is written: by `str`, as the evidence of a
discrepancy has it, and by `money`, as the figures of the API have it.

The database hands out such an amount with all of its six decimals, and `str`
writes them all. `quantize` keeps the sign of an amount that it rounds to zero.

## Main definitions

* `Numeric`: An amount in millionths.
* `Numeric.str`: `str(value)`.
* `Numeric.money`: `money(value)`.

## Theorems

* `Numeric.abs_toRat`: The magnitude of an amount.
-/

namespace MmrEngine

namespace Reconciliation

open Digits

/-- A value of `NUMERIC(20, 6)`, in millionths. -/
structure Numeric where
  micros : ℤ
  precision : micros.natAbs < 10 ^ 20
  deriving DecidableEq

namespace Numeric

/-- The value. -/
def toRat (v : Numeric) : ℚ := v.micros / 10 ^ 6

/-- The sign of a text. -/
def sign (v : Numeric) : String := if v.micros < 0 then "-" else ""

/-- `str(value)`. -/
def str (v : Numeric) : String :=
  v.sign ++ String.ofList (Nat.toDigits 10 (v.micros.natAbs / 10 ^ 6)) ++ "." ++
    String.ofList (padded 6 (v.micros.natAbs % 10 ^ 6))

/-- The kobo `quantize` rounds a magnitude to. -/
def quantizedKobo (v : Numeric) : Nat := (roundHalfEven (|v.toRat| * 100)).toNat

/-- `str(Decimal(value).quantize(Decimal("0.01")))`. -/
def money (v : Numeric) : String :=
  v.sign ++ String.ofList (Nat.toDigits 10 (v.quantizedKobo / 100)) ++ "." ++
    String.ofList (padded 2 (v.quantizedKobo % 100))

theorem abs_toRat (v : Numeric) : |v.toRat| = (v.micros.natAbs : ℚ) / 10 ^ 6 := by
  rw [toRat, abs_div, abs_of_pos (by norm_num : (0 : ℚ) < 10 ^ 6), Nat.cast_natAbs, Int.cast_abs]

end Numeric

end Reconciliation

end MmrEngine
