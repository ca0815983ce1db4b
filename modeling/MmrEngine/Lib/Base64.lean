import Mathlib.Data.List.Basic

/-!
# Base64

Bytes as printable text, and back.

Three bytes are four digits of six bits each. One or two bytes that are left
over are filled up with zero bits, and the text with `=`, so its length is
always a multiple of four and says nothing of the bytes but for its padding.

The reader goes by groups of four and takes padding only in the last one.

## Main definitions

* `digit`, `digitValue`: The digits.
* `encode`: Writing.
* `decode`: Reading.

## Theorems

* `decode_encode`: Reading what was written.
-/

namespace MmrEngine

namespace Base64

/-- `A` to `Z`, `a` to `z`, `0` to `9`, `+` and `/`. -/
def digit (n : Nat) : Char :=
  if n < 26 then Char.ofNat (65 + n)
  else if n < 52 then Char.ofNat (71 + n)
  else if n < 62 then Char.ofNat (n - 4)
  else if n = 62 then '+' else '/'

def digitValue (c : Char) : Option Nat :=
  if 'A' ≤ c ∧ c ≤ 'Z' then some (c.toNat - 65)
  else if 'a' ≤ c ∧ c ≤ 'z' then some (c.toNat - 71)
  else if '0' ≤ c ∧ c ≤ '9' then some (c.toNat + 4)
  else if c = '+' then some 62
  else if c = '/' then some 63
  else none

def encode : List UInt8 → List Char
  | a :: b :: c :: rest =>
    digit (a.toNat / 4) :: digit (a.toNat % 4 * 16 + b.toNat / 16) ::
      digit (b.toNat % 16 * 4 + c.toNat / 64) :: digit (c.toNat % 64) :: encode rest
  | [a, b] =>
    [digit (a.toNat / 4), digit (a.toNat % 4 * 16 + b.toNat / 16), digit (b.toNat % 16 * 4), '=']
  | [a] => [digit (a.toNat / 4), digit (a.toNat % 4 * 16), '=', '=']
  | [] => []

/-- The three bytes of four digits. -/
def firstByte (x y : Nat) : UInt8 := UInt8.ofNat (x * 4 + y / 16)

def secondByte (y z : Nat) : UInt8 := UInt8.ofNat (y % 16 * 16 + z / 4)

def thirdByte (z w : Nat) : UInt8 := UInt8.ofNat (z % 4 * 64 + w)

def decode : List Char → Option (List UInt8)
  | [] => some []
  | [a, b, '=', '='] => do
    let x ← digitValue a
    let y ← digitValue b
    return [firstByte x y]
  | [a, b, c, '='] => do
    let x ← digitValue a
    let y ← digitValue b
    let z ← digitValue c
    return [firstByte x y, secondByte y z]
  | a :: b :: c :: d :: rest => do
    let x ← digitValue a
    let y ← digitValue b
    let z ← digitValue c
    let w ← digitValue d
    let bytes ← decode rest
    return firstByte x y :: secondByte y z :: thirdByte z w :: bytes
  | _ => none

theorem digitValue_digit : ∀ n < 64, digitValue (digit n) = some n := by decide

theorem digit_ne_padding : ∀ n < 64, digit n ≠ '=' := by decide

theorem toNat_ofNat {n : Nat} {b : UInt8} (h : n = b.toNat) : UInt8.ofNat n = b := by
  rw [h, UInt8.ofNat_toNat]

theorem decode_encode (bytes : List UInt8) : decode (encode bytes) = some bytes := by
  fun_induction encode bytes with
  | case1 a b c rest ih =>
      have ha : a.toNat < 256 := a.toNat_lt
      have hb : b.toNat < 256 := b.toNat_lt
      have hc : c.toNat < 256 := c.toNat_lt
      have hlast := digit_ne_padding (c.toNat % 64) (by omega)
      rw [decode]
      · simp only [digitValue_digit _ (show a.toNat / 4 < 64 by omega),
          digitValue_digit _ (show a.toNat % 4 * 16 + b.toNat / 16 < 64 by omega),
          digitValue_digit _ (show b.toNat % 16 * 4 + c.toNat / 64 < 64 by omega),
          digitValue_digit _ (show c.toNat % 64 < 64 by omega), ih, Option.bind_eq_bind,
          Option.bind_some, Option.pure_def, firstByte, secondByte, thirdByte]
        rw [toNat_ofNat (b := a) (by omega), toNat_ofNat (b := b) (by omega),
          toNat_ofNat (b := c) (by omega)]
      -- A last digit is never taken for padding.
      · exact fun _ hpad _ => absurd hpad hlast
      · exact fun hpad _ => absurd hpad hlast
  | case2 a b =>
      have ha : a.toNat < 256 := a.toNat_lt
      have hb : b.toNat < 256 := b.toNat_lt
      have hthird := digit_ne_padding (b.toNat % 16 * 4) (by omega)
      rw [decode]
      · simp only [digitValue_digit _ (show a.toNat / 4 < 64 by omega),
          digitValue_digit _ (show a.toNat % 4 * 16 + b.toNat / 16 < 64 by omega),
          digitValue_digit _ (show b.toNat % 16 * 4 < 64 by omega), Option.bind_eq_bind,
          Option.bind_some, Option.pure_def, firstByte, secondByte]
        rw [toNat_ofNat (b := a) (by omega), toNat_ofNat (b := b) (by omega)]
      · exact fun hpad => absurd hpad hthird
  | case3 a =>
      have ha : a.toNat < 256 := a.toNat_lt
      simp only [decode, digitValue_digit _ (show a.toNat / 4 < 64 by omega),
        digitValue_digit _ (show a.toNat % 4 * 16 < 64 by omega), Option.bind_eq_bind,
        Option.bind_some, Option.pure_def, firstByte]
      rw [toNat_ofNat (b := a) (by omega)]
  | case4 => rfl

end Base64

end MmrEngine
