import Mathlib.Data.List.Basic
import Mathlib.Tactic.Ring

/-!
# UTF-8 with Replacement

Bytes read as UTF-8 where nothing is rejected: what is no character is read as
U+FFFD, once for each longest beginning of a character that is broken off.

The decoder goes byte by byte and keeps the character it is in: how many bytes
are missing, what it has so far, and between which bounds the next byte has to
be. The bounds rule out what could be written shorter, the surrogates, and what
is beyond the last character.

## Main definitions

* `Pending`: A character that is begun.
* `lead`: What a first byte begins, or is.
* `decode`: The decoder.

## Theorems

* `decode_utf8EncodeChar`, `decode_encode`: Reading what was written.
-/

namespace MmrEngine

namespace Utf8

/-- A character that is begun: the bytes that are missing, the bits so far, and
    the bounds of the next byte. -/
structure Pending where
  needed : Nat
  codePoint : Nat
  lower : Nat
  upper : Nat

/-- Any byte that continues a character. -/
def Pending.plain (needed codePoint : Nat) : Pending where
  needed := needed
  codePoint := codePoint
  lower := 0x80
  upper := 0xBF

/-- A first byte: a character of its own, the beginning of one, or neither. -/
def lead (b : Nat) : List Char × Option Pending :=
  if b < 0x80 then ([Char.ofNat b], none)
  else if b < 0xC2 then (['\uFFFD'], none)
  else if b < 0xE0 then ([], some (.plain 1 (b - 0xC0)))
  else if b < 0xF0 then
    ([], some
      { needed := 2
        codePoint := b - 0xE0
        lower := if b = 0xE0 then 0xA0 else 0x80
        upper := if b = 0xED then 0x9F else 0xBF })
  else if b < 0xF5 then
    ([], some
      { needed := 3
        codePoint := b - 0xF0
        lower := if b = 0xF0 then 0x90 else 0x80
        upper := if b = 0xF4 then 0x8F else 0xBF })
  else (['\uFFFD'], none)

/-- What is left when the bytes end. -/
def brokenOff : Option Pending → List Char
  | none => []
  | some _ => ['\uFFFD']

/-- The decoder, in the middle of a character or not. -/
def decodeFrom : Option Pending → List UInt8 → List Char
  | pending, [] => brokenOff pending
  | none, b :: rest => (lead b.toNat).1 ++ decodeFrom (lead b.toNat).2 rest
  | some p, b :: rest =>
    if p.lower ≤ b.toNat ∧ b.toNat ≤ p.upper then
      let codePoint := p.codePoint * 64 + b.toNat % 64
      if p.needed = 1 then Char.ofNat codePoint :: decodeFrom none rest
      else decodeFrom (some (.plain (p.needed - 1) codePoint)) rest
    else
      -- The byte is read again, as a first one.
      '\uFFFD' :: (lead b.toNat).1 ++ decodeFrom (lead b.toNat).2 rest

def decode (bytes : List UInt8) : List Char := decodeFrom none bytes

def encode (l : List Char) : List UInt8 := l.flatMap String.utf8EncodeChar

theorem decodeFrom_lead (b : UInt8) (rest : List UInt8) : decodeFrom none (b :: rest)
    = (lead b.toNat).1 ++ decodeFrom (lead b.toNat).2 rest := rfl

/-- The last byte of a character. -/
theorem decodeFrom_last {p : Pending} (hneeded : p.needed = 1) {b : UInt8}
    (hlower : p.lower ≤ b.toNat) (hupper : b.toNat ≤ p.upper) (rest : List UInt8) :
    decodeFrom (some p) (b :: rest)
      = Char.ofNat (p.codePoint * 64 + b.toNat % 64) :: decodeFrom none rest := by
  rw [decodeFrom, if_pos ⟨hlower, hupper⟩, if_pos hneeded]

/-- A byte that is not the last. -/
theorem decodeFrom_next {p : Pending} (hneeded : p.needed ≠ 1) {b : UInt8}
    (hlower : p.lower ≤ b.toNat) (hupper : b.toNat ≤ p.upper) (rest : List UInt8) :
    decodeFrom (some p) (b :: rest)
      = decodeFrom (some (.plain (p.needed - 1) (p.codePoint * 64 + b.toNat % 64))) rest := by
  rw [decodeFrom, if_pos ⟨hlower, hupper⟩, if_neg hneeded]

theorem toNat_byte {n : Nat} (h : n < 256) : (UInt8.ofNat n).toNat = n :=
  UInt8.toNat_ofNat_of_lt' h

theorem decode_one {c : Char} (h : c.toNat ≤ 0x7F) (rest : List UInt8) :
    decodeFrom none (UInt8.ofNat c.toNat :: rest) = c :: decodeFrom none rest := by
  rw [decodeFrom_lead, toNat_byte (by omega), lead, if_pos (by omega)]
  simp only [List.singleton_append, Char.ofNat_toNat]

theorem decode_two {c : Char} (hlow : 0x7F < c.toNat) (hhigh : c.toNat ≤ 0x7FF)
    (rest : List UInt8) :
    decodeFrom none (UInt8.ofNat (c.toNat / 64 % 0x20 + 0xC0) ::
      UInt8.ofNat (c.toNat % 0x40 + 0x80) :: rest) = c :: decodeFrom none rest := by
  rw [decodeFrom_lead, toNat_byte (by omega), lead, if_neg (by omega), if_neg (by omega),
    if_pos (by omega), List.nil_append]
  have hbyte : (UInt8.ofNat (c.toNat % 0x40 + 0x80)).toNat = c.toNat % 0x40 + 0x80 :=
    toNat_byte (by omega)
  rw [decodeFrom_last rfl (by rw [hbyte]; simp only [Pending.plain]; omega)
    (by rw [hbyte]; simp only [Pending.plain]; omega), hbyte]
  have hvalue : (Pending.plain 1 (c.toNat / 64 % 0x20 + 0xC0 - 0xC0)).codePoint * 64
      + (c.toNat % 0x40 + 0x80) % 64 = c.toNat := by
    simp only [Pending.plain]
    omega
  rw [hvalue, Char.ofNat_toNat]

theorem toNat_continuation (n : Nat) : (UInt8.ofNat (n % 0x40 + 0x80)).toNat = n % 0x40 + 0x80 :=
  toNat_byte (by omega)

/-- The second byte is within its bounds: the character is no shorter one and no
    surrogate. -/
theorem decode_three {c : Char} (hlow : 0x7FF < c.toNat) (hhigh : c.toNat ≤ 0xFFFF)
    (hscalar : c.toNat < 0xD800 ∨ 0xE000 ≤ c.toNat) (rest : List UInt8) :
    decodeFrom none (UInt8.ofNat (c.toNat / 4096 % 0x10 + 0xE0) ::
      UInt8.ofNat (c.toNat / 64 % 0x40 + 0x80) :: UInt8.ofNat (c.toNat % 0x40 + 0x80) :: rest)
      = c :: decodeFrom none rest := by
  rw [decodeFrom_lead, toNat_byte (by omega), lead, if_neg (by omega), if_neg (by omega),
    if_neg (by omega), if_pos (by omega), List.nil_append]
  have hlower : (if c.toNat / 4096 % 0x10 + 0xE0 = 0xE0 then 0xA0 else 0x80)
      ≤ c.toNat / 64 % 0x40 + 0x80 := by
    split
    · omega
    · omega
  have hupper : c.toNat / 64 % 0x40 + 0x80
      ≤ (if c.toNat / 4096 % 0x10 + 0xE0 = 0xED then 0x9F else 0xBF) := by
    split
    · omega
    · omega
  rw [decodeFrom_next (by simp) (by rw [toNat_continuation]; exact hlower)
    (by rw [toNat_continuation]; exact hupper), toNat_continuation]
  rw [decodeFrom_last rfl (by rw [toNat_continuation]; simp only [Pending.plain]; omega)
    (by rw [toNat_continuation]; simp only [Pending.plain]; omega), toNat_continuation]
  have hvalue : ((c.toNat / 4096 % 0x10 + 0xE0 - 0xE0) * 64
      + (c.toNat / 64 % 0x40 + 0x80) % 64) * 64 + (c.toNat % 0x40 + 0x80) % 64 = c.toNat := by
    omega
  simp only [Pending.plain, hvalue, Char.ofNat_toNat]

theorem decode_four {c : Char} (hlow : 0xFFFF < c.toNat) (hhigh : c.toNat < 0x110000)
    (rest : List UInt8) :
    decodeFrom none (UInt8.ofNat (c.toNat / 262144 % 0x08 + 0xF0) ::
      UInt8.ofNat (c.toNat / 4096 % 0x40 + 0x80) :: UInt8.ofNat (c.toNat / 64 % 0x40 + 0x80) ::
      UInt8.ofNat (c.toNat % 0x40 + 0x80) :: rest) = c :: decodeFrom none rest := by
  rw [decodeFrom_lead, toNat_byte (by omega), lead, if_neg (by omega), if_neg (by omega),
    if_neg (by omega), if_neg (by omega), if_pos (by omega), List.nil_append]
  -- The bounds of the second byte are those of the last sixteen planes.
  have hlower : (if c.toNat / 262144 % 0x08 + 0xF0 = 0xF0 then 0x90 else 0x80)
      ≤ c.toNat / 4096 % 0x40 + 0x80 := by
    split
    · omega
    · omega
  have hupper : c.toNat / 4096 % 0x40 + 0x80
      ≤ (if c.toNat / 262144 % 0x08 + 0xF0 = 0xF4 then 0x8F else 0xBF) := by
    split
    · omega
    · omega
  rw [decodeFrom_next (by simp) (by rw [toNat_continuation]; exact hlower)
    (by rw [toNat_continuation]; exact hupper), toNat_continuation]
  rw [decodeFrom_next (by simp [Pending.plain])
    (by rw [toNat_continuation]; simp only [Pending.plain]; omega)
    (by rw [toNat_continuation]; simp only [Pending.plain]; omega), toNat_continuation]
  rw [decodeFrom_last rfl (by rw [toNat_continuation]; simp only [Pending.plain]; omega)
    (by rw [toNat_continuation]; simp only [Pending.plain]; omega), toNat_continuation]
  have hvalue : (((c.toNat / 262144 % 0x08 + 0xF0 - 0xF0) * 64
      + (c.toNat / 4096 % 0x40 + 0x80) % 64) * 64 + (c.toNat / 64 % 0x40 + 0x80) % 64) * 64
      + (c.toNat % 0x40 + 0x80) % 64 = c.toNat := by omega
  simp only [Pending.plain, hvalue, Char.ofNat_toNat]

/-- A character, by the number of its bytes. -/
theorem decode_utf8EncodeChar (c : Char) (rest : List UInt8) :
    decodeFrom none (String.utf8EncodeChar c ++ rest) = c :: decodeFrom none rest := by
  have hscalar : c.toNat < 0xD800 ∨ (0xDFFF < c.toNat ∧ c.toNat < 0x110000) := c.valid
  have hval : c.val.toNat = c.toNat := rfl
  unfold String.utf8EncodeChar
  simp only [hval]
  by_cases hone : c.toNat ≤ 0x7F
  · rw [if_pos hone]
    exact decode_one hone rest
  · rw [if_neg hone]
    by_cases htwo : c.toNat ≤ 0x7FF
    · rw [if_pos htwo]
      exact decode_two (by omega) htwo rest
    · rw [if_neg htwo]
      by_cases hthree : c.toNat ≤ 0xFFFF
      · rw [if_pos hthree]
        exact decode_three (by omega) hthree (by omega) rest
      · rw [if_neg hthree]
        exact decode_four (by omega) (by omega) rest

theorem decode_encode (l : List Char) : decode (encode l) = l := by
  unfold decode encode
  induction l with
  | nil => rfl
  | cons c l ih => rw [List.flatMap_cons, decode_utf8EncodeChar, ih]

end Utf8

end MmrEngine
