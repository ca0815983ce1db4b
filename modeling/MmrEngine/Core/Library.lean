import MmrEngine.Core.Text
import Mathlib.Algebra.Order.Ring.Rat

/-!
# What the Standard Library Parses

The rest of what the normalisers take from Python: reading a decimal and a
timestamp out of a text, more of the Unicode tables, and the keyed hash.

Like the text operations they extend, these are a parameter. What is fixed is
the shape of their results. A `Decimal` read from a text is a value, or not a
finite number, or `InvalidOperation`; `datetime.fromisoformat` yields a wall
clock reading in the years 1 to 9999 with or without an offset from UTC, or
`ValueError`. `asciiLibrary` reads plain decimals and timestamps in one common
form, and is what concrete evaluations use on such texts.

## Main definitions

* `ParsedDecimal`: What `Decimal(text)` can be.
* `IsoTimestamp`: What `datetime.fromisoformat(text)` can be.
* `PyLibrary`: The operations.
* `asciiLibrary`: An instance for plain texts.
-/

namespace MmrEngine

/-- What `Decimal(text)` can be, when it is not an `InvalidOperation`. -/
inductive ParsedDecimal where
  | finite (value : ℚ)
  | notFinite
  deriving DecidableEq, Repr

/-- `datetime.min` in microseconds since 1970. -/
def datetimeMin : ℤ := -62135596800000000

/-- `datetime.max`. -/
def datetimeMax : ℤ := 253402300799999999

/-- A wall clock reading with the offset it states, if any. -/
structure IsoTimestamp where
  wallClock : ℤ
  utcOffset : Option ℤ
  from_min : datetimeMin ≤ wallClock
  to_max : wallClock ≤ datetimeMax

/-- Python's library, as far as the normalisers use it. -/
class PyLibrary extends PyText where
  upper : String → String
  /-- `str.isdigit`. -/
  isdigit : String → Bool
  /-- `\d`. -/
  isdecimal : Char → Bool
  /-- `unicodedata.normalize("NFKD", s)`. -/
  nfkd : String → String
  /-- `unicodedata.combining(c) != 0`. -/
  combining : Char → Bool
  /-- The hex digest of the keyed hash of a word. -/
  hmacHex : String → String
  decimalOf : String → Option ParsedDecimal
  fromIsoFormat : String → Option IsoTimestamp

/-- The digits of a text as a number. -/
def readNat (cs : List Char) : Option Nat :=
  if cs ≠ [] ∧ cs.all Char.isDigit then
    some (cs.foldl (fun n c => 10 * n + (c.toNat - '0'.toNat)) 0)
  else none

/-- A plain decimal: digits, with a fraction or without. -/
def readDecimal (cs : List Char) : Option ParsedDecimal :=
  match cs.span (· ≠ '.') with
  | (whole, []) => (readNat whole).map fun n => .finite n
  | (whole, _ :: fraction) => do
    let n ← readNat whole
    let m ← readNat fraction
    return .finite (n + m / 10 ^ fraction.length)

/-- Days from 1970-01-01 to a date of the Gregorian calendar. -/
def daysFromCivil (year month day : ℤ) : ℤ :=
  let y := if month ≤ 2 then year - 1 else year
  let shifted := if month > 2 then month - 3 else month + 9
  365 * y + y / 4 - y / 100 + y / 400 + (153 * shifted + 2) / 5 + day - 1 - 719468

/-- A reading as a timestamp, if it is within the years 1 to 9999. -/
def IsoTimestamp.of? (wallClock : ℤ) (utcOffset : Option ℤ) : Option IsoTimestamp :=
  if h : datetimeMin ≤ wallClock ∧ wallClock ≤ datetimeMax then
    some ⟨wallClock, utcOffset, h.1, h.2⟩
  else none

/-- `YYYY-MM-DDTHH:MM:SS+00:00`. -/
def readTimestamp (cs : List Char) : Option IsoTimestamp :=
  match cs with
  | [y1, y2, y3, y4, '-', m1, m2, '-', d1, d2, 'T', h1, h2, ':', n1, n2, ':', s1, s2,
      '+', '0', '0', ':', '0', '0'] => do
    let year ← readNat [y1, y2, y3, y4]
    let month ← readNat [m1, m2]
    let day ← readNat [d1, d2]
    let hour ← readNat [h1, h2]
    let minute ← readNat [n1, n2]
    let second ← readNat [s1, s2]
    let seconds := daysFromCivil year month day * 86400 + hour * 3600 + minute * 60 + second
    IsoTimestamp.of? (seconds * 1000000) (some 0)
  | _ => none

/-- Plain decimals, timestamps in UTC, and no letter outside ASCII. -/
@[reducible] def asciiLibrary : PyLibrary where
  toPyText := asciiText
  upper s := String.ofList (s.toList.map Char.toUpper)
  isdigit s := s ≠ "" && s.toList.all Char.isDigit
  isdecimal := Char.isDigit
  nfkd s := s
  combining _ := false
  hmacHex s := s
  decimalOf s := readDecimal s.toList
  fromIsoFormat s := readTimestamp s.toList

end MmrEngine
