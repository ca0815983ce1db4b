import MmrEngine.Lib.Digits
import MmrEngine.Lib.JsText

/-!
# Money in the Dashboard

Decimal strings of the API as integer kobo, and back.

A `bigint` is an integer, and a text is a list of characters where it is taken
apart. `DECIMAL_RE` is read as the parser it is: a sign, a run of digits, and a
dot with digits behind it or the end. The zero-width expression of
`groupThousands` is tried at every position, as `replace` with the `g` flag does.

## Main definitions

* `toKobo`: A decimal string as kobo.
* `groupThousands`: The commas.
* `formatKobo`, `formatNgn`: An amount as it is shown.
* `koboToDecimalString`: An amount as the API has it.
* `amountDifference`: The difference of two amounts, as a discrepancy shows it.
-/

namespace MmrEngine

namespace Money

open Digits

/-- The white space and line terminators `trim` removes. -/
def jsSpace (c : Char) : Bool := JsText.whiteSpace c.toNat

/-- The groups of `DECIMAL_RE`; one that is missing is empty. -/
structure DecimalMatch where
  sign : List Char
  whole : List Char
  frac : List Char
  deriving DecidableEq, Repr

/-- `([+-])?`. -/
def isSign (c : Char) : Bool := c = '+' || c = '-'

/-- `^([+-])?(\d+)(?:\.(\d*))?$`. -/
def DECIMAL_RE (text : List Char) : Option DecimalMatch :=
  let sign := (text.take 1).filter isSign
  let rest := text.drop sign.length
  let whole := rest.takeWhile Char.isDigit
  let tail := rest.dropWhile Char.isDigit
  if whole = [] then none
  else if tail = [] then some { sign := sign, whole := whole, frac := [] }
  else if tail.head? = some '.' ∧ tail.tail.all Char.isDigit then
    some { sign := sign, whole := whole, frac := tail.tail }
  else none

/-- Kobo rounded half away from zero; `none` where there is no plain decimal. -/
def toKobo (value : Option String) : Option ℤ :=
  value.bind fun value =>
    (DECIMAL_RE (JsText.trim jsSpace value.toList)).map fun m =>
      let kobo := Digits.value m.whole * 100 + Digits.value ((m.frac ++ ['0', '0']).take 2)
      -- `charCodeAt(2) >= 53`: the third digit decides alone.
      let kobo := if m.frac[2]?.any fun c => decide (53 ≤ c.toNat) then kobo + 1 else kobo
      if m.sign = ['-'] then -(kobo : ℤ) else kobo

/-- `\w`. -/
def wordChar (c : Char) : Bool := c.isAlphanum || c = '_'

/-- `\B`: both neighbours are word characters, or neither is. -/
def notBoundary (before after : Option Char) : Bool := before.any wordChar == after.any wordChar

/-- `(?=(\d{3})+(?!\d))`. -/
def lookahead (rest : List Char) : Bool :=
  (List.range rest.length).any fun k =>
    ((rest.take (3 * (k + 1))).length = 3 * (k + 1)) &&
      (rest.take (3 * (k + 1))).all Char.isDigit &&
      !((rest.drop (3 * (k + 1))).head?.any Char.isDigit)

/-- The commas from some position on, given the character before it. -/
def groupFrom : Option Char → List Char → List Char
  | _, [] => []
  | before, c :: rest =>
    (if notBoundary before (some c) && lookahead (c :: rest) then [','] else []) ++
      c :: groupFrom (some c) rest

/-- `digits.replace(/\B(?=(\d{3})+(?!\d))/g, ',')`. -/
def groupThousands (digits : List Char) : List Char := groupFrom none digits

/-- "₦1,234,567.89". -/
def formatKobo (kobo : ℤ) : String :=
  let naira := groupThousands (Nat.toDigits 10 (kobo.natAbs / 100))
  let rem := padded 2 (kobo.natAbs % 100)
  (if kobo < 0 then "−" else "") ++ "₦" ++ String.ofList naira ++ "." ++ String.ofList rem

/-- An API decimal string as it is shown, or "—" when it is absent. -/
def formatNgn (value : Option String) : String :=
  match toKobo value with
  | none => "—"
  | some kobo => formatKobo kobo

/-- The Difference of `AmountComparison` in `evidence.tsx`: `delta_ngn`, or what
    the two amounts of the evidence differ by where there is none. -/
def amountDifference (amountANgn amountBNgn deltaNgn : Option String) : String :=
  let delta := (toKobo deltaNgn).or
    ((toKobo amountANgn).bind fun a => (toKobo amountBNgn).map fun b =>
      if b < a then a - b else b - a)
  match delta with
  | none => "—"
  | some kobo => formatKobo kobo

/-- "1234.50". -/
def koboToDecimalString (kobo : ℤ) : String :=
  (if kobo < 0 then "-" else "") ++ String.ofList (Nat.toDigits 10 (kobo.natAbs / 100)) ++ "." ++
    String.ofList (padded 2 (kobo.natAbs % 100))

end Money

end MmrEngine
