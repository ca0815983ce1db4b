import MmrEngine.Core.Library
import MmrEngine.Lib.Regex
import Mathlib.Data.List.Sort

/-!
# Masking and Tokenizing

What Silver keeps of a person: an account number with its ends showing, a name
by its initials, a narration without the identifiers it may contain, and the
keyed tokens of a name's words.

Every function takes a text or nothing. What happens to a JSON value that is
neither is the normaliser's matter.

## Main definitions

* `maskAccountNumber`, `maskName`, `maskBvn`, `maskPhone`: What an operator sees.
* `scrubNarration`: A narration without phone numbers, accounts and addresses.
* `normaliseNameTokens`: The words of a name, as matching compares them.
* `tokenizeName`: Their keyed tokens.
-/

namespace MmrEngine

namespace Pii

variable [PyLibrary]

/-- `str.split()`: the words between stretches of whitespace. -/
def splitWords (s : String) : List String :=
  ((s.toList.splitOnP PyText.isspace).filter (· ≠ [])).map String.ofList

def stars (n : Nat) : String := String.ofList (List.replicate n '*')

/-- `s[:n]`. -/
def takeFirst (s : String) (n : Nat) : String := String.ofList (s.toList.take n)

/-- `s[-n:]`, for a positive `n`. -/
def takeLast (s : String) (n : Nat) : String :=
  String.ofList (s.toList.drop (s.toList.length - n))

omit [PyLibrary] in
@[simp] theorem toList_stars (n : Nat) : (stars n).toList = List.replicate n '*' :=
  String.toList_ofList

omit [PyLibrary] in
@[simp] theorem toList_takeFirst (s : String) (n : Nat) :
    (takeFirst s n).toList = s.toList.take n := String.toList_ofList

omit [PyLibrary] in
@[simp] theorem toList_takeLast (s : String) (n : Nat) :
    (takeLast s n).toList = s.toList.drop (s.toList.length - n) := String.toList_ofList

def maskAccountNumber (account : Option String) : Option String :=
  account.bind fun text =>
    let account := strip text
    let n := account.toList.length
    if account = "" then none
    else if n = 10 ∧ PyLibrary.isdigit account = true then
      some (takeFirst account 2 ++ stars 6 ++ takeLast account 2)
    else if 4 ≤ n then some (takeFirst account 2 ++ stars (n - 4) ++ takeLast account 2)
    else some "****"

def maskName (name : Option String) : Option String :=
  name.bind fun text =>
    let name := strip text
    if name = "" then none
    else some (" ".intercalate ((splitWords name).map fun part =>
      if part.toList.length ≤ 1 then part
      else takeFirst part 1 ++ stars (part.toList.length - 1)))

def maskBvn (bvn : Option String) : Option String :=
  bvn.map fun text =>
    let bvn := strip text
    let n := bvn.toList.length
    if n < 4 then "***" else stars (n - 4) ++ takeLast bvn 4

def maskPhone (phone : Option String) : Option String :=
  phone.map fun text =>
    let phone := strip text
    let n := phone.toList.length
    if n < 6 then "****" else takeFirst phone 4 ++ stars (n - 6) ++ takeLast phone 2

def digit : Regex := .char PyLibrary.isdecimal

/-- A digit out of a set. -/
def oneOf (cs : List Char) : Regex := .char fun c => cs.contains c

/-- `(?<!\d)(?:\+?234|0)[789][01]\d{8}(?!\d)`. -/
def phonePattern : Regex :=
  .seq (.notAfter PyLibrary.isdecimal) (.seq
    (.alt (.seq (Regex.opt (Regex.literal "+")) (Regex.literal "234")) (Regex.literal "0"))
    (.seq (oneOf ['7', '8', '9']) (.seq (oneOf ['0', '1'])
      (.seq (Regex.times digit 8) (.notBefore PyLibrary.isdecimal)))))

/-- `n` digits that are not part of a longer run. -/
def digitRun (n : Nat) : Regex :=
  .seq (.notAfter PyLibrary.isdecimal)
    (.seq (Regex.times digit n) (.notBefore PyLibrary.isdecimal))

def bvnPattern : Regex := digitRun 11

def nubanPattern : Regex := digitRun 10

omit [PyLibrary] in
/-- `[a-zA-Z0-9]`. -/
def asciiAlnum (c : Char) : Bool := c.isAlphanum

/-- `[a-zA-Z0-9._%+-]+@[a-zA-Z0-9.-]+\.[a-zA-Z]{2,}`. -/
def emailPattern : Regex :=
  .seq (Regex.plus (.char fun c => asciiAlnum c || ['.', '_', '%', '+', '-'].contains c))
    (.seq (Regex.literal "@")
      (.seq (Regex.plus (.char fun c => asciiAlnum c || ['.', '-'].contains c))
        (.seq (Regex.literal ".")
          (.seq (Regex.times (.char Char.isAlpha) 2) (.star (.char Char.isAlpha))))))

/-- A narration without identifiers, truncated to 500 characters. An 11-digit
    mobile number also looks like a BVN, so the order matters. -/
def scrubNarration (narration : Option String) : Option String :=
  narration.bind fun text =>
    let text := strip text
    if text = "" then none
    else
      let text := Regex.sub emailPattern "[REDACTED-EMAIL]" text
      let text := Regex.sub phonePattern "[REDACTED-PHONE]" text
      let text := Regex.sub bvnPattern "[REDACTED-BVN]" text
      let text := Regex.sub nubanPattern "[REDACTED-ACCOUNT]" text
      some (takeFirst text 500)

/-- Tokens that carry no identity. -/
def nameStopwords : List String :=
  ["MR", "MRS", "MS", "MISS", "DR", "CHIEF", "ALH", "ALHAJI", "ALHAJA", "ENGR", "PASTOR", "PROF",
    "HON", "SIR", "TRF", "TRANSFER", "FROM", "FRM", "NIP", "MOB", "FT", "TO", "LTD", "LIMITED",
    "ENT", "ENTERPRISE", "ENTERPRISES", "VENTURES", "NIG", "NIGERIA", "PLC", "CO", "AND"]

/-- `[^A-Z0-9 ]+`. -/
def nonAlnum : Regex := Regex.plus (.char fun c => !(c.isUpper || c.isDigit || c = ' '))

/-- `sorted(set(words))`. -/
def sortedSet (words : List String) : List String :=
  words.dedup.insertionSort fun a b => a ≤ b

def normaliseNameTokens (name : Option String) : List String :=
  let text := name.getD ""
  if text = "" then []
  else
    let decomposed := PyLibrary.nfkd text
    let asciiOnly := String.ofList (decomposed.toList.filter fun c => !PyLibrary.combining c)
    let cleaned := Regex.sub nonAlnum " " (PyLibrary.upper asciiOnly)
    sortedSet ((splitWords cleaned).filter fun t => t ∉ nameStopwords ∧ 1 < t.toList.length)

/-- Keyed name tokens: the first 128 bits of each word's hash. -/
def tokenizeName (name : Option String) : List String :=
  sortedSet ((normaliseNameTokens name).map fun word => takeFirst (PyLibrary.hmacHex word) 32)

end Pii

end MmrEngine
