import MmrEngine.Core.UtcDatetime
import MmrEngine.Lib.JsText
import MmrEngine.Lib.UrlEncoded
import MmrEngine.Lib.Utf16
import Mathlib.Data.List.Nodup
import Mathlib.Logic.Function.Basic
import Mathlib.Order.Basic

/-!
# URL State

The filters of a view in its query string: how each parameter is read and
written, and how a whole schema is.

A string of the browser is a sequence of UTF-16 code units, which may end in
half a character. `URLSearchParams` knows scalar values only: what it is given
is converted first, and what it gives is well formed.

Numbers are a parameter. What is read here is a run of decimal digits, and a
number is written as digits again as long as it is below 10^21; from there on it
is written with an exponent, or as `Infinity`.

## Main definitions

* `JsNumber`: The numbers.
* `URLSearchParams`: Names and values, with `get`, `set` and their text.
* `ParamSpec`: How a parameter is read and written.
* `param.enum`, `param.string`, `param.int`, `param.date`, `param.id`: The kinds.
* `parseParams`, `toSearch`: A schema.
-/

namespace MmrEngine

namespace UrlState

/-- A string, as its code units. -/
abbrev JsString := List UInt16

/-- A literal. -/
def lit (s : String) : JsString := Utf16.encode s.toList

/-! ### Numbers -/

def isDigit (u : UInt16) : Bool := 48 ≤ u.toNat ∧ u.toNat ≤ 57

/-- `/^\d+$/`. -/
def isNumeral (s : JsString) : Bool := s ≠ [] ∧ s.all isDigit

/-- The numbers but for `NaN`, as far as they are used here. -/
class JsNumber (N : Type) extends LinearOrder N where
  /-- `Number(s)` of a numeral. -/
  ofNumeral : JsString → N
  /-- `String(n)`. -/
  toText : N → JsString
  toText_ascii : ∀ n, ∀ u ∈ toText n, u.toNat < 128
  -- Below 10^21 a number is written as a numeral that is read as this number.
  toText_small : ∀ s, isNumeral s = true → ofNumeral s < ofNumeral (lit "1000000000000000000000") →
    isNumeral (toText (ofNumeral s)) = true ∧ ofNumeral (toText (ofNumeral s)) = ofNumeral s
  toText_large : ∀ s, isNumeral s = true →
    ¬ ofNumeral s < ofNumeral (lit "1000000000000000000000") →
      isNumeral (toText (ofNumeral s)) = false

/-! ### URLSearchParams -/

/-- The names and values of a query, each a sequence of scalar values. -/
abbrev URLSearchParams := List (String × String)

namespace URLSearchParams

/-- A `USVString`: a surrogate that is alone becomes U+FFFD. -/
def usvString (s : JsString) : String := String.ofList (Utf16.toScalar s)

/-- A question mark in front is dropped. -/
def stripQuestionMark : List Char → List Char
  | '?' :: rest => rest
  | chars => chars

/-- `new URLSearchParams(init)`. -/
def new (init : JsString) : URLSearchParams :=
  UrlEncoded.parse (Utf8.encode (stripQuestionMark (usvString init).toList))

/-- `params.get(name)`. -/
def get (params : URLSearchParams) (name : String) : Option JsString :=
  (params.find? fun pair => pair.1 = name).map fun pair => Utf16.encode pair.2.toList

/-- `params.set(name, value)`: the first value of the name is replaced and the
    others go, and a new name goes to the end. -/
def set : URLSearchParams → String → JsString → URLSearchParams
  | [], name, value => [(name, usvString value)]
  | pair :: rest, name, value =>
    if pair.1 = name then (name, usvString value) :: rest.filter fun p => p.1 ≠ name
    else pair :: set rest name value

/-- `params.toString()`. -/
def toString (params : URLSearchParams) : JsString :=
  (UrlEncoded.serialize params).map fun b => UInt16.ofNat b.toNat

end URLSearchParams

/-! ### The kinds of parameters -/

/-- What a parameter can be read as. -/
inductive Value (N : Type) where
  | undefined
  | string (s : JsString)
  | number (n : N)
  deriving DecidableEq

def Value.ofOption {N : Type} : Option JsString → Value N
  | none => .undefined
  | some s => .string s

/-- `ParamSpec<T>`; the types see to it that a value is of the kind it is written
    as. -/
structure ParamSpec (N : Type) where
  parse : Option JsString → Value N
  serialize : Value N → Option JsString

/-- The white space and line terminators `trim` removes. -/
def jsSpace (u : UInt16) : Bool := JsText.whiteSpace u.toNat

/-- `s.trim().slice(0, maxLength)`. -/
def cap (maxLength : Nat) (s : JsString) : JsString := (JsText.trim jsSpace s).take maxLength

/-- `/^[A-Za-z0-9_-]{1,80}$/`. -/
def isIdentifier (s : JsString) : Bool :=
  (1 ≤ s.length ∧ s.length ≤ 80) ∧ s.all fun u =>
    (65 ≤ u.toNat ∧ u.toNat ≤ 90) ∨ (97 ≤ u.toNat ∧ u.toNat ≤ 122) ∨ isDigit u = true ∨
      u.toNat = 95 ∨ u.toNat = 45

/-- The number some digits stand for. -/
def digitsValue (s : JsString) : Nat := s.foldl (fun n u => 10 * n + (u.toNat - 48)) 0

/-- `isRealDate`: the date exists, and so is the one it is converted to and
    back. -/
def isRealDate : JsString → Bool
  | [y1, y2, y3, y4, dash, m1, m2, dash', d1, d2] =>
    let month := digitsValue [m1, m2]
    let day := digitsValue [d1, d2]
    [y1, y2, y3, y4, m1, m2, d1, d2].all isDigit ∧ dash = 45 ∧ dash' = 45 ∧
      (1 ≤ month ∧ month ≤ 12) ∧ (1 ≤ day ∧ day ≤ daysInMonth (digitsValue [y1, y2, y3, y4]) month)
  | _ => false

/-- The bounds of `param.int`. -/
structure IntOptions (N : Type) where
  min : N
  max : N
  allowed : Option (List N)

namespace param

variable {N : Type}

def enum (values : List JsString) (fallback : Option JsString) : ParamSpec N where
  parse raw :=
    match raw with
    | some raw => if raw ∈ values then .string raw else .ofOption fallback
    | none => .ofOption fallback
  serialize value :=
    match value with
    | .string v => if fallback = some v then none else some v
    | _ => none

/-- An empty string is nothing. -/
def string (maxLength : Nat) : ParamSpec N where
  parse raw :=
    match raw with
    | some raw => if cap maxLength raw = [] then .undefined else .string (cap maxLength raw)
    | none => .undefined
  serialize value :=
    match value with
    | .string v => if v = [] ∨ cap maxLength v = [] then none else some (cap maxLength v)
    | _ => none

/-- `min` and `max` are 0 and `Number.MAX_SAFE_INTEGER` where they are not
    given. -/
def defaultOptions [JsNumber N] : IntOptions N where
  min := JsNumber.ofNumeral (lit "0")
  max := JsNumber.ofNumeral (lit "9007199254740991")
  allowed := none

/-- `n < min || n > max`, or an allowed set without it. -/
def outOfBounds [JsNumber N] (opts : IntOptions N) (n : N) : Bool :=
  n < opts.min ∨ opts.max < n ∨ opts.allowed.any (fun allowed => n ∉ allowed) = true

def int [JsNumber N] (fallback : N) (opts : IntOptions N) : ParamSpec N where
  parse raw :=
    match raw with
    | some raw =>
      if isNumeral raw = false then .number fallback
      else if outOfBounds opts (JsNumber.ofNumeral raw) then .number fallback
      else .number (JsNumber.ofNumeral raw)
    | none => .number fallback
  serialize value :=
    match value with
    | .number n => if n = fallback then none else some (JsNumber.toText n)
    | _ => none

/-- A text that is checked, and absent where the check fails. -/
def checked (valid : JsString → Bool) : ParamSpec N where
  parse raw :=
    match raw with
    | some raw => if raw ≠ [] ∧ valid raw = true then .string raw else .undefined
    | none => .undefined
  serialize value :=
    match value with
    | .string v => if v ≠ [] ∧ valid v = true then some v else none
    | _ => none

def date : ParamSpec N := checked isRealDate

def id : ParamSpec N := checked isIdentifier

end param

/-! ### A schema -/

/-- A parameter of a schema, by its kind. -/
inductive Param (N : Type) where
  | enum (values : List JsString) (fallback : Option JsString)
  | string (maxLength : Nat)
  | int (fallback : N) (opts : IntOptions N)
  | date
  | id

section Schema

variable {N : Type} [JsNumber N]

def Param.spec : Param N → ParamSpec N
  | .enum values fallback => param.enum values fallback
  | .string maxLength => param.string maxLength
  | .int fallback opts => param.int fallback opts
  | .date => param.date
  | .id => param.id

omit [JsNumber N] in
variable (N) in
/-- The parameters in the order of `Object.keys`. -/
structure Schema where
  entries : List (String × Param N)
  nodup : (entries.map Prod.fst).Nodup

/-- `out[key] = schema[key].parse(params.get(key))` for every key. -/
def parseParams (schema : Schema N) (params : URLSearchParams) : String → Value N :=
  schema.entries.foldl
    (fun out e => Function.update out e.1 (e.2.spec.parse (params.get e.1))) fun _ => .undefined

/-- What is set for a value, if anything. -/
def written (p : Param N) (value : Value N) : Option JsString :=
  if value = .undefined then none else (p.spec.serialize value).filter fun s => s ≠ []

/-- One round of the loop of `toSearch`. -/
def setParam (values : String → Value N) (sp : URLSearchParams) (e : String × Param N) :
    URLSearchParams :=
  match written e.2 (values e.1) with
  | some s => sp.set e.1 s
  | none => sp

def toSearch (schema : Schema N) (values : String → Value N) : JsString :=
  let s := URLSearchParams.toString (schema.entries.foldl (setParam values) [])
  if s = [] then [] else lit "?" ++ s

end Schema

end UrlState

end MmrEngine
