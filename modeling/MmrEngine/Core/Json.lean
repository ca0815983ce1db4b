import MmrEngine.Core.Text

/-!
# JSON Values

The values `json.loads` produces, with the handful of Python operations the
engine applies to them: truthiness, `or`, `dict.get`, attribute access to
`get`, and `str`.

A payload is a `Dict`, a parsed object; `get` is `dict.get` with its default,
so a missing key and an explicit `null` stay apart where the source keeps them
apart. Calling `.get` on something that is not an object raises
`AttributeError`, which is why `attr` is fallible: nothing in the engine
guarantees that `data` is an object before it is used.

`str` of a container prints its members with `repr`, so the two are defined
together.

## Main definitions

* `Json`: A JSON value.
* `Dict`: A JSON object.
* `PyError`: The exceptions the modelled code can raise.
* `truthy`: Python truthiness.
* `orElse`: Python's `or`.
* `Dict.get`: `dict.get(key, default)`.
* `attr`: `value.get(key)` on any value.
* `toStr`: `str(value)`.
-/

namespace MmrEngine

/-- A value parsed from JSON. -/
inductive Json where
  | null
  | bool (b : Bool)
  | int (n : Int)
  | float (x : PyFloat)
  | str (s : String)
  | arr (xs : List Json)
  | obj (fields : List (String × Json))
  deriving Repr

/-- A parsed JSON object: `json.loads` keeps one value per key. -/
abbrev Dict := List (String × Json)

/-- The exceptions the modelled code can raise, by kind. `permanent` is
    `PermanentEventError` with its message. -/
inductive PyError where
  | attributeError
  | keyError (key : String)
  | typeError
  | permanent (message : String)
  deriving DecidableEq, Repr

/-- `dict.get(key, default)`. -/
def Dict.get (d : Dict) (key : String) (default : Json) : Json :=
  (d.lookup key).getD default

namespace Json

/-- Python truthiness. -/
def truthy : Json → Bool
  | .null => false
  | .bool b => b
  | .int n => n != 0
  | .float (.finite _ m _) => m != 0
  | .float _ => true
  | .str s => s != ""
  | .arr xs => !xs.isEmpty
  | .obj fields => !fields.isEmpty

/-- Python's `a or b`. -/
def orElse (a b : Json) : Json := if a.truthy then a else b

/-- The object behind a value, if it is one: `isinstance(value, dict)`. -/
def asDict : Json → Option Dict
  | .obj fields => some fields
  | _ => none

/-- `value.get(key)`: anything but an object has no such attribute. -/
def attr (value : Json) (key : String) : Except PyError Json :=
  match value.asDict with
  | some d => .ok (d.get key .null)
  | none => .error .attributeError

section Printing

variable [PyText]

mutual

/-- `repr(value)`. -/
def reprOf : Json → String
  | .null => "None"
  | .bool b => if b then "True" else "False"
  | .int n => toString n
  | .float x => PyText.reprFloat x
  | .str s => PyText.reprStr s
  | .arr xs => "[" ++ reprList xs ++ "]"
  | .obj fields => "\x7b" ++ reprFields fields ++ "\x7d"

def reprList : List Json → String
  | [] => ""
  | [x] => reprOf x
  | x :: xs => reprOf x ++ ", " ++ reprList xs

def reprFields : List (String × Json) → String
  | [] => ""
  | [(k, v)] => PyText.reprStr k ++ ": " ++ reprOf v
  | (k, v) :: fields => PyText.reprStr k ++ ": " ++ reprOf v ++ ", " ++ reprFields fields

end

/-- `str(value)`: a string is itself, everything else its `repr`. -/
def toStr : Json → String
  | .str s => s
  | v => reprOf v

end Printing

end Json

end MmrEngine
