import Mathlib.Data.List.DropRight

/-!
# Python Text

The string operations of the source whose result depends on Python's Unicode
tables, and what the engine relies on about them.

`str.lower` is context-sensitive (a final sigma), may change a string's length
and follows the tables of the interpreter's Unicode version; `str.strip`
removes whatever those tables call whitespace; the `repr` of a string or of a
float follows rules of its own. None of that is the engine's business, so the
tables are a parameter. `PyText` collects the operations with the few facts
every version satisfies: their values on ASCII, and that lowering never
produces a colon, which is the separator of the idempotency key.

`asciiText` is the instance that treats every other character as plain text.
It agrees with Python on ASCII input and is what concrete evaluations use.

## Main definitions

* `PyFloat`: A float as `json.loads` may produce it.
* `PyText`: The table-dependent operations with their laws.
* `strip`: `str.strip()`.
* `plain`: ASCII text with no capital letter and no whitespace.

## Theorems

* `strip_of_no_space`: Stripping text without whitespace changes nothing.
* `strip_strip`: Nor does stripping twice.
* `exists_strip`, `strip_eq_self_iff`: What is stripped, and when nothing is.
* `lower_plain`: Lowering plain text changes nothing.
* `strip_lower_plain`: A plain component of a key is stored as it is.
-/

namespace MmrEngine

/-- A binary64 value: `finite neg m e` is `(-1)^neg * m * 2^e`. -/
inductive PyFloat where
  | nan
  | inf (neg : Bool)
  | finite (neg : Bool) (mantissa : Nat) (exponent : Int)
  deriving DecidableEq, Repr

/-- The ASCII characters `str.isspace` accepts. -/
def asciiSpace (c : Char) : Bool :=
  [9, 10, 11, 12, 13, 28, 29, 30, 31, 32].contains c.toNat

/-- Python's text operations that read the Unicode tables. -/
class PyText where
  lower : String → String
  isspace : Char → Bool
  reprStr : String → String
  reprFloat : PyFloat → String
  lower_ascii : ∀ s : String, (∀ c ∈ s.toList, c.toNat < 128) →
    lower s = String.ofList (s.toList.map Char.toLower)
  isspace_ascii : ∀ c : Char, c.toNat < 128 → isspace c = asciiSpace c
  lower_colon : ∀ s : String, ':' ∉ s.toList → ':' ∉ (lower s).toList

/-- Lowering produces small letters, and leaves all else as it is. -/
theorem toLower_ne {m : Char} (hm : m.toNat < 97) {c : Char} (h : c ≠ m) : c.toLower ≠ m := by
  intro hc
  unfold Char.toLower at hc
  split at hc
  · rename_i hr
    have hval := congrArg Char.toNat hc
    simp only [Char.toNat] at hval hm
    have h1 : 65 ≤ c.val.toNat := UInt32.le_iff_toNat_le.mp hr.1
    have h2 : c.val.toNat ≤ 90 := UInt32.le_iff_toNat_le.mp hr.2
    rw [UInt32.toNat_add] at hval
    have h3 : ('a'.val - 'A'.val).toNat = 32 := rfl
    omega
  · exact h hc

theorem toLower_ne_colon (c : Char) (h : c ≠ ':') : c.toLower ≠ ':' := toLower_ne (by decide) h

/-- Every character outside ASCII is plain text: no case, no whitespace. -/
@[reducible] def asciiText : PyText where
  lower s := String.ofList (s.toList.map Char.toLower)
  isspace := asciiSpace
  reprStr s := "'" ++ s ++ "'"
  reprFloat
    | .nan => "nan"
    | .inf neg => if neg then "-inf" else "inf"
    | .finite neg m e => (if neg then "-" else "") ++ toString m ++ "p" ++ toString e
  lower_ascii _ _ := rfl
  isspace_ascii _ _ := rfl
  lower_colon s hs := by
    rw [String.toList_ofList, List.mem_map]
    rintro ⟨c, hc, hcolon⟩
    exact toLower_ne_colon c (fun h => hs (h ▸ hc)) hcolon

section Strip

variable [PyText]

/-- `str.strip()`. -/
def strip (s : String) : String :=
  String.ofList ((s.toList.dropWhile PyText.isspace).rdropWhile PyText.isspace)

theorem strip_of_no_space (s : String) (h : ∀ c ∈ s.toList, PyText.isspace c = false) :
    strip s = s := by
  have hdrop : s.toList.dropWhile PyText.isspace = s.toList := by
    rw [List.dropWhile_eq_self_iff]
    intro hlen hc
    rw [h _ (List.getElem_mem hlen)] at hc
    exact Bool.noConfusion hc
  have hrdrop : s.toList.rdropWhile PyText.isspace = s.toList := by
    rw [List.rdropWhile_eq_self_iff]
    intro hne hc
    rw [h _ (List.getLast_mem hne)] at hc
    exact Bool.noConfusion hc
  rw [strip, hdrop, hrdrop, String.ofList_toList]

@[simp] theorem strip_empty : strip "" = "" := strip_of_no_space "" fun _ h => absurd h (by simp)

/-- Stripped text has nothing left to strip. -/
@[simp] theorem strip_strip (s : String) : strip (strip s) = strip s := by
  -- What is dropped on the right leaves the first character where it is.
  have hleft : ∀ l : List Char, (∀ c ∈ l.head?, PyText.isspace c = false) →
      (l.rdropWhile PyText.isspace).dropWhile PyText.isspace = l.rdropWhile PyText.isspace := by
    intro l hl
    rcases List.rdropWhile_prefix PyText.isspace (l := l) with ⟨rest, hrest⟩
    cases hr : l.rdropWhile PyText.isspace with
    | nil => rfl
    | cons c cs =>
        have hc : PyText.isspace c = false := by
          rw [hr] at hrest
          refine hl c ?_
          rw [← hrest]
          rfl
        rw [List.dropWhile_cons_of_neg (by simp [hc])]
  have hhead : ∀ c ∈ (s.toList.dropWhile PyText.isspace).head?, PyText.isspace c = false := by
    intro c hc
    have h := List.head?_dropWhile_not PyText.isspace s.toList
    rw [Option.mem_def.mp hc] at h
    simpa using h
  rw [strip, strip, String.toList_ofList, hleft _ hhead, List.rdropWhile_idempotent]

/-- What is stripped is whitespace at the ends. -/
theorem exists_strip (s : String) : ∃ p q, s.toList = p ++ ((strip s).toList ++ q) ∧
    (∀ c ∈ p, PyText.isspace c = true) ∧ ∀ c ∈ q, PyText.isspace c = true := by
  refine ⟨s.toList.takeWhile PyText.isspace,
    (s.toList.dropWhile PyText.isspace).rtakeWhile PyText.isspace, ?_, ?_, ?_⟩
  · rw [strip, String.toList_ofList, List.rdropWhile_append_rtakeWhile,
      List.takeWhile_append_dropWhile]
  · exact fun c hc => List.mem_takeWhile_imp hc
  · exact fun c hc => List.mem_rtakeWhile_imp hc

theorem mem_of_mem_strip {c : Char} {s : String} (h : c ∈ (strip s).toList) : c ∈ s.toList := by
  rw [strip, String.toList_ofList] at h
  exact (List.dropWhile_suffix _).subset ((List.rdropWhile_prefix _ _).subset h)

/-- A text is stripped when neither end is whitespace. -/
theorem strip_eq_self_iff (s : String) : strip s = s ↔
    (∀ c ∈ s.toList.head?, PyText.isspace c = false) ∧
      ∀ c ∈ s.toList.getLast?, PyText.isspace c = false := by
  constructor
  · intro h
    -- Stripping shortens at both ends, so neither may shorten at all.
    have hlist : (s.toList.dropWhile PyText.isspace).rdropWhile PyText.isspace = s.toList := by
      rw [← String.toList_ofList (l := List.rdropWhile _ _)]
      exact congrArg String.toList h
    have hlength := congrArg List.length hlist
    have hle := (List.rdropWhile_prefix PyText.isspace
      (l := s.toList.dropWhile PyText.isspace)).length_le
    have hdrop : s.toList.dropWhile PyText.isspace = s.toList :=
      (List.dropWhile_suffix PyText.isspace).eq_of_length_le (by omega)
    constructor
    · intro c hc
      have hhead := List.head?_dropWhile_not PyText.isspace s.toList
      rw [hdrop, Option.mem_def.mp hc] at hhead
      simpa using hhead
    · intro c hc
      rw [hdrop, List.rdropWhile_eq_self_iff] at hlist
      rcases List.mem_getLast?_eq_getLast hc with ⟨hne, rfl⟩
      simpa using hlist hne
  · rintro ⟨hhead, hlast⟩
    have hdrop : s.toList.dropWhile PyText.isspace = s.toList := by
      cases hs : s.toList with
      | nil => rfl
      | cons c cs =>
          have hc := hhead c (by rw [hs]; rfl)
          rw [List.dropWhile_cons_of_neg (by simp [hc])]
    have hrdrop : s.toList.rdropWhile PyText.isspace = s.toList := by
      rw [List.rdropWhile_eq_self_iff]
      intro hne
      have hc := hlast _ (List.getLast_mem_getLast? hne)
      simp [hc]
    rw [strip, hdrop, hrdrop, String.ofList_toList]

end Strip

/-- ASCII text with no capital letter and no whitespace, as the event names of
    the vocabularies are. -/
def plain (s : String) : Bool :=
  s.toList.all fun c => decide (c.toNat < 128) && (c.toLower == c) && !asciiSpace c

theorem plain_char {s : String} (h : plain s = true) {c : Char} (hc : c ∈ s.toList) :
    c.toNat < 128 ∧ c.toLower = c ∧ asciiSpace c = false := by
  have hall := List.all_eq_true.mp h c hc
  simp only [Bool.and_eq_true, decide_eq_true_eq, beq_iff_eq, Bool.not_eq_true'] at hall
  exact ⟨hall.1.1, hall.1.2, hall.2⟩

theorem plain_append {s t : String} (hs : plain s = true) (ht : plain t = true) :
    plain (s ++ t) = true := by
  rw [plain, String.toList_append, List.all_append, ← plain, ← plain, hs, ht]
  rfl

section Plain

variable [PyText]

theorem lower_plain {s : String} (h : plain s = true) : PyText.lower s = s := by
  rw [PyText.lower_ascii s (fun c hc => (plain_char h hc).1)]
  have hmap : s.toList.map Char.toLower = s.toList :=
    (List.map_congr_left fun c hc => (plain_char h hc).2.1).trans (List.map_id s.toList)
  rw [hmap, String.ofList_toList]

theorem strip_plain {s : String} (h : plain s = true) : strip s = s := by
  refine strip_of_no_space s (fun c hc => ?_)
  rw [PyText.isspace_ascii c (plain_char h hc).1]
  exact (plain_char h hc).2.2

/-- A plain component goes into the idempotency key unchanged. -/
theorem strip_lower_plain {s : String} (h : plain s = true) : strip (PyText.lower s) = s := by
  rw [lower_plain h, strip_plain h]

end Plain

end MmrEngine
