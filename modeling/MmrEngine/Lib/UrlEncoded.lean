import MmrEngine.Lib.Digits
import MmrEngine.Lib.Utf8

/-!
# Form Encoding

`application/x-www-form-urlencoded`: lists of names and values as the query of a
URL, and back.

A value is written byte by byte: letters, digits and `*-._` as they are, a space
as `+`, and every other byte as `%` and two hexadecimal digits. So `&` and `=`
are never part of what is written, and splitting at them takes the text apart
where it was put together.

The parser takes any bytes. A `%` without two digits behind it is one, and bytes
that are no UTF-8 are read with replacements.

## Main definitions

* `encodeByte`, `encodeText`, `serialize`: Writing.
* `percentDecode`, `decodeText`, `parse`: Reading.

## Theorems

* `percentDecode_encodeBytes`, `decodeText_encodeText`: A text that was written.
* `parse_serialize`: Reading what was written.
* `ascii_serialize`: What is written is ASCII.
-/

namespace MmrEngine

namespace UrlEncoded

/-! ### Writing -/

/-- The bytes that are written as they are. -/
def isPlain (b : UInt8) : Bool :=
  (48 ≤ b.toNat ∧ b.toNat ≤ 57) ∨ (65 ≤ b.toNat ∧ b.toNat ≤ 90) ∨
    (97 ≤ b.toNat ∧ b.toNat ≤ 122) ∨ b.toNat = 42 ∨ b.toNat = 45 ∨ b.toNat = 46 ∨ b.toNat = 95

/-- `0` to `9` and `A` to `F`. -/
def hexDigit (n : Nat) : UInt8 := UInt8.ofNat (if n < 10 then 48 + n else 55 + n)

def encodeByte (b : UInt8) : List UInt8 :=
  if isPlain b then [b]
  else if b.toNat = 32 then [43]
  else [37, hexDigit (b.toNat / 16), hexDigit (b.toNat % 16)]

def encodeBytes (bytes : List UInt8) : List UInt8 := bytes.flatMap encodeByte

def encodeText (text : String) : List UInt8 := encodeBytes (Utf8.encode text.toList)

/-- `name=value`. -/
def serializePair (pair : String × String) : List UInt8 :=
  encodeText pair.1 ++ 61 :: encodeText pair.2

/-- The pairs with `&` between them. -/
def serialize (pairs : List (String × String)) : List UInt8 :=
  [38].intercalate (pairs.map serializePair)

/-! ### Reading -/

def hexValue (b : UInt8) : Option Nat := Digits.hexValue b.toNat

/-- `%` and two digits are a byte, anything else is itself. -/
def percentDecode : List UInt8 → List UInt8
  | b :: high :: low :: rest =>
    if b = 37 then
      match hexValue high, hexValue low with
      | some h, some l => UInt8.ofNat (h * 16 + l) :: percentDecode rest
      | _, _ => b :: percentDecode (high :: low :: rest)
    else b :: percentDecode (high :: low :: rest)
  | b :: rest => b :: percentDecode rest
  | [] => []

def plusToSpace (b : UInt8) : UInt8 := if b = 43 then 32 else b

def decodeText (bytes : List UInt8) : String :=
  String.ofList (Utf8.decode (percentDecode (bytes.map plusToSpace)))

/-- The name before the first `=`, and the value behind it. -/
def parsePair (bytes : List UInt8) : String × String :=
  (decodeText (bytes.takeWhile (· ≠ 61)), decodeText ((bytes.dropWhile (· ≠ 61)).drop 1))

/-- The pieces between the `&`, but for empty ones. -/
def parse (bytes : List UInt8) : List (String × String) :=
  ((bytes.splitOn 38).filter (· ≠ [])).map parsePair

/-! ### A text that was written -/

theorem percentDecode_cons {b : UInt8} (h : b ≠ 37) (rest : List UInt8) :
    percentDecode (b :: rest) = b :: percentDecode rest := by
  cases rest with
  | nil => rfl
  | cons high rest =>
      cases rest with
      | nil => rfl
      | cons low rest => rw [percentDecode, if_neg h]

theorem toNat_hexDigit {n : Nat} (h : n < 16) :
    (hexDigit n).toNat = if n < 10 then 48 + n else 55 + n := by
  unfold hexDigit
  split
  · exact Utf8.toNat_byte (by omega)
  · exact Utf8.toNat_byte (by omega)

theorem hexValue_hexDigit {n : Nat} (h : n < 16) : hexValue (hexDigit n) = some n := by
  unfold hexValue Digits.hexValue
  rw [toNat_hexDigit h]
  by_cases hdecimal : n < 10
  · rw [if_pos hdecimal, if_pos (by omega)]
    congr 1
    omega
  · rw [if_neg hdecimal, if_neg (by omega), if_pos (by omega)]
    congr 1
    omega

theorem plusToSpace_hexDigit {n : Nat} (h : n < 16) : plusToSpace (hexDigit n) = hexDigit n := by
  have hne : hexDigit n ≠ 43 := by
    intro heq
    have hnat := congrArg UInt8.toNat heq
    rw [toNat_hexDigit h] at hnat
    have h43 : (43 : UInt8).toNat = 43 := rfl
    split at hnat
    · omega
    · omega
  exact if_neg hne

theorem percentDecode_encodeByte (b : UInt8) (rest : List UInt8) :
    percentDecode ((encodeByte b).map plusToSpace ++ rest) = b :: percentDecode rest := by
  unfold encodeByte
  -- A byte is written as it is, as a plus sign, or as two digits.
  by_cases hplain : isPlain b = true
  · rw [if_pos hplain]
    simp only [isPlain, decide_eq_true_eq] at hplain
    have hplus : b ≠ 43 := by
      rintro rfl
      revert hplain
      decide
    have hpercent : b ≠ 37 := by
      rintro rfl
      revert hplain
      decide
    rw [List.map_singleton, plusToSpace, if_neg hplus, List.singleton_append,
      percentDecode_cons hpercent]
  · rw [if_neg hplain]
    by_cases hspace : b.toNat = 32
    · have hb : b = 32 := UInt8.toNat_inj.mp hspace
      rw [if_pos hspace, hb]
      exact percentDecode_cons (by decide) rest
    · have hlt : b.toNat < 256 := b.toNat_lt
      -- The digits are no plus signs, so they come through to the decoder.
      have hhigh : b.toNat / 16 < 16 := by omega
      have hlow : b.toNat % 16 < 16 := by omega
      have hbyte : UInt8.ofNat (b.toNat / 16 * 16 + b.toNat % 16) = b := by
        have hsum : b.toNat / 16 * 16 + b.toNat % 16 = b.toNat := by omega
        rw [hsum, UInt8.ofNat_toNat]
      have hpercent : plusToSpace 37 = 37 := rfl
      simp only [if_neg hspace, List.map_cons, List.map_nil, plusToSpace_hexDigit hhigh,
        plusToSpace_hexDigit hlow, hpercent, List.cons_append, List.nil_append, percentDecode,
        if_true, hexValue_hexDigit hhigh, hexValue_hexDigit hlow, hbyte]

theorem percentDecode_encodeBytes (bytes : List UInt8) :
    percentDecode ((encodeBytes bytes).map plusToSpace) = bytes := by
  unfold encodeBytes
  induction bytes with
  | nil => rfl
  | cons b bytes ih =>
      rw [List.flatMap_cons, List.map_append, percentDecode_encodeByte, ih]

theorem decodeText_encodeText (text : String) : decodeText (encodeText text) = text := by
  rw [decodeText, encodeText, percentDecode_encodeBytes, Utf8.decode_encode, String.ofList_toList]

/-! ### Taking apart what was put together -/

/-- A byte that is written is ASCII and neither `&` nor `=`. -/
theorem encodeByte_bounds {b x : UInt8} (h : x ∈ encodeByte b) :
    x.toNat < 128 ∧ x.toNat ≠ 38 ∧ x.toNat ≠ 61 := by
  have hdigit : ∀ n, n < 16 → (hexDigit n).toNat < 128 ∧ (hexDigit n).toNat ≠ 38 ∧
      (hexDigit n).toNat ≠ 61 := by
    intro n hn
    rw [toNat_hexDigit hn]
    split
    · omega
    · omega
  unfold encodeByte at h
  by_cases hplain : isPlain b = true
  · rw [if_pos hplain, List.mem_singleton] at h
    simp only [isPlain, decide_eq_true_eq] at hplain
    rw [h]
    omega
  · rw [if_neg hplain] at h
    by_cases hspace : b.toNat = 32
    · rw [if_pos hspace, List.mem_singleton] at h
      rw [h]
      decide
    · have hlt : b.toNat < 256 := b.toNat_lt
      rw [if_neg hspace] at h
      simp only [List.mem_cons, List.not_mem_nil, or_false] at h
      rcases h with rfl | rfl | rfl
      · decide
      · exact hdigit _ (by omega)
      · exact hdigit _ (by omega)

theorem encodeText_bounds {text : String} {x : UInt8} (h : x ∈ encodeText text) :
    x.toNat < 128 ∧ x.toNat ≠ 38 ∧ x.toNat ≠ 61 := by
  rcases List.mem_flatMap.mp h with ⟨b, -, hb⟩
  exact encodeByte_bounds hb

theorem serializePair_bounds {pair : String × String} {x : UInt8} (h : x ∈ serializePair pair) :
    x.toNat < 128 ∧ x.toNat ≠ 38 := by
  rcases List.mem_append.mp h with hname | hrest
  · have hbounds := encodeText_bounds hname
    exact ⟨hbounds.1, hbounds.2.1⟩
  · rcases List.mem_cons.mp hrest with rfl | hvalue
    · decide
    · have hbounds := encodeText_bounds hvalue
      exact ⟨hbounds.1, hbounds.2.1⟩

theorem parsePair_serializePair (pair : String × String) :
    parsePair (serializePair pair) = pair := by
  have hname : ∀ x ∈ encodeText pair.1, (decide (x ≠ 61)) = true := by
    intro x hx
    refine decide_eq_true fun heq => (encodeText_bounds hx).2.2 ?_
    rw [heq]
    rfl
  have htake : (serializePair pair).takeWhile (· ≠ 61) = encodeText pair.1 := by
    rw [serializePair, List.takeWhile_append_of_pos hname, List.takeWhile_cons_of_neg (by simp),
      List.append_nil]
  have hdrop : (serializePair pair).dropWhile (· ≠ 61) = 61 :: encodeText pair.2 := by
    rw [serializePair, List.dropWhile_append_of_pos hname, List.dropWhile_cons_of_neg (by simp)]
  rw [parsePair, htake, hdrop, List.drop_one, List.tail_cons, decodeText_encodeText,
    decodeText_encodeText]

theorem serializePair_ne_nil (pair : String × String) : serializePair pair ≠ [] := by
  simp [serializePair]

theorem parse_serialize (pairs : List (String × String)) : parse (serialize pairs) = pairs := by
  cases pairs with
  | nil => rfl
  | cons pair pairs =>
      have hsep : ∀ piece ∈ (pair :: pairs).map serializePair, (38 : UInt8) ∉ piece := by
        intro piece hpiece hmem
        rcases List.mem_map.mp hpiece with ⟨p, -, rfl⟩
        exact (serializePair_bounds hmem).2 rfl
      have hkeep : ((pair :: pairs).map serializePair).filter (· ≠ [])
          = (pair :: pairs).map serializePair := by
        refine List.filter_eq_self.mpr fun piece hpiece => ?_
        rcases List.mem_map.mp hpiece with ⟨p, -, rfl⟩
        exact decide_eq_true (serializePair_ne_nil p)
      rw [parse, serialize, List.splitOn_intercalate _ hsep (by simp), hkeep, List.map_map]
      refine (List.map_congr_left fun p _ => ?_).trans (List.map_id _)
      exact parsePair_serializePair p

theorem ascii_serialize {pairs : List (String × String)} {x : UInt8} (h : x ∈ serialize pairs) :
    x.toNat < 128 := by
  unfold serialize at h
  induction pairs with
  | nil => cases h
  | cons pair pairs ih =>
      cases pairs with
      | nil =>
          rw [List.map_singleton, List.intercalate_singleton] at h
          exact (serializePair_bounds h).1
      | cons pair' pairs =>
          rw [List.map_cons, List.map_cons, List.intercalate_cons_cons, ← List.map_cons,
            List.append_assoc] at h
          rcases List.mem_append.mp h with hpair | hrest
          · exact (serializePair_bounds hpair).1
          · rcases List.mem_cons.mp hrest with rfl | hpairs
            · decide
            · exact ih hpairs

end UrlEncoded

end MmrEngine
