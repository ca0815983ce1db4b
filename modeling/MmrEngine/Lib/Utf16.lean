import Mathlib.Data.List.DropRight
import Mathlib.Tactic.Ring

/-!
# UTF-16

Texts as code units, and as the scalar values they stand for.

A character beyond the first plane is written as two units, a high surrogate and
a low one. Sequences of units are more than texts: a surrogate can be alone.
Such a one is read as U+FFFD, so reading and writing gives a text back
(`toScalar_encode`) and keeps the length of any sequence (`length_encode_toScalar`),
but not always its units.

Where a text is cut, only its last character can be cut in two, and a high
surrogate at the end tells (`take_encode`).

## Main definitions

* `encodeChar`, `encode`: Scalar values as code units.
* `toScalar`: Code units as scalar values.
* `EndsHigh`: The last unit is a high surrogate.

## Theorems

* `toScalar_encode`: Reading what was written.
* `not_endsHigh_encode`: What was written does not end in half a character.
* `length_encode_toScalar`: Reading and writing keeps the length.
* `take_encode`: What was cut elsewhere than in a character is a text.
-/

namespace MmrEngine

namespace Utf16

def isHigh (u : UInt16) : Bool := 0xD800 ≤ u.toNat ∧ u.toNat < 0xDC00

def isLow (u : UInt16) : Bool := 0xDC00 ≤ u.toNat ∧ u.toNat < 0xE000

/-- One unit, or two beyond the first plane. -/
def encodeChar (c : Char) : List UInt16 :=
  if c.toNat < 0x10000 then [UInt16.ofNat c.toNat]
  else
    [UInt16.ofNat (0xD800 + (c.toNat - 0x10000) / 0x400),
      UInt16.ofNat (0xDC00 + (c.toNat - 0x10000) % 0x400)]

def encode (l : List Char) : List UInt16 := l.flatMap encodeChar

/-- U+FFFD. -/
def replacement : Char := '\uFFFD'

/-- The scalar values, with a replacement for every surrogate that is alone. -/
def toScalar : List UInt16 → List Char
  | [] => []
  | [u] => [if isHigh u || isLow u then replacement else Char.ofNat u.toNat]
  | u :: v :: rest =>
    if isHigh u then
      if isLow v then
        Char.ofNat (0x10000 + (u.toNat - 0xD800) * 0x400 + (v.toNat - 0xDC00)) :: toScalar rest
      else replacement :: toScalar (v :: rest)
    else if isLow u then replacement :: toScalar (v :: rest)
    else Char.ofNat u.toNat :: toScalar (v :: rest)

@[simp] theorem encode_nil : encode [] = [] := rfl

@[simp] theorem encode_cons (c : Char) (l : List Char) :
    encode (c :: l) = encodeChar c ++ encode l := List.flatMap_cons

theorem encode_append (l l' : List Char) : encode (l ++ l') = encode l ++ encode l' :=
  List.flatMap_append

theorem toNat_unit {n : Nat} (h : n < 0x10000) : (UInt16.ofNat n).toNat = n :=
  UInt16.toNat_ofNat_of_lt' h

/-- A unit that is below the surrogates or above them. -/
theorem not_surrogate_of_bounds {u : UInt16} (h : u.toNat < 0xD800 ∨ 0xE000 ≤ u.toNat) :
    isHigh u = false ∧ isLow u = false := by
  rw [isHigh, isLow, decide_eq_false_iff_not, decide_eq_false_iff_not]
  omega

/-- A scalar value is no surrogate. -/
theorem not_surrogate (c : Char) : c.toNat < 0xD800 ∨ (0xE000 ≤ c.toNat ∧ c.toNat < 0x110000) := by
  rcases c.valid with hlow | ⟨hlow, hhigh⟩
  · exact Or.inl hlow
  · exact Or.inr ⟨hlow, hhigh⟩

/-- A character is one unit that is no surrogate, or a pair. -/
theorem encodeChar_cases (c : Char) :
    (∃ u, encodeChar c = [u] ∧ isHigh u = false ∧ isLow u = false ∧ u.toNat = c.toNat) ∨
    ∃ u v, encodeChar c = [u, v] ∧ isHigh u = true ∧ isLow v = true ∧
      c.toNat = 0x10000 + (u.toNat - 0xD800) * 0x400 + (v.toNat - 0xDC00) := by
  have hscalar := not_surrogate c
  unfold encodeChar
  -- Within the first plane the unit is the scalar value.
  by_cases hplane : c.toNat < 0x10000
  · have hnat : (UInt16.ofNat c.toNat).toNat = c.toNat := toNat_unit hplane
    have hneither := not_surrogate_of_bounds (u := UInt16.ofNat c.toNat) (by omega)
    rw [if_pos hplane]
    exact Or.inl ⟨_, rfl, hneither.1, hneither.2, hnat⟩
  · rw [if_neg hplane]
    have hhigh : (UInt16.ofNat (0xD800 + (c.toNat - 0x10000) / 0x400)).toNat
        = 0xD800 + (c.toNat - 0x10000) / 0x400 := toNat_unit (by omega)
    have hlow : (UInt16.ofNat (0xDC00 + (c.toNat - 0x10000) % 0x400)).toNat
        = 0xDC00 + (c.toNat - 0x10000) % 0x400 := toNat_unit (by omega)
    refine Or.inr ⟨_, _, rfl, ?_, ?_, ?_⟩
    · rw [isHigh, hhigh, decide_eq_true_eq]
      omega
    · rw [isLow, hlow, decide_eq_true_eq]
      omega
    · rw [hhigh, hlow]
      omega

theorem not_isHigh_of_isLow {u : UInt16} (h : isLow u = true) : isHigh u = false := by
  rw [isLow, decide_eq_true_eq] at h
  rw [isHigh, decide_eq_false_iff_not]
  omega

/-! ### Reading what was written -/

/-- A unit that is no surrogate is read on its own. -/
theorem toScalar_cons {u : UInt16} (hhigh : isHigh u = false) (hlow : isLow u = false)
    (rest : List UInt16) : toScalar (u :: rest) = Char.ofNat u.toNat :: toScalar rest := by
  cases rest with
  | nil => simp [toScalar, hhigh, hlow]
  | cons v rest => simp [toScalar, hhigh, hlow]

theorem toScalar_encodeChar (c : Char) (rest : List UInt16) :
    toScalar (encodeChar c ++ rest) = c :: toScalar rest := by
  rcases encodeChar_cases c with ⟨u, hunits, hhigh, hlow, hnat⟩ | ⟨u, v, hunits, hhigh, hlow, hnat⟩
  · rw [hunits, List.singleton_append, toScalar_cons hhigh hlow, hnat, Char.ofNat_toNat]
  · rw [hunits, List.cons_append, List.singleton_append, toScalar, if_pos hhigh, if_pos hlow,
      ← hnat, Char.ofNat_toNat]

theorem toScalar_encode (l : List Char) : toScalar (encode l) = l := by
  induction l with
  | nil => rfl
  | cons c l ih => rw [encode_cons, toScalar_encodeChar, ih]

/-! ### Writing what was read -/

/-- The last unit is a high surrogate. -/
def EndsHigh (s : List UInt16) : Prop := ∃ u ∈ s.getLast?, isHigh u = true

instance (s : List UInt16) : Decidable (EndsHigh s) :=
  match h : s.getLast? with
  | none => isFalse fun ⟨u, hu, _⟩ => by simp [h] at hu
  | some u => decidable_of_iff (isHigh u = true) (by simp [EndsHigh, h])

theorem not_endsHigh_encode (l : List Char) : ¬ EndsHigh (encode l) := by
  rintro ⟨u, hu, hhigh⟩
  induction l using List.reverseRecOn with
  | nil => cases hu
  | append_singleton l c ih =>
      rw [encode_append, encode_cons, encode_nil, List.append_nil] at hu
      rcases encodeChar_cases c with ⟨w, hunits, hnot, -⟩ | ⟨w, x, hunits, -, hlow, -⟩
      · rw [hunits, List.getLast?_append, List.getLast?_singleton] at hu
        rw [← Option.mem_some_iff.mp hu] at hhigh
        rw [hnot] at hhigh
        cases hhigh
      · rw [hunits, List.getLast?_append] at hu
        rw [← Option.mem_some_iff.mp hu] at hhigh
        have hnot := not_isHigh_of_isLow hlow
        rw [List.getLast_cons (by simp), List.getLast_singleton] at hhigh
        rw [hnot] at hhigh
        cases hhigh

theorem toNat_ofNat {n : Nat} (h : n.isValidChar) : (Char.ofNat n).toNat = n := by
  rw [Char.ofNat, dif_pos h]
  rfl

/-- Where one unit is read, one is written. -/
theorem length_encodeChar_ofNat {u : UInt16} (hhigh : isHigh u = false) (hlow : isLow u = false) :
    (encodeChar (Char.ofNat u.toNat)).length = 1 := by
  rw [isHigh, decide_eq_false_iff_not] at hhigh
  rw [isLow, decide_eq_false_iff_not] at hlow
  have hlt : u.toNat < 65536 := u.toNat_lt
  have hvalid : u.toNat.isValidChar := by
    unfold Nat.isValidChar
    omega
  rw [encodeChar, toNat_ofNat hvalid, if_pos hlt, List.length_singleton]

/-- Where a pair is read, two are written. -/
theorem length_encodeChar_pair {u v : UInt16} (hhigh : isHigh u = true) (hlow : isLow v = true) :
    (encodeChar (Char.ofNat
      (0x10000 + (u.toNat - 0xD800) * 0x400 + (v.toNat - 0xDC00)))).length = 2 := by
  rw [isHigh, decide_eq_true_eq] at hhigh
  rw [isLow, decide_eq_true_eq] at hlow
  have hvalid :
      (0x10000 + (u.toNat - 0xD800) * 0x400 + (v.toNat - 0xDC00)).isValidChar := by
    unfold Nat.isValidChar
    omega
  rw [encodeChar, toNat_ofNat hvalid, if_neg (by omega)]
  rfl

/-- A surrogate that is alone becomes one unit, too. -/
theorem length_encodeChar_replacement : (encodeChar replacement).length = 1 := by decide

theorem length_encode_toScalar (s : List UInt16) : (encode (toScalar s)).length = s.length := by
  fun_induction toScalar s with
  | case1 => rfl
  | case2 u =>
      rw [encode_cons, encode_nil, List.append_nil]
      by_cases halone : (isHigh u || isLow u) = true
      · rw [if_pos halone]
        exact length_encodeChar_replacement
      · rw [Bool.not_eq_true, Bool.or_eq_false_iff] at halone
        rw [if_neg (by simp [halone])]
        exact length_encodeChar_ofNat halone.1 halone.2
  | case3 u v rest hhigh hlow ih =>
      rw [encode_cons, List.length_append, length_encodeChar_pair hhigh hlow, ih, List.length_cons,
        List.length_cons]
      omega
  | case4 u v rest hhigh hlow ih =>
      rw [encode_cons, List.length_append, length_encodeChar_replacement, ih]
      simp only [List.length_cons]
      omega
  | case5 u v rest hhigh hlow ih =>
      rw [encode_cons, List.length_append, length_encodeChar_replacement, ih]
      simp only [List.length_cons]
      omega
  | case6 u v rest hhigh hlow ih =>
      rw [encode_cons, List.length_append, length_encodeChar_ofNat (Bool.eq_false_iff.mpr hhigh)
        (Bool.eq_false_iff.mpr hlow), ih]
      simp only [List.length_cons]
      omega

/-! ### Cutting -/

/-- A cut that leaves no high surrogate at the end is between two characters. -/
theorem take_encode (l : List Char) (n : Nat) (h : ¬ EndsHigh ((encode l).take n)) :
    ∃ l', (encode l).take n = encode l' := by
  induction l generalizing n with
  | nil => exact ⟨[], List.take_nil⟩
  | cons c l ih =>
      cases n with
      | zero => exact ⟨[], rfl⟩
      | succ n =>
          rw [encode_cons] at h ⊢
          rcases encodeChar_cases c with ⟨u, hunits, -⟩ | ⟨u, v, hunits, hhigh, -⟩
          · rw [hunits, List.singleton_append, List.take_succ_cons] at h ⊢
            have hrest : ¬ EndsHigh ((encode l).take n) := by
              rintro ⟨w, hw, hwhigh⟩
              exact h ⟨w, List.mem_getLast?_cons hw, hwhigh⟩
            rcases ih n hrest with ⟨l', hl'⟩
            exact ⟨c :: l', by rw [encode_cons, hunits, hl']; rfl⟩
          · rw [hunits, List.cons_append, List.singleton_append] at h ⊢
            cases n with
            | zero =>
                -- Only the first half of the character is left.
                exact absurd ⟨u, rfl, hhigh⟩ h
            | succ n =>
                rw [List.take_succ_cons, List.take_succ_cons] at h ⊢
                have hrest : ¬ EndsHigh ((encode l).take n) := by
                  rintro ⟨w, hw, hwhigh⟩
                  exact h ⟨w, List.mem_getLast?_cons (List.mem_getLast?_cons hw), hwhigh⟩
                rcases ih n hrest with ⟨l', hl'⟩
                exact ⟨c :: l', by rw [encode_cons, hunits, hl']; rfl⟩

/-- Such a cut is read and written back, and no other is. -/
theorem encode_toScalar_take (l : List Char) (n : Nat) :
    encode (toScalar ((encode l).take n)) = (encode l).take n ↔
      ¬ EndsHigh ((encode l).take n) := by
  constructor
  · intro h
    rw [← h]
    exact not_endsHigh_encode _
  · intro h
    rcases take_encode l n h with ⟨l', hl'⟩
    rw [hl', toScalar_encode]

end Utf16

end MmrEngine
