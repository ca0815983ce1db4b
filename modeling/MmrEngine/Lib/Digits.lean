import Mathlib.Data.List.Induction
import Mathlib.Data.Nat.Digits.Defs
import Mathlib.Tactic.Ring

/-!
# Decimal Digits

Texts of decimal digits and the numbers they stand for.

Reading a printed number gives the number. Printing what was read gives the
text back where it has no superfluous leading zero (`toDigits_value`), and where
it is padded to the length it had (`padded_value`): of texts of one length each
number has one (`eq_of_value_eq`).

## Main definitions

* `AllDigits`: A text of decimal digits.
* `value`: The number it stands for.
* `hexValue`: The value of a hexadecimal digit.
* `padded`: A number in at least so many digits.
* `Canonical`: No superfluous leading zero.

## Theorems

* `value_toDigits`, `value_padded`: Reading what was printed.
* `toDigits_value`, `padded_value`: Printing what was read.
* `value_lt`: How large a number of so many digits is.
* `eq_of_value_eq`: Texts of one length with one value.
* `lt_of_value_lt`, `padded_append_lt`: Texts of one length are ordered as their values.
-/

namespace MmrEngine

namespace Digits

/-- Decimal digits only. -/
def AllDigits (l : List Char) : Prop := ∀ c ∈ l, c.isDigit = true

/-- The number a text of digits stands for. -/
def value (l : List Char) : Nat := Nat.ofDigitChars 10 l 0

/-- The value of a hexadecimal digit, large or small, by its code. -/
def hexValue (code : Nat) : Option Nat :=
  if 48 ≤ code ∧ code ≤ 57 then some (code - 48)
  else if 65 ≤ code ∧ code ≤ 70 then some (code - 55)
  else if 97 ≤ code ∧ code ≤ 102 then some (code - 87)
  else none

/-- A number in at least so many digits, filled with zeros. -/
def padded (width n : Nat) : List Char := (Nat.toDigits 10 n).leftpad width '0'

@[simp] theorem value_nil : value [] = 0 := rfl

theorem value_append (l l' : List Char) :
    value (l ++ l') = 10 ^ l'.length * value l + value l' := by
  rw [value, Nat.ofDigitChars_append, Nat.ofDigitChars_eq_ofDigitChars_zero]
  rfl

/-- A digit behind the others. -/
theorem value_concat (l : List Char) (c : Char) : value (l ++ [c]) = 10 * value l + value [c] := by
  rw [value_append, List.length_singleton, pow_one]

theorem value_cons (c : Char) (l : List Char) :
    value (c :: l) = 10 ^ l.length * value [c] + value l := value_append [c] l

theorem value_singleton (c : Char) : value [c] = c.toNat - '0'.toNat := by
  rw [value, Nat.ofDigitChars_cons, Nat.ofDigitChars_nil, mul_zero, zero_add]

theorem isDigit_iff {c : Char} : c.isDigit = true ↔ 48 ≤ c.toNat ∧ c.toNat ≤ 57 := by
  rw [Char.isDigit, Bool.and_eq_true, decide_eq_true_eq, decide_eq_true_eq, ge_iff_le,
    UInt32.le_iff_toNat_le, UInt32.le_iff_toNat_le]
  rfl

theorem value_singleton_lt {c : Char} (h : c.isDigit = true) : value [c] < 10 := by
  rw [isDigit_iff] at h
  have h48 : '0'.toNat = 48 := rfl
  rw [value_singleton, h48]
  omega

/-- A digit is the one its value is printed as. -/
theorem digitChar_value {c : Char} (h : c.isDigit = true) : Nat.digitChar (value [c]) = c := by
  have hlt := value_singleton_lt h
  have hc := isDigit_iff.mp h
  have h48 : '0'.toNat = 48 := rfl
  apply Char.toNat_inj.mp
  rw [Nat.toNat_digitChar_of_lt_ten hlt, value_singleton, h48]
  omega

/-! ### Reading what was printed -/

theorem value_toDigits (n : Nat) : value (Nat.toDigits 10 n) = n := Nat.ofDigitChars_ten_toDigits

theorem allDigits_toDigits (n : Nat) : AllDigits (Nat.toDigits 10 n) := fun _ hc =>
  Nat.isDigit_of_mem_toDigits (by omega) (by omega) hc

theorem value_replicate_zero (n : Nat) : value (List.replicate n '0') = 0 := by
  rw [value, Nat.ofDigitChars_replicate_zero, mul_zero]

theorem value_padded (width n : Nat) : value (padded width n) = n := by
  rw [padded, List.leftpad, value_append, value_replicate_zero, mul_zero, zero_add, value_toDigits]

theorem allDigits_padded (width n : Nat) : AllDigits (padded width n) := by
  intro c hc
  rw [padded, List.leftpad] at hc
  rcases List.mem_append.mp hc with hzero | hdigit
  · rw [List.eq_of_mem_replicate hzero]
    rfl
  · exact allDigits_toDigits n c hdigit

/-- A number that fits is as long as it is meant to be. -/
theorem length_padded {width n : Nat} (hwidth : 0 < width) (h : n < 10 ^ width) :
    (padded width n).length = width := by
  have hlength := (Nat.length_toDigits_le_iff (by omega) hwidth).mpr h
  rw [padded, List.leftpad, List.length_append, List.length_replicate]
  omega

/-! ### Printing what was read -/

theorem AllDigits.of_append {l l' : List Char} (h : AllDigits (l ++ l')) :
    AllDigits l ∧ AllDigits l' :=
  ⟨fun c hc => h c (List.mem_append_left _ hc), fun c hc => h c (List.mem_append_right _ hc)⟩

theorem AllDigits.append {l l' : List Char} (h : AllDigits l) (h' : AllDigits l') :
    AllDigits (l ++ l') := by
  intro c hc
  rcases List.mem_append.mp hc with hl | hl'
  · exact h c hl
  · exact h' c hl'

/-- So many digits stand for less than that power of ten. -/
theorem value_lt {l : List Char} (h : AllDigits l) : value l < 10 ^ l.length := by
  induction l using List.reverseRecOn with
  | nil => exact Nat.one_pos
  | append_singleton l c ih =>
      have hl := ih h.of_append.1
      have hc := value_singleton_lt (h c (List.mem_append_right _ List.mem_cons_self))
      rw [value_concat, List.length_append, List.length_singleton, pow_succ]
      omega

/-- Of texts of one length, each number has one. -/
theorem eq_of_value_eq {l l' : List Char} (h : AllDigits l) (h' : AllDigits l')
    (hlength : l.length = l'.length) (hvalue : value l = value l') : l = l' := by
  induction l using List.reverseRecOn generalizing l' with
  | nil => exact (List.length_eq_zero_iff.mp hlength.symm).symm
  | append_singleton l c ih =>
      cases l' using List.reverseRecOn with
      | nil => simp at hlength
      | append_singleton l'' c' =>
          have hc := h c (List.mem_append_right _ List.mem_cons_self)
          have hc' := h' c' (List.mem_append_right _ List.mem_cons_self)
          have hlt := value_singleton_lt hc
          have hlt' := value_singleton_lt hc'
          -- The last digits are the remainders, the others the quotients.
          rw [value_concat, value_concat] at hvalue
          have hlast : value [c] = value [c'] := by omega
          have hrest : value l = value l'' := by omega
          have hlen : l.length = l''.length := by simpa using hlength
          rw [ih h.of_append.1 h'.of_append.1 hlen hrest, ← digitChar_value hc,
            ← digitChar_value hc', hlast]

/-- A number in the length its text had is the text. -/
theorem padded_value {l : List Char} (h : AllDigits l) (hne : l ≠ []) :
    padded l.length (value l) = l := by
  have hpos : 0 < l.length := List.length_pos_iff.mpr hne
  exact eq_of_value_eq (allDigits_padded _ _) h (length_padded hpos (value_lt h)) (value_padded _ _)

/-- No leading zero but that of zero itself. -/
def Canonical (l : List Char) : Prop :=
  AllDigits l ∧ (l = ['0'] ∨ ∃ c rest, l = c :: rest ∧ c ≠ '0')

theorem Canonical.ne_nil {l : List Char} (h : Canonical l) : l ≠ [] := by
  rcases h.2 with rfl | ⟨c, rest, rfl, -⟩
  · exact List.cons_ne_nil _ _
  · exact List.cons_ne_nil _ _

/-- A digit other than zero in front makes the number at least as long. -/
theorem pow_le_value {c : Char} {rest : List Char} (h : AllDigits (c :: rest)) (hc : c ≠ '0') :
    10 ^ rest.length ≤ value (c :: rest) := by
  have hdigit := h c List.mem_cons_self
  have hpos : 0 < value [c] := by
    by_contra hzero
    have hval : value [c] = 0 := by omega
    have hchar := digitChar_value hdigit
    rw [hval] at hchar
    exact hc hchar.symm
  rw [value_cons]
  calc 10 ^ rest.length = 10 ^ rest.length * 1 := (mul_one _).symm
    _ ≤ 10 ^ rest.length * value [c] := Nat.mul_le_mul_left _ hpos
    _ ≤ 10 ^ rest.length * value [c] + value rest := Nat.le_add_right _ _

/-- Printed, such a text is itself again. -/
theorem toDigits_value {l : List Char} (h : Canonical l) : Nat.toDigits 10 (value l) = l := by
  have hne := h.ne_nil
  rcases h with ⟨hdigits, rfl | ⟨c, rest, rfl, hc⟩⟩
  · rfl
  · -- The printed text has the same value and, as it can be no shorter, the same length.
    refine eq_of_value_eq (allDigits_toDigits _) hdigits ?_ (value_toDigits _)
    have hle : (Nat.toDigits 10 (value (c :: rest))).length ≤ rest.length + 1 :=
      (Nat.length_toDigits_le_iff (by omega) (by omega)).mpr (value_lt hdigits)
    have hge : rest.length < (Nat.toDigits 10 (value (c :: rest))).length := by
      by_contra hlt
      have hpow := pow_le_value hdigits hc
      have hself := value_lt (allDigits_toDigits (value (c :: rest)))
      rw [value_toDigits] at hself
      have hmono : 10 ^ (Nat.toDigits 10 (value (c :: rest))).length ≤ 10 ^ rest.length :=
        Nat.pow_le_pow_right (by omega) (by omega)
      omega
    rw [List.length_cons]
    omega

/-- A printed number has no superfluous zero. -/
theorem canonical_toDigits (n : Nat) : Canonical (Nat.toDigits 10 n) := by
  refine ⟨allDigits_toDigits n, ?_⟩
  induction n using Nat.strong_induction_on with
  | _ n ih =>
      by_cases hn : n < 10
      · rw [Nat.toDigits_of_lt_base hn]
        by_cases hzero : n = 0
        · rw [hzero]
          exact Or.inl rfl
        · refine Or.inr ⟨_, [], rfl, fun hc => hzero ?_⟩
          have hnat := congrArg Char.toNat hc
          rw [Nat.toNat_digitChar_of_lt_ten hn] at hnat
          have h48 : '0'.toNat = 48 := rfl
          omega
      · -- The leading digit is that of the quotient, which is not zero.
        rw [Nat.toDigits_of_base_le (by omega) (by omega)]
        rcases ih (n / 10) (by omega) with hzero | ⟨c, rest, heq, hc⟩
        · have hval := value_toDigits (n / 10)
          rw [hzero] at hval
          have hval0 : value ['0'] = 0 := rfl
          omega
        · exact Or.inr ⟨c, rest ++ [Nat.digitChar (n % 10)], by rw [heq]; rfl, hc⟩

/-! ### Order -/

/-- Texts of one length are ordered as their values are. -/
theorem lt_of_value_lt {l l' : List Char} (h : AllDigits l) (h' : AllDigits l')
    (hlength : l.length = l'.length) (hvalue : value l < value l') : l < l' := by
  induction l generalizing l' with
  | nil =>
      rw [List.length_eq_zero_iff.mp hlength.symm] at hvalue
      exact absurd hvalue (lt_irrefl _)
  | cons c l ih =>
      cases l' with
      | nil => simp at hlength
      | cons c' l' =>
          have hlen : l.length = l'.length := by simpa using hlength
          have hc := h c List.mem_cons_self
          have hc' := h' c' List.mem_cons_self
          have hrest : AllDigits l := fun x hx => h x (List.mem_cons_of_mem _ hx)
          have hrest' : AllDigits l' := fun x hx => h' x (List.mem_cons_of_mem _ hx)
          have hlt := value_lt hrest
          have hlt' := value_lt hrest'
          rw [value_cons c, value_cons c', hlen] at hvalue
          rw [hlen] at hlt
          rw [List.cons_lt_cons_iff]
          -- The first digit decides, and where it does not the rest does.
          rcases Nat.lt_trichotomy (value [c]) (value [c']) with hlow | heq | hhigh
          · left
            rw [value_singleton, value_singleton] at hlow
            rw [Char.lt_def, UInt32.lt_iff_toNat_lt]
            have hnat : c.toNat < c'.toNat := by omega
            exact hnat
          · refine Or.inr ⟨?_, ih hrest hrest' hlen ?_⟩
            · rw [← digitChar_value hc, heq, digitChar_value hc']
            · rw [heq] at hvalue
              omega
          · have hmul : 10 ^ l'.length * (value [c'] + 1) ≤ 10 ^ l'.length * value [c] :=
              Nat.mul_le_mul_left _ hhigh
            rw [mul_add, mul_one] at hmul
            omega

/-- What comes behind does not matter then. -/
theorem append_lt_append {l l' : List Char} (hlength : l.length = l'.length) (h : l < l')
    (r r' : List Char) : l ++ r < l' ++ r' := by
  induction l generalizing l' with
  | nil =>
      rw [List.length_eq_zero_iff.mp hlength.symm] at h
      exact absurd h (List.lt_irrefl _)
  | cons c l ih =>
      cases l' with
      | nil => simp at hlength
      | cons c' l' =>
          rw [List.cons_append, List.cons_append, List.cons_lt_cons_iff]
          rcases List.cons_lt_cons_iff.mp h with hlt | ⟨heq, hlt⟩
          · exact Or.inl hlt
          · exact Or.inr ⟨heq, ih (by simpa using hlength) hlt⟩

/-- A padded number and a text behind it are ordered as the number and whatever
    the text is ordered by. -/
theorem padded_append_lt {width m n : Nat} (hwidth : 0 < width) (hm : m < 10 ^ width)
    (hn : n < 10 ^ width) {l l' : List Nat} {r r' : List Char} (h : m :: l < n :: l')
    (hrest : l < l' → r < r') : padded width m ++ r < padded width n ++ r' := by
  have hlm := length_padded hwidth hm
  have hln := length_padded hwidth hn
  rcases List.cons_lt_cons_iff.mp h with hlt | ⟨rfl, hlt⟩
  · refine append_lt_append (hlm.trans hln.symm) ?_ r r'
    refine lt_of_value_lt (allDigits_padded _ _) (allDigits_padded _ _) (hlm.trans hln.symm) ?_
    rw [value_padded, value_padded]
    exact hlt
  · exact List.append_left_lt (hrest hlt)

end Digits

end MmrEngine
