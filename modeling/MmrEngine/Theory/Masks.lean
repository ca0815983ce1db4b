import MmrEngine.Engine.Masking

/-!
# What a Mask Shows

An account number, a BVN and a phone number are masked the same way: some
characters at either end stay, everything between them becomes an asterisk,
and a text too short to have both ends becomes asterisks altogether. The three
functions differ in how many characters stay where, so each is brought to
`endsShown` with its own two numbers and the rest is proved once.

The shape is that of the documentation for every length, and no mask shows
more than its two ends. What fails is that something is hidden: a text with
exactly the characters of the two ends has nothing between them, and is
returned as it is.

## Main definitions

* `endsShown`: A text masked between its ends.
* `covered`: A text position by position, hidden except at its ends.
* `shown`: How many characters of a mask are not asterisks.
* `Hides`: What is expected of a mask on a text.

## Theorems

* `endsShown_eq_covered`: The slices of a mask hide position by position.
* `shown_endsShown_le`: A mask shows no more than its ends.
* `endsShown_ne_iff`: A mask changes a text exactly when it has more or fewer
  characters than its ends.
* `masks_hide_iff`: All of it, for the three functions.
-/

namespace MmrEngine

namespace Pii

variable [PyLibrary]

/-- A text with its ends showing and asterisks between them, or only asterisks
    where it does not have both ends. -/
def endsShown (first last : Nat) (short : String) (s : String) : String :=
  if first + last ≤ s.toList.length then
    takeFirst s first ++ stars (s.toList.length - (first + last)) ++ takeLast s last
  else short

/-- Every position hidden except the first ones and the last ones. -/
def covered (first last : Nat) (cs : List Char) : List Char :=
  cs.mapIdx fun i c => if i < first ∨ cs.length ≤ i + last then c else '*'

/-- The characters of a mask that are not hidden. -/
def shown (masked : String) : Nat := (masked.toList.filter (· ≠ '*')).length

/-- What is expected of a mask on a text: the documented shape, no more than the
    two ends showing, and something hidden. -/
structure Hides (first last : Nat) (mask : Option String → Option String) (text : String) : Prop
    where
  shape : ∃ masked, mask (some text) = some masked ∧
    (first + last ≤ (strip text).toList.length →
      masked.toList = covered first last (strip text).toList) ∧
    ((strip text).toList.length < first + last →
      ∃ n, 0 < n ∧ masked.toList = List.replicate n '*')
  bounded : ∀ masked, mask (some text) = some masked → shown masked ≤ first + last
  changed : mask (some text) ≠ some (strip text)

omit [PyLibrary] in
theorem toList_endsShown {first last : Nat} {short s : String}
    (h : first + last ≤ s.toList.length) :
    (endsShown first last short s).toList
      = s.toList.take first ++ (List.replicate (s.toList.length - (first + last)) '*'
        ++ s.toList.drop (s.toList.length - last)) := by
  rw [endsShown, if_pos h]
  simp [List.append_assoc]

omit [PyLibrary] in
/-- The slices and the run of asterisks hide position by position. -/
theorem endsShown_eq_covered {first last : Nat} {short s : String}
    (h : first + last ≤ s.toList.length) :
    (endsShown first last short s).toList = covered first last s.toList := by
  rw [toList_endsShown h]
  refine List.ext_getElem ?_ (fun i hleft hright => ?_)
  · simp [covered]
    omega
  · -- The first characters, the asterisks and the last characters, by position.
    have hi : i < s.toList.length := by simpa [covered] using hright
    have htake : (s.toList.take first).length = first := by
      rw [List.length_take]
      omega
    simp only [covered, List.getElem_mapIdx]
    by_cases hfirst : i < first
    · rw [List.getElem_append_left (by omega), if_pos (Or.inl hfirst), List.getElem_take]
    · rw [List.getElem_append_right (by omega)]
      by_cases hmiddle : i + last < s.toList.length
      · rw [List.getElem_append_left (by simp; omega), List.getElem_replicate,
          if_neg (by omega)]
      · rw [List.getElem_append_right (by simp; omega), List.getElem_drop, if_pos (by omega)]
        congr 1
        simp
        omega

omit [PyLibrary] in
theorem shown_endsShown_le {first last : Nat} {short s : String} (hshort : shown short = 0) :
    shown (endsShown first last short s) ≤ first + last := by
  by_cases h : first + last ≤ s.toList.length
  · have hfirst := List.length_filter_le (· ≠ '*') (s.toList.take first)
    have hlast := List.length_filter_le (· ≠ '*') (s.toList.drop (s.toList.length - last))
    have hstars : (List.replicate (s.toList.length - (first + last)) '*').filter (· ≠ '*') = [] :=
      List.filter_eq_nil_iff.mpr fun c hc => by simp [List.eq_of_mem_replicate hc]
    rw [List.length_take] at hfirst
    rw [List.length_drop] at hlast
    rw [shown, toList_endsShown h, List.filter_append, List.filter_append, hstars,
      List.length_append, List.nil_append]
    omega
  · rw [endsShown, if_neg h, hshort]
    exact Nat.zero_le _

omit [PyLibrary] in
/-- A mask changes a text without asterisks exactly when it has more or fewer
    characters than the two ends. -/
theorem endsShown_ne_iff {first last : Nat} {short s : String} (hshort : shown short = 0)
    (hne : s ≠ "") (hplain : '*' ∉ s.toList) :
    endsShown first last short s ≠ s ↔ s.toList.length ≠ first + last := by
  by_cases h : first + last ≤ s.toList.length
  · constructor
    · intro hchanged hlen
      -- The two ends are all there is.
      refine hchanged (String.toList_injective ?_)
      rw [toList_endsShown h, hlen, Nat.sub_self, List.replicate_zero, List.nil_append,
        Nat.add_sub_cancel, List.take_append_drop]
    · intro hlen heq
      -- The asterisks between the ends are not in the text.
      refine hplain ?_
      rw [← heq, toList_endsShown h]
      simp
      omega
  · refine iff_of_true (fun heq => ?_) (by omega)
    rw [endsShown, if_neg h] at heq
    -- Nothing but asterisks is left of a text that had none.
    have hnil : s.toList = [] := by
      rw [shown, heq, List.length_eq_zero_iff, List.filter_eq_nil_iff] at hshort
      refine List.eq_nil_iff_forall_not_mem.mpr (fun c hc => ?_)
      have hstar : c = '*' := by simpa using hshort c hc
      exact hplain (hstar ▸ hc)
    exact hne (String.toList_eq_nil_iff.mp hnil)

omit [PyLibrary] in
@[simp] theorem shown_stars (n : Nat) : shown (stars n) = 0 := by
  rw [shown, toList_stars, List.length_eq_zero_iff, List.filter_eq_nil_iff]
  intro c hc
  simp [List.eq_of_mem_replicate hc]

theorem maskAccountNumber_eq {text : String} (hne : strip text ≠ "") :
    maskAccountNumber (some text) = some (endsShown 2 2 (stars 4) (strip text)) := by
  simp only [maskAccountNumber, Option.bind_some, if_neg hne, endsShown]
  by_cases hnuban : (strip text).toList.length = 10 ∧ PyLibrary.isdigit (strip text) = true
  · -- A NUBAN has six characters between its ends.
    rw [if_pos hnuban, if_pos (by omega), hnuban.1]
  · rw [if_neg hnuban]
    by_cases h : 4 ≤ (strip text).toList.length
    · rw [if_pos h, if_pos h]
    · rw [if_neg h, if_neg h]
      rfl

theorem maskBvn_eq (text : String) :
    maskBvn (some text) = some (endsShown 0 4 (stars 3) (strip text)) := by
  simp only [maskBvn, Option.map_some, endsShown, Nat.zero_add]
  by_cases h : (strip text).toList.length < 4
  · rw [if_pos h, if_neg (Nat.not_le.mpr h)]
    rfl
  · rw [if_neg h, if_pos (Nat.not_lt.mp h)]
    refine congrArg some (String.toList_injective ?_)
    simp

theorem maskPhone_eq (text : String) :
    maskPhone (some text) = some (endsShown 4 2 (stars 4) (strip text)) := by
  simp only [maskPhone, Option.map_some, endsShown]
  by_cases h : (strip text).toList.length < 6
  · rw [if_pos h, if_neg (Nat.not_le.mpr h)]
    rfl
  · rw [if_neg h, if_pos (Nat.not_lt.mp h)]

/-- A mask of this form does what is expected exactly where there is something
    between the ends, or the text does not have both. -/
theorem hides_iff {first last k : Nat} {mask : Option String → Option String} {text : String}
    (hk : 0 < k) (hmask : mask (some text) = some (endsShown first last (stars k) (strip text)))
    (hne : strip text ≠ "") (hplain : '*' ∉ (strip text).toList) :
    Hides first last mask text ↔ (strip text).toList.length ≠ first + last := by
  rw [← endsShown_ne_iff (shown_stars k) hne hplain]
  constructor
  · intro h heq
    exact h.changed (by rw [hmask, heq])
  · intro hchanged
    refine ⟨⟨_, hmask, fun h => endsShown_eq_covered h, fun h => ⟨k, hk, ?_⟩⟩, ?_, ?_⟩
    · rw [endsShown, if_neg (Nat.not_le.mpr h), toList_stars]
    · intro masked hmasked
      rw [hmask, Option.some.injEq] at hmasked
      rw [← hmasked]
      exact shown_endsShown_le (shown_stars k)
    · intro heq
      rw [hmask, Option.some.injEq] at heq
      exact hchanged heq

/-- Any text without asterisks that is more than whitespace. The masks of an
    account number, a BVN and a phone number have their documented shape, show
    at most four, four and six characters and hide something, exactly when the
    stripped text does not have four, four and six characters. -/
theorem masks_hide_iff (text : String) (hplain : '*' ∉ text.toList) (hne : strip text ≠ "") :
    (Hides 2 2 maskAccountNumber text ↔ (strip text).toList.length ≠ 4) ∧
      (Hides 0 4 maskBvn text ↔ (strip text).toList.length ≠ 4) ∧
      (Hides 4 2 maskPhone text ↔ (strip text).toList.length ≠ 6) := by
  have hstripped : '*' ∉ (strip text).toList := fun h => hplain (mem_of_mem_strip h)
  exact ⟨hides_iff (by decide) (maskAccountNumber_eq hne) hne hstripped,
    hides_iff (by decide) (maskBvn_eq text) hne hstripped,
    hides_iff (by decide) (maskPhone_eq text) hne hstripped⟩

omit [PyLibrary] in
/-- A NUBAN, as an account number, a BVN or a phone number. -/
theorem masks_hide_iff_nuban :
    @Hides asciiLibrary 2 2 (@maskAccountNumber asciiLibrary) "0123456789" ∧
      @Hides asciiLibrary 0 4 (@maskBvn asciiLibrary) "0123456789" ∧
      @Hides asciiLibrary 4 2 (@maskPhone asciiLibrary) "0123456789" := by
  have hnuban := @masks_hide_iff asciiLibrary "0123456789" (by decide) (by decide +kernel)
  have hlength : (@strip asciiText "0123456789").toList.length = 10 := by decide
  rw [hlength] at hnuban
  exact ⟨hnuban.1.mpr (by decide), hnuban.2.1.mpr (by decide), hnuban.2.2.mpr (by decide)⟩

omit [PyLibrary] in
/-- Four digits are shown as an account number and as a BVN, six as a phone
    number. -/
theorem masks_show_all_of_ends :
    @maskAccountNumber asciiLibrary (some " 1234 ") = some "1234" ∧
      @maskBvn asciiLibrary (some "1234") = some "1234" ∧
      @maskPhone asciiLibrary (some "080123") = some "080123" := by
  decide

end Pii

end MmrEngine
