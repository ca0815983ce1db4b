import MmrEngine.Dashboard.UrlState
import MmrEngine.Lib.Digits

/-!
# Canonical URLs

Whether a view that is shared by its canonical URL is the same view.

A parameter is read, written, and read again. What is written comes back as it
is, but for surrogates that are alone, so each parameter can be looked at by
itself (`parseParams_toSearch`). Most kinds then give the same value: what they
accept they write as it was read. There are four exceptions (`Keeps`).

A text is trimmed before it is cut, so a cut may leave white space at the end,
which is trimmed when it is written, or half a character, which is replaced. An
empty value of an enumeration is not written. And a number from 10^21 on is not
written as digits.

## Main definitions

* `rewritten`: What comes back of what is written.
* `reread`: A value that is written and read again.
* `Keeps`: The condition of each kind.
* `Canonical`: The canonical URL of a view has its values.

## Theorems

* `cap_cap`, `rewritten_cap`: A text that was cut.
* `new_toSearch`, `get_foldl_setParam`: What the URL says.
* `parseParams_toSearch`: One parameter by itself.
* `enum_iff`, `string_iff`, `int_iff`, `checked_keeps`: The kinds.
* `canonical_iff`: A whole schema.
-/

namespace MmrEngine

namespace UrlState

open URLSearchParams

/-! ### What comes back -/

/-- A string as it comes back from a URL. -/
def rewritten (s : JsString) : JsString := Utf16.encode (usvString s).toList

theorem rewritten_eq (s : JsString) : rewritten s = Utf16.encode (Utf16.toScalar s) := by
  rw [rewritten, usvString, String.toList_ofList]

theorem rewritten_encode (l : List Char) : rewritten (Utf16.encode l) = Utf16.encode l := by
  rw [rewritten_eq, Utf16.toScalar_encode]

/-- ASCII comes back as it is. -/
theorem rewritten_ascii {s : JsString} (h : ∀ u ∈ s, u.toNat < 128) : rewritten s = s := by
  rw [rewritten_eq]
  induction s with
  | nil => rfl
  | cons u s ih =>
      have hu := h u List.mem_cons_self
      rcases Utf16.not_surrogate_of_bounds (u := u) (by omega) with ⟨hhigh, hlow⟩
      have hnat : (Char.ofNat u.toNat).toNat = u.toNat := Utf16.toNat_ofNat (Or.inl (by omega))
      rw [Utf16.toScalar_cons hhigh hlow, Utf16.encode_cons,
        ih fun v hv => h v (List.mem_cons_of_mem _ hv), Utf16.encodeChar, hnat, if_pos (by omega),
        UInt16.ofNat_toNat]
      rfl

/-- The pairs of another name are not looked at. -/
theorem find?_filter_ne {name other : String} (h : other ≠ name) (params : URLSearchParams) :
    (params.filter fun p => p.1 ≠ other).find? (fun p => decide (p.1 = name))
      = params.find? fun p => decide (p.1 = name) := by
  induction params with
  | nil => rfl
  | cons pair params ih =>
      by_cases hother : pair.1 = other
      · have hne : ¬ pair.1 = name := fun heq => h (hother.symm.trans heq)
        rw [List.filter_cons_of_neg (by simp [hother]), ih,
          List.find?_cons_of_neg (by simpa using hne)]
      · rw [List.filter_cons_of_pos (by simpa using hother), List.find?_cons, List.find?_cons, ih]

theorem get_set_self (params : URLSearchParams) (name : String) (value : JsString) :
    (URLSearchParams.set params name value).get name = some (rewritten value) := by
  induction params with
  | nil => simp [URLSearchParams.get, URLSearchParams.set, rewritten]
  | cons pair params ih =>
      rw [URLSearchParams.set]
      by_cases hname : pair.1 = name
      · rw [if_pos hname]
        simp [URLSearchParams.get, rewritten]
      · rw [if_neg hname, URLSearchParams.get, List.find?_cons_of_neg (by simpa using hname)]
        exact ih

theorem get_set_of_ne {name other : String} (h : other ≠ name) (params : URLSearchParams)
    (value : JsString) : (URLSearchParams.set params other value).get name = params.get name := by
  induction params with
  | nil => simp [URLSearchParams.get, URLSearchParams.set, h]
  | cons pair params ih =>
      rw [URLSearchParams.set]
      -- The pair is replaced, or it is looked at after all.
      by_cases hother : pair.1 = other
      · have hne : ¬ pair.1 = name := fun heq => h (hother.symm.trans heq)
        rw [if_pos hother, URLSearchParams.get, URLSearchParams.get,
          List.find?_cons_of_neg (by simpa using h), List.find?_cons_of_neg (by simpa using hne),
          find?_filter_ne h]
      · rw [if_neg hother, URLSearchParams.get, URLSearchParams.get]
        by_cases hname : pair.1 = name
        · rw [List.find?_cons_of_pos (by simpa using hname),
            List.find?_cons_of_pos (by simpa using hname)]
        · rw [List.find?_cons_of_neg (by simpa using hname),
            List.find?_cons_of_neg (by simpa using hname)]
          exact ih

/-! ### Trimming and cutting -/

/-- White space is no half of a character. -/
theorem not_surrogate_of_jsSpace {u : UInt16} (h : jsSpace u = true) :
    Utf16.isHigh u = false ∧ Utf16.isLow u = false := by
  have hall : ([9, 10, 11, 12, 13, 32, 160, 5760, 8192, 8193, 8194, 8195, 8196, 8197, 8198, 8199,
      8200, 8201, 8202, 8232, 8233, 8239, 8287, 12288, 65279].all fun n =>
        decide (n < 0xD800) || decide (0xE000 ≤ n)) = true := rfl
  have hscalar := List.all_eq_true.mp hall u.toNat (List.contains_iff_mem.mp h)
  rw [Bool.or_eq_true, decide_eq_true_eq, decide_eq_true_eq] at hscalar
  exact Utf16.not_surrogate_of_bounds hscalar

theorem dropWhile_encode (l : List Char) :
    ∃ l', (Utf16.encode l).dropWhile jsSpace = Utf16.encode l' := by
  induction l with
  | nil => exact ⟨[], rfl⟩
  | cons c l ih =>
      rw [Utf16.encode_cons]
      rcases Utf16.encodeChar_cases c with ⟨u, hunits, -⟩ | ⟨u, v, hunits, hhigh, -⟩
      · rw [hunits, List.singleton_append]
        cases hspace : jsSpace u with
        | true =>
            rw [List.dropWhile_cons_of_pos hspace]
            exact ih
        | false =>
            rw [List.dropWhile_cons_of_neg (by simp [hspace])]
            exact ⟨c :: l, by rw [Utf16.encode_cons, hunits]; rfl⟩
      · have hspace : ¬ jsSpace u = true := fun h => by
          rw [(not_surrogate_of_jsSpace h).1] at hhigh
          cases hhigh
        rw [hunits, List.cons_append, List.dropWhile_cons_of_neg hspace]
        exact ⟨c :: l, by rw [Utf16.encode_cons, hunits]; rfl⟩

theorem rdropWhile_encode (l : List Char) :
    ∃ l', (Utf16.encode l).rdropWhile jsSpace = Utf16.encode l' := by
  induction l using List.reverseRecOn with
  | nil => exact ⟨[], rfl⟩
  | append_singleton l c ih =>
      have hwhole : Utf16.encode (l ++ [c]) = Utf16.encode l ++ Utf16.encodeChar c := by
        rw [Utf16.encode_append, Utf16.encode_cons, Utf16.encode_nil, List.append_nil]
      rcases Utf16.encodeChar_cases c with ⟨u, hunits, -⟩ | ⟨u, v, hunits, -, hlow, -⟩
      · rw [hwhole, hunits]
        cases hspace : jsSpace u with
        | true =>
            rw [List.rdropWhile_concat_pos _ _ _ hspace]
            exact ih
        | false =>
            rw [List.rdropWhile_concat_neg _ _ _ (by simp [hspace])]
            exact ⟨l ++ [c], by rw [hwhole, hunits]⟩
      · have hspace : ¬ jsSpace v = true := fun h => by
          rw [(not_surrogate_of_jsSpace h).2] at hlow
          cases hlow
        have hlast : Utf16.encode l ++ [u, v] = (Utf16.encode l ++ [u]) ++ [v] := by simp
        rw [hwhole, hunits, hlast, List.rdropWhile_concat_neg _ _ _ hspace, ← hlast]
        exact ⟨l ++ [c], by rw [hwhole, hunits]⟩

/-- A trimmed text is a text. -/
theorem trim_encode (l : List Char) :
    ∃ l', JsText.trim jsSpace (Utf16.encode l) = Utf16.encode l' := by
  rcases dropWhile_encode l with ⟨l', hl'⟩
  rw [JsText.trim, hl']
  exact rdropWhile_encode l'

theorem cap_sublist (maxLength : Nat) (s : JsString) : (cap maxLength s).Sublist s :=
  (List.take_sublist _ _).trans
    ((List.rdropWhile_prefix _ _).sublist.trans (List.dropWhile_sublist _))

/-- A text of the length it may have, trimmed, is what it was cut to. -/
theorem cap_eq_of_length {maxLength : Nat} {s : JsString}
    (h : (cap maxLength s).length = s.length) : cap maxLength s = s :=
  (cap_sublist maxLength s).eq_of_length h

/-- No white space at the end. -/
def EndsPlain (s : JsString) : Prop := ∀ u ∈ s.getLast?, jsSpace u = false

theorem rdropWhile_of_endsPlain {s : JsString} (h : EndsPlain s) : s.rdropWhile jsSpace = s := by
  refine List.rdropWhile_eq_self_iff.mpr fun hne hspace => ?_
  rw [h _ (List.getLast?_eq_some_getLast hne)] at hspace
  cases hspace

theorem dropWhile_cap (maxLength : Nat) (s : JsString) :
    (cap maxLength s).dropWhile jsSpace = cap maxLength s :=
  JsText.dropWhile_of_prefix ((List.take_prefix _ _).trans (List.rdropWhile_prefix _ _))

/-- Cutting a second time only trims the end. -/
theorem cap_cap (maxLength : Nat) (s : JsString) :
    cap maxLength (cap maxLength s) = (cap maxLength s).rdropWhile jsSpace := by
  have hlength : ((cap maxLength s).rdropWhile jsSpace).length ≤ maxLength :=
    (List.rdropWhile_prefix _ _).length_le.trans (List.length_take_le _ _)
  rw [cap, JsText.trim, dropWhile_cap]
  exact List.take_of_length_le hlength

theorem cap_of_endsPlain {maxLength : Nat} {s : JsString} (h : EndsPlain (cap maxLength s)) :
    cap maxLength (cap maxLength s) = cap maxLength s := by
  rw [cap_cap, rdropWhile_of_endsPlain h]

/-- Where the end is trimmed, something goes. -/
theorem length_cap_lt {maxLength : Nat} {s : JsString} (h : ¬ EndsPlain (cap maxLength s)) :
    (cap maxLength (cap maxLength s)).length < (cap maxLength s).length := by
  rw [cap_cap]
  refine lt_of_le_of_ne (List.rdropWhile_prefix _ _).length_le fun hlength => h ?_
  have hself := (List.rdropWhile_prefix jsSpace (cap maxLength s)).sublist.eq_of_length hlength
  intro u hu
  have hne : cap maxLength s ≠ [] := by
    intro hnil
    rw [hnil] at hu
    cases hu
  have hlast := List.rdropWhile_eq_self_iff.mp hself hne
  rw [List.getLast?_eq_some_getLast hne, Option.mem_some_iff] at hu
  rw [hu] at hlast
  exact Bool.eq_false_iff.mpr hlast

/-! ### The URL -/

/-- The bytes of a text in ASCII are the bytes it was written in. -/
theorem encode_usvString_ascii {bytes : List UInt8} (h : ∀ b ∈ bytes, b.toNat < 128) :
    Utf8.encode (Utf16.toScalar (bytes.map fun b => UInt16.ofNat b.toNat)) = bytes := by
  induction bytes with
  | nil => rfl
  | cons b bytes ih =>
      have hb := h b List.mem_cons_self
      have hunit : (UInt16.ofNat b.toNat).toNat = b.toNat := Utf16.toNat_unit (by omega)
      rcases Utf16.not_surrogate_of_bounds (u := UInt16.ofNat b.toNat) (by omega)
        with ⟨hhigh, hlow⟩
      have hnat : (Char.ofNat b.toNat).val.toNat = b.toNat :=
        Utf16.toNat_ofNat (Or.inl (by omega))
      have hbyte : String.utf8EncodeChar (Char.ofNat b.toNat) = [b] := by
        unfold String.utf8EncodeChar
        simp only [hnat]
        rw [if_pos (by omega), UInt8.ofNat_toNat]
      rw [List.map_cons, Utf16.toScalar_cons hhigh hlow, hunit, Utf8.encode, List.flatMap_cons,
        hbyte, ← Utf8.encode, ih fun x hx => h x (List.mem_cons_of_mem _ hx)]
      rfl

/-- The canonical URL says what was set. -/
theorem new_toString (params : URLSearchParams) :
    URLSearchParams.new (lit "?" ++ URLSearchParams.toString params) = params := by
  have hmark : Utf16.toScalar (lit "?" ++ URLSearchParams.toString params)
      = '?' :: Utf16.toScalar (URLSearchParams.toString params) :=
    Utf16.toScalar_encodeChar '?' _
  rw [URLSearchParams.new, usvString, String.toList_ofList, hmark, stripQuestionMark,
    URLSearchParams.toString, encode_usvString_ascii fun b hb => UrlEncoded.ascii_serialize hb,
    UrlEncoded.parse_serialize]

section Schema

variable {N : Type} [JsNumber N]

theorem new_toSearch (schema : Schema N) (values : String → Value N) :
    URLSearchParams.new (toSearch schema values) = schema.entries.foldl (setParam values) [] := by
  unfold toSearch
  simp only []
  by_cases hempty : URLSearchParams.toString (schema.entries.foldl (setParam values) []) = []
  · rw [if_pos hempty]
    rw [URLSearchParams.toString, List.map_eq_nil_iff] at hempty
    have hparams := UrlEncoded.parse_serialize (schema.entries.foldl (setParam values) [])
    rw [hempty] at hparams
    rw [← hparams]
    rfl
  · rw [if_neg hempty]
    exact new_toString _

theorem get_setParam_of_ne {name : String} {e : String × Param N} (h : e.1 ≠ name)
    (values : String → Value N) (sp : URLSearchParams) :
    (setParam values sp e).get name = sp.get name := by
  unfold setParam
  cases written e.2 (values e.1) with
  | none => rfl
  | some s => exact get_set_of_ne h sp s

theorem get_setParam_self (e : String × Param N) (values : String → Value N)
    {sp : URLSearchParams} (h : sp.get e.1 = none) :
    (setParam values sp e).get e.1 = (written e.2 (values e.1)).map rewritten := by
  unfold setParam
  cases written e.2 (values e.1) with
  | none => exact h
  | some s => exact get_set_self sp e.1 s

theorem get_foldl_setParam_of_not_mem {name : String} {entries : List (String × Param N)}
    (h : name ∉ entries.map Prod.fst) (values : String → Value N) (sp : URLSearchParams) :
    (entries.foldl (setParam values) sp).get name = sp.get name := by
  induction entries generalizing sp with
  | nil => rfl
  | cons e entries ih =>
      rw [List.map_cons, List.mem_cons, not_or] at h
      rw [List.foldl_cons, ih h.2, get_setParam_of_ne (Ne.symm h.1)]

/-- Each parameter is in the URL as it is written, or not at all. -/
theorem get_foldl_setParam {entries : List (String × Param N)}
    (hnodup : (entries.map Prod.fst).Nodup) {e : String × Param N} (he : e ∈ entries)
    (values : String → Value N) {sp : URLSearchParams} (h : sp.get e.1 = none) :
    (entries.foldl (setParam values) sp).get e.1
      = (written e.2 (values e.1)).map rewritten := by
  induction entries generalizing sp with
  | nil => cases he
  | cons e' entries ih =>
      rw [List.map_cons, List.nodup_cons] at hnodup
      rw [List.foldl_cons]
      rcases List.mem_cons.mp he with rfl | hrest
      · rw [get_foldl_setParam_of_not_mem hnodup.1, get_setParam_self e values h]
      · have hne : e'.1 ≠ e.1 := fun heq =>
          hnodup.1 (heq ▸ List.mem_map_of_mem hrest)
        exact ih hnodup.2 hrest (by rw [get_setParam_of_ne hne, h])

/-! ### One parameter by itself -/

/-- The loop of `parseParams`, from what was read before. -/
theorem foldl_update_of_not_mem {name : String} {entries : List (String × Param N)}
    (h : name ∉ entries.map Prod.fst) (params : URLSearchParams) (out : String → Value N) :
    entries.foldl (fun out e => Function.update out e.1 (e.2.spec.parse (params.get e.1))) out name
      = out name := by
  induction entries generalizing out with
  | nil => rfl
  | cons e entries ih =>
      rw [List.map_cons, List.mem_cons, not_or] at h
      rw [List.foldl_cons, ih h.2, Function.update_of_ne h.1]

theorem foldl_update {entries : List (String × Param N)} (hnodup : (entries.map Prod.fst).Nodup)
    {e : String × Param N} (he : e ∈ entries) (params : URLSearchParams)
    (out : String → Value N) :
    entries.foldl (fun out e => Function.update out e.1 (e.2.spec.parse (params.get e.1))) out e.1
      = e.2.spec.parse (params.get e.1) := by
  induction entries generalizing out with
  | nil => cases he
  | cons e' entries ih =>
      rw [List.map_cons, List.nodup_cons] at hnodup
      rw [List.foldl_cons]
      rcases List.mem_cons.mp he with rfl | hrest
      · rw [foldl_update_of_not_mem hnodup.1, Function.update_self]
      · exact ih hnodup.2 hrest _

theorem parseParams_of_mem (schema : Schema N) (params : URLSearchParams)
    {e : String × Param N} (he : e ∈ schema.entries) :
    parseParams schema params e.1 = e.2.spec.parse (params.get e.1) :=
  foldl_update schema.nodup he params _

/-- A value that is written and read again. -/
def reread (p : Param N) (value : Value N) : Value N :=
  p.spec.parse ((written p value).map rewritten)

/-- The canonical URL keeps the values if each kind keeps its own. -/
theorem parseParams_toSearch (schema : Schema N) (params : URLSearchParams) :
    parseParams schema (URLSearchParams.new (toSearch schema (parseParams schema params)))
        = parseParams schema params ↔
      ∀ e ∈ schema.entries, reread e.2 (e.2.spec.parse (params.get e.1))
        = e.2.spec.parse (params.get e.1) := by
  rw [new_toSearch]
  have hread : ∀ e ∈ schema.entries, parseParams schema
      (schema.entries.foldl (setParam (parseParams schema params)) []) e.1
      = reread e.2 (e.2.spec.parse (params.get e.1)) := by
    intro e he
    rw [parseParams_of_mem schema _ he, get_foldl_setParam schema.nodup he _ rfl,
      parseParams_of_mem schema params he, reread]
  constructor
  · intro h e he
    rw [← hread e he, h, parseParams_of_mem schema params he]
  · intro h
    funext name
    by_cases hname : name ∈ schema.entries.map Prod.fst
    · rcases List.mem_map.mp hname with ⟨e, he, rfl⟩
      rw [hread e he, h e he, parseParams_of_mem schema params he]
    · -- A name that is no key is `undefined` in both.
      rw [parseParams, parseParams, foldl_update_of_not_mem hname, foldl_update_of_not_mem hname]

/-! ### The kinds -/

theorem written_undefined (p : Param N) : written p .undefined = none := if_pos rfl

/-- What is not written is read as if it was not there. -/
theorem reread_of_none {p : Param N} {value : Value N} (h : written p value = none) :
    reread p value = p.spec.parse none := by
  rw [reread, h, Option.map_none]

theorem written_of_serialize_none {p : Param N} {value : Value N}
    (h : p.spec.serialize value = none) : written p value = none := by
  unfold written
  by_cases hvalue : value = .undefined
  · rw [if_pos hvalue]
  · rw [if_neg hvalue, h]
    rfl

/-- An empty text is not written. -/
theorem written_of_serialize_nil {p : Param N} {value : Value N}
    (h : p.spec.serialize value = some []) : written p value = none := by
  unfold written
  by_cases hvalue : value = .undefined
  · rw [if_pos hvalue]
  · rw [if_neg hvalue, h]
    rfl

theorem reread_of_some {p : Param N} {value : Value N} (hvalue : value ≠ .undefined)
    {s : JsString} (h : p.spec.serialize value = some s) (hne : s ≠ []) :
    reread p value = p.spec.parse (some (rewritten s)) := by
  rw [reread, written, if_neg hvalue, h, Option.filter_some, if_pos (by simpa using hne),
    Option.map_some]

/-- The fallback is not written, so it is read as the fallback. -/
theorem reread_enum_fallback (values : List JsString) (fallback : Option JsString) :
    reread (.enum values fallback : Param N) (.ofOption fallback) = .ofOption fallback := by
  cases fallback with
  | none => exact reread_of_none (written_undefined _)
  | some f =>
      refine reread_of_none (written_of_serialize_none ?_)
      exact if_pos rfl

theorem enum_iff (values : List JsString) (fallback : Option JsString) (l : List Char) :
    reread (.enum values fallback : Param N)
        ((param.enum values fallback : ParamSpec N).parse (some (Utf16.encode l)))
      = (param.enum values fallback : ParamSpec N).parse (some (Utf16.encode l)) ↔
    (Utf16.encode l = [] → Utf16.encode l ∈ values → fallback = some (Utf16.encode l)) := by
  simp only [param.enum]
  by_cases hmem : Utf16.encode l ∈ values
  · rw [if_pos hmem]
    by_cases hfallback : fallback = some (Utf16.encode l)
    · have hkept := reread_enum_fallback (N := N) values fallback
      rw [hfallback] at hkept ⊢
      exact iff_of_true hkept fun _ _ => rfl
    · have hserialize : (Param.enum values fallback : Param N).spec.serialize
          (.string (Utf16.encode l)) = some (Utf16.encode l) := if_neg hfallback
      by_cases hempty : Utf16.encode l = []
      · -- The empty value is not written and is read as the fallback.
        have hread : reread (.enum values fallback : Param N) (.string (Utf16.encode l))
            = .ofOption fallback := by
          refine reread_of_none (written_of_serialize_nil ?_)
          rw [hserialize, hempty]
        rw [hread]
        refine iff_of_false (fun heq => hfallback ?_) fun h => hfallback (h hempty hmem)
        cases fallback with
        | none => cases heq
        | some f => rw [Value.string.inj heq]
      · have hread : reread (.enum values fallback : Param N) (.string (Utf16.encode l))
            = .string (Utf16.encode l) := by
          rw [reread_of_some (by simp) hserialize hempty, rewritten_encode]
          exact if_pos hmem
        exact iff_of_true hread fun h => absurd h hempty
  · rw [if_neg hmem]
    exact iff_of_true (reread_enum_fallback values fallback) fun _ h => absurd h hmem

theorem checked_keeps {p : Param N} {valid : JsString → Bool}
    (hspec : p.spec = param.checked valid) (l : List Char) :
    reread p (p.spec.parse (some (Utf16.encode l))) = p.spec.parse (some (Utf16.encode l)) := by
  rw [hspec]
  simp only [param.checked]
  by_cases hvalid : Utf16.encode l ≠ [] ∧ valid (Utf16.encode l) = true
  · have hserialize : p.spec.serialize (.string (Utf16.encode l)) = some (Utf16.encode l) := by
      rw [hspec]
      exact if_pos hvalid
    rw [if_pos hvalid, reread_of_some (by simp) hserialize hvalid.1, rewritten_encode, hspec]
    exact if_pos hvalid
  · rw [if_neg hvalid, reread_of_none (written_undefined p), hspec]
    rfl

/-- A number is read as it was, or is not read as a number. -/
theorem parse_toText (fallback : N) (opts : IntOptions N) {raw : JsString}
    (hnumeral : isNumeral raw = true)
    (hbounds : param.outOfBounds opts (JsNumber.ofNumeral raw : N) = false) :
    (param.int fallback opts).parse (some (JsNumber.toText (JsNumber.ofNumeral raw : N)))
      = if (JsNumber.ofNumeral raw : N) < JsNumber.ofNumeral (lit "1000000000000000000000") then
          .number (JsNumber.ofNumeral raw)
        else .number fallback := by
  simp only [param.int]
  by_cases hsmall : (JsNumber.ofNumeral raw : N)
      < JsNumber.ofNumeral (lit "1000000000000000000000")
  · rcases JsNumber.toText_small raw hnumeral hsmall with ⟨htext, hback⟩
    rw [if_pos hsmall, if_neg (by simp [htext]), hback, if_neg (by simp [hbounds])]
  · rw [if_neg hsmall, if_pos (JsNumber.toText_large raw hnumeral hsmall)]

theorem reread_number {fallback : N} {opts : IntOptions N} {raw : JsString}
    (hnumeral : isNumeral raw = true)
    (hbounds : param.outOfBounds opts (JsNumber.ofNumeral raw : N) = false)
    (hother : (JsNumber.ofNumeral raw : N) ≠ fallback) :
    reread (.int fallback opts : Param N) (.number (JsNumber.ofNumeral raw))
      = if (JsNumber.ofNumeral raw : N) < JsNumber.ofNumeral (lit "1000000000000000000000") then
          .number (JsNumber.ofNumeral raw)
        else .number fallback := by
  have hserialize : (Param.int fallback opts : Param N).spec.serialize
      (.number (JsNumber.ofNumeral raw)) = some (JsNumber.toText (JsNumber.ofNumeral raw : N)) :=
    if_neg hother
  by_cases hempty : JsNumber.toText (JsNumber.ofNumeral raw : N) = []
  · -- Nothing is no numeral, so this is no number that is read as it was.
    have hlarge : ¬ (JsNumber.ofNumeral raw : N)
        < JsNumber.ofNumeral (lit "1000000000000000000000") := by
      intro hsmall
      have htext := (JsNumber.toText_small raw hnumeral hsmall).1
      rw [hempty] at htext
      cases htext
    rw [hempty] at hserialize
    rw [reread_of_none (written_of_serialize_nil hserialize), if_neg hlarge]
    rfl
  · rw [reread_of_some (by simp) hserialize hempty, rewritten_ascii (JsNumber.toText_ascii _)]
    exact parse_toText fallback opts hnumeral hbounds

theorem length_rewritten (s : JsString) : (rewritten s).length = s.length := by
  rw [rewritten_eq, Utf16.length_encode_toScalar]

/-- A text that was cut comes back as it is, unless half a character is left. -/
theorem rewritten_cap (maxLength : Nat) (l : List Char) :
    rewritten (cap maxLength (Utf16.encode l)) = cap maxLength (Utf16.encode l) ↔
      ¬ Utf16.EndsHigh (cap maxLength (Utf16.encode l)) := by
  rcases trim_encode l with ⟨l', hl'⟩
  rw [rewritten_eq, cap, hl']
  exact Utf16.encode_toScalar_take l' maxLength

omit [JsNumber N] in
/-- What is read as it was is no shorter. -/
theorem ne_of_length_lt {maxLength : Nat} {s v : JsString} (h : s.length < v.length) :
    (param.string maxLength : ParamSpec N).parse (some s) ≠ .string v := by
  intro heq
  simp only [param.string] at heq
  by_cases hempty : cap maxLength s = []
  · rw [if_pos hempty] at heq
    cases heq
  · rw [if_neg hempty] at heq
    have hlength := (cap_sublist maxLength s).length_le
    rw [Value.string.inj heq] at hlength
    omega

/-- A text whose end is trimmed again comes back shorter, or not at all. -/
theorem reread_string_of_not_endsPlain {maxLength : Nat} {s : JsString}
    (h : ¬ EndsPlain (cap maxLength s)) :
    reread (.string maxLength : Param N) (.string (cap maxLength s))
      ≠ .string (cap maxLength s) := by
  have hshort := length_cap_lt h
  by_cases hgone : cap maxLength s = [] ∨ cap maxLength (cap maxLength s) = []
  · have hserialize : (Param.string maxLength : Param N).spec.serialize
        (.string (cap maxLength s)) = none := if_pos hgone
    rw [reread_of_none (written_of_serialize_none hserialize)]
    exact fun heq => by cases heq
  · have hserialize : (Param.string maxLength : Param N).spec.serialize
        (.string (cap maxLength s)) = some (cap maxLength (cap maxLength s)) := if_neg hgone
    rw [reread_of_some (by simp) hserialize fun hnil => hgone (Or.inr hnil)]
    refine ne_of_length_lt ?_
    rw [length_rewritten]
    exact hshort

/-- A text that is cut is read as it was if and only if the cut leaves no white
    space and no half of a character at the end. -/
theorem string_iff (maxLength : Nat) (l : List Char) :
    reread (.string maxLength : Param N)
        ((param.string maxLength : ParamSpec N).parse (some (Utf16.encode l)))
      = (param.string maxLength : ParamSpec N).parse (some (Utf16.encode l)) ↔
    (EndsPlain (cap maxLength (Utf16.encode l)) ∧
      ¬ Utf16.EndsHigh (cap maxLength (Utf16.encode l))) := by
  have hparse : ∀ s : JsString, (param.string maxLength : ParamSpec N).parse (some s)
      = if cap maxLength s = [] then .undefined else .string (cap maxLength s) := fun _ => rfl
  rw [hparse]
  by_cases hempty : cap maxLength (Utf16.encode l) = []
  · -- Nothing is left of the text, and nothing is written.
    rw [if_pos hempty, reread_of_none (written_undefined _), hempty]
    refine iff_of_true rfl ⟨fun u hu => ?_, ?_⟩
    · cases hu
    · rintro ⟨u, hu, -⟩
      cases hu
  · rw [if_neg hempty]
    by_cases hplain : EndsPlain (cap maxLength (Utf16.encode l))
    · -- The text is written as it is, and only half a character is replaced.
      have hcap := cap_of_endsPlain hplain
      have hserialize : (Param.string maxLength : Param N).spec.serialize
          (.string (cap maxLength (Utf16.encode l))) = some (cap maxLength (Utf16.encode l)) := by
        refine Eq.trans (if_neg ?_) (congrArg some hcap)
        rw [hcap, or_self]
        exact hempty
      have hread : reread (.string maxLength : Param N) (.string (cap maxLength (Utf16.encode l)))
          = (param.string maxLength : ParamSpec N).parse
              (some (rewritten (cap maxLength (Utf16.encode l)))) :=
        reread_of_some (by simp) hserialize hempty
      rw [hread]
      constructor
      · intro heq
        refine ⟨hplain, (rewritten_cap maxLength l).mp ?_⟩
        -- It has the length it had, so nothing was trimmed or cut.
        rw [hparse] at heq
        by_cases hgone : cap maxLength (rewritten (cap maxLength (Utf16.encode l))) = []
        · rw [if_pos hgone] at heq
          cases heq
        · rw [if_neg hgone] at heq
          have hsame := Value.string.inj heq
          have hlength : (cap maxLength (rewritten (cap maxLength (Utf16.encode l)))).length
              = (rewritten (cap maxLength (Utf16.encode l))).length := by
            rw [hsame, length_rewritten]
          have hwhole := cap_eq_of_length hlength
          rw [← hwhole]
          exact hsame
      · rintro ⟨-, hhigh⟩
        rw [(rewritten_cap maxLength l).mpr hhigh, hparse, hcap, if_neg hempty]
    · exact iff_of_false (reread_string_of_not_endsPlain hplain) fun h => hplain h.1

theorem int_iff (fallback : N) (opts : IntOptions N) (raw : JsString) :
    reread (.int fallback opts : Param N) ((param.int fallback opts).parse (some raw))
      = (param.int fallback opts).parse (some raw) ↔
    (isNumeral raw = true → param.outOfBounds opts (JsNumber.ofNumeral raw) = false →
      JsNumber.ofNumeral raw ≠ fallback →
        JsNumber.ofNumeral raw < (JsNumber.ofNumeral (lit "1000000000000000000000") : N)) := by
  have hfallback : reread (.int fallback opts : Param N) (.number fallback) = .number fallback :=
    reread_of_none (written_of_serialize_none (if_pos rfl))
  simp only [param.int]
  cases hnumeral : isNumeral raw with
  -- The fallback is not written.
  | false => simp [hfallback]
  | true =>
      cases hbounds : param.outOfBounds opts (JsNumber.ofNumeral raw : N) with
      | true => simp [hfallback]
      | false =>
          by_cases hother : (JsNumber.ofNumeral raw : N) = fallback
          · simp [hother, hfallback]
          · have hread := reread_number hnumeral hbounds hother
            simp only [Bool.true_eq_false, Bool.false_eq_true, if_false, true_implies, ne_eq,
              hother, not_false_eq_true, hread]
            by_cases hsmall : (JsNumber.ofNumeral raw : N)
                < JsNumber.ofNumeral (lit "1000000000000000000000")
            · simp [hsmall]
            · simp [hsmall, Ne.symm hother]

/-! ### A schema -/

/-- The condition under which a value that is read is kept, by the kind of the
    parameter. -/
def Keeps (p : Param N) (raw : Option JsString) : Prop :=
  match p, raw with
  | .enum values fallback, some raw => raw = [] → raw ∈ values → fallback = some raw
  | .string maxLength, some raw =>
    EndsPlain (cap maxLength raw) ∧ ¬ Utf16.EndsHigh (cap maxLength raw)
  | .int fallback opts, some raw =>
    isNumeral raw = true → param.outOfBounds opts (JsNumber.ofNumeral raw) = false →
      JsNumber.ofNumeral raw ≠ fallback →
        JsNumber.ofNumeral raw < (JsNumber.ofNumeral (lit "1000000000000000000000") : N)
  | _, _ => True

/-- A value that is not there is the default, which is not written. -/
theorem reread_none (p : Param N) : reread p (p.spec.parse none) = p.spec.parse none := by
  cases p with
  | enum values fallback => exact reread_enum_fallback values fallback
  | string maxLength => exact reread_of_none (written_undefined _)
  | int fallback opts => exact reread_of_none (written_of_serialize_none (if_pos rfl))
  | date => exact reread_of_none (written_undefined _)
  | id => exact reread_of_none (written_undefined _)

theorem keeps_iff (p : Param N) (params : URLSearchParams) (name : String) :
    reread p (p.spec.parse (params.get name)) = p.spec.parse (params.get name) ↔
      Keeps p (params.get name) := by
  unfold URLSearchParams.get
  cases params.find? fun pair => pair.1 = name with
  | none =>
      rw [Option.map_none]
      refine iff_of_true (reread_none p) ?_
      cases p with
      | _ => trivial
  | some pair =>
      rw [Option.map_some]
      cases p with
      | enum values fallback => exact enum_iff values fallback pair.2.toList
      | string maxLength => exact string_iff maxLength pair.2.toList
      | int fallback opts => exact int_iff fallback opts (Utf16.encode pair.2.toList)
      | date => exact iff_of_true (checked_keeps (p := .date) rfl pair.2.toList) trivial
      | id => exact iff_of_true (checked_keeps (p := .id) rfl pair.2.toList) trivial

/-- The canonical URL of a view has its values, and is its own canonical URL. -/
def Canonical (schema : Schema N) (q : JsString) : Prop :=
  parseParams schema (URLSearchParams.new
      (toSearch schema (parseParams schema (URLSearchParams.new q))))
    = parseParams schema (URLSearchParams.new q) ∧
  toSearch schema (parseParams schema (URLSearchParams.new
      (toSearch schema (parseParams schema (URLSearchParams.new q)))))
    = toSearch schema (parseParams schema (URLSearchParams.new q))

/-- A query is canonical after one pass if and only if each parameter keeps the
    value it is read as. -/
theorem canonical_iff (schema : Schema N) (q : JsString) : Canonical schema q ↔
    ∀ e ∈ schema.entries, Keeps e.2 ((URLSearchParams.new q).get e.1) := by
  have hvalues := parseParams_toSearch schema (URLSearchParams.new q)
  simp only [keeps_iff] at hvalues
  rw [← hvalues]
  constructor
  · exact fun h => h.1
  · exact fun h => ⟨h, by rw [h]⟩

end Schema

/-! ### A cut behind a word -/

/-- Digits as code units. -/
def digitUnits (l : List Char) : JsString := l.map fun c => UInt16.ofNat c.toNat

theorem toNat_digitUnit {c : Char} (h : c.isDigit = true) :
    (UInt16.ofNat c.toNat).toNat = c.toNat := by
  have hdigit := Digits.isDigit_iff.mp h
  exact Utf16.toNat_unit (by omega)

theorem all_isDigit_digitUnits {l : List Char} (h : Digits.AllDigits l) :
    (digitUnits l).all isDigit = true := by
  refine List.all_eq_true.mpr fun u hu => ?_
  rcases List.mem_map.mp hu with ⟨c, hc, rfl⟩
  rw [isDigit, toNat_digitUnit (h c hc), decide_eq_true_eq]
  exact Digits.isDigit_iff.mp (h c hc)

theorem digitsValue_digitUnits {l : List Char} (h : Digits.AllDigits l) :
    digitsValue (digitUnits l) = Digits.value l := by
  induction l using List.reverseRecOn with
  | nil => rfl
  | append_singleton l c ih =>
      have hc : c.isDigit = true := h c (List.mem_append_right _ List.mem_cons_self)
      have h48 : '0'.toNat = 48 := rfl
      have hstep : digitsValue (digitUnits (l ++ [c]))
          = 10 * digitsValue (digitUnits l) + ((UInt16.ofNat c.toNat).toNat - 48) := by
        rw [digitUnits, List.map_append, digitsValue, List.foldl_append]
        rfl
      rw [hstep, ih h.of_append.1, toNat_digitUnit hc, Digits.value_concat,
        Digits.value_singleton, h48]

/-- What stands behind a number that is not written as digits only. -/
def exponent : JsString := lit "e+0"

/-- Natural numbers as numbers that are never rounded. -/
@[reducible] def exactNumbers : JsNumber ℕ where
  toLinearOrder := inferInstance
  ofNumeral := digitsValue
  toText n :=
    digitUnits (Nat.toDigits 10 n) ++
      if n < digitsValue (lit "1000000000000000000000") then [] else exponent
  toText_ascii n u hu := by
    rcases List.mem_append.mp hu with hdigit | hexponent
    · have hall := all_isDigit_digitUnits (Digits.allDigits_toDigits n)
      have hu' := List.all_eq_true.mp hall u hdigit
      rw [isDigit, decide_eq_true_eq] at hu'
      omega
    · split at hexponent
      · cases hexponent
      · have hall : (exponent.all fun u => decide (u.toNat < 128)) = true := by decide
        exact of_decide_eq_true (List.all_eq_true.mp hall u hexponent)
  toText_small s _ hsmall := by
    rw [if_pos hsmall, List.append_nil]
    refine ⟨decide_eq_true ⟨?_, all_isDigit_digitUnits (Digits.allDigits_toDigits _)⟩, ?_⟩
    · rw [digitUnits, Ne, List.map_eq_nil_iff]
      exact (Digits.canonical_toDigits _).ne_nil
    · rw [digitsValue_digitUnits (Digits.allDigits_toDigits _), Digits.value_toDigits]
  toText_large s _ hlarge := by
    rw [if_neg hlarge, isNumeral, decide_eq_false_iff_not, List.all_append]
    have hletter : exponent.all isDigit = false := by decide
    rw [hletter, Bool.and_false]
    rintro ⟨-, h⟩
    cases h

/-- A text of at most three units. -/
def shortText : Schema ℕ where
  entries := [("q", .string 3)]
  nodup := by decide

/-- The cut leaves the space behind the word, which does not come back. -/
theorem cut_behind_word : ¬ @Canonical ℕ exactNumbers shortText (lit "?q=ab+cd") := by
  rintro ⟨h, -⟩
  have hentry : (("q", .string 3) : String × Param ℕ) ∈ shortText.entries := List.mem_cons_self
  have hkeeps := (@keeps_iff ℕ exactNumbers _ _ _).mp
    ((@parseParams_toSearch ℕ exactNumbers shortText _).mp h _ hentry)
  have hraw : (URLSearchParams.new (lit "?q=ab+cd")).get "q" = some (lit "ab cd") := by decide
  rw [hraw] at hkeeps
  -- The third unit is the space.
  have hspace := hkeeps.1 32 (by decide)
  cases hspace

end UrlState

end MmrEngine
