import MmrEngine.Lib.UrlEncoded
import Mathlib.Data.List.TakeWhile

/-!
# Paths of URLs

Texts as the segments of a path, and what becomes of them: a client writes them
into a URL, the URL parser takes that apart, and the server decodes the path.

The parser splits a path at slashes, of either kind, and carries out the dot
segments, also those that are written with `%2e`. So a path may come out as
another one than was put together. A text that `encodeURIComponent` has written
has no slash, and as it is decoded to that text it reads as a dot segment only
where the text is one.

Only `http` and `https` URLs are parsed here, written with the two slashes behind
the scheme.

## Main definitions

* `encodeURIComponent`: Writing a segment.
* `isSingleDot`, `isDoubleDot`, `resolve`: Dot segments.
* `HttpUrl`, `parse`, `parseUrl`: The URL parser.
* `requestPath`: The path as a server decodes it.

## Theorems

* `percentDecode_encodeURIComponent`: A segment that was written.
* `not_dot_encodeURIComponent`: It is a dot segment only if the text is one.
* `parse_written`: The parser finds the segments that were written.
* `requestPath_written`: The server gets the texts.
-/

namespace MmrEngine

namespace UrlPath

open UrlEncoded

/-! ### Writing -/

/-- The bytes `encodeURIComponent` leaves as they are: letters, digits and
    `!'()*-._~`. -/
def isUnreserved (b : UInt8) : Bool :=
  (48 ≤ b.toNat ∧ b.toNat ≤ 57) ∨ (65 ≤ b.toNat ∧ b.toNat ≤ 90) ∨
    (97 ≤ b.toNat ∧ b.toNat ≤ 122) ∨ b.toNat ∈ [33, 39, 40, 41, 42, 45, 46, 95, 126]

/-- A byte as `%` and two digits. -/
def escapeByte (b : UInt8) : List UInt8 := [37, hexDigit (b.toNat / 16), hexDigit (b.toNat % 16)]

def writeByte (b : UInt8) : List UInt8 := if isUnreserved b then [b] else escapeByte b

def encodeURIComponent (text : String) : List UInt8 := (Utf8.encode text.toList).flatMap writeByte

/-- The segments, each behind a slash. -/
def writePath (segments : List String) : List UInt8 :=
  segments.flatMap fun segment => 47 :: encodeURIComponent segment

/-- A query behind its question mark. -/
def writeQuery : Option (List UInt8) → List UInt8
  | none => []
  | some query => 63 :: query

/-! ### Reading -/

/-- `/` and, as the scheme is a special one, `\`. -/
def isSeparator (b : UInt8) : Bool := b = 47 ∨ b = 92

/-- Where the authority ends. -/
def endsAuthority (b : UInt8) : Bool := isSeparator b ∨ b = 63 ∨ b = 35

/-- The ways to write a dot. -/
def dots : List (List UInt8) := [[46], [37, 50, 69], [37, 50, 101]]

def isSingleDot (segment : List UInt8) : Bool := segment ∈ dots

def isDoubleDot (segment : List UInt8) : Bool :=
  segment ∈ dots.flatMap fun first => dots.map fun second => first ++ second

/-- The bytes the parser escapes in a path: controls, the space, what is no ASCII,
    and the double quote, `#<>?^{}` and the backquote. -/
def inPathSet (b : UInt8) : Bool :=
  b.toNat ≤ 32 ∨ 127 ≤ b.toNat ∨ b.toNat ∈ [34, 35, 60, 62, 63, 94, 96, 123, 125]

def normaliseByte (b : UInt8) : List UInt8 := if inPathSet b then escapeByte b else [b]

/-- The path with the segments that follow: two dots take one back, and where they
    or a single dot are last, an empty segment is left. -/
def resolve : List (List UInt8) → List (List UInt8) → List (List UInt8)
  | path, [] => path
  | path, segment :: rest =>
    let trailing := if rest = [] then [[]] else []
    if isDoubleDot segment then resolve (path.dropLast ++ trailing) rest
    else if isSingleDot segment then resolve (path ++ trailing) rest
    else resolve (path ++ [segment.flatMap normaliseByte]) rest

/-- The parts of a URL behind its scheme, but for the fragment. -/
structure HttpUrl where
  authority : List UInt8
  path : List (List UInt8)
  query : Option (List UInt8)
  deriving DecidableEq

/-- The URL parser behind the scheme; the query is taken as it is. -/
def parse (text : List UInt8) : HttpUrl :=
  let rest := (text.dropWhile fun b => !endsAuthority b).takeWhile (· ≠ 35)
  { authority := text.takeWhile fun b => !endsAuthority b
    path := resolve [] (((rest.takeWhile (· ≠ 63)).drop 1).splitOnP isSeparator)
    query := if 63 ∈ rest then some ((rest.dropWhile (· ≠ 63)).drop 1) else none }

def http : List UInt8 := Utf8.encode "http://".toList

def https : List UInt8 := Utf8.encode "https://".toList

/-- The whole URL, where it has one of the two schemes. -/
def parseUrl (url : List UInt8) : Option HttpUrl :=
  if url.take 7 = http then some (parse (url.drop 7))
  else if url.take 8 = https then some (parse (url.drop 8))
  else none

/-- The path as a server decodes it, `unquote` of what the request line has. -/
def requestPath (url : HttpUrl) : String :=
  String.ofList (Utf8.decode (percentDecode (url.path.flatMap fun segment => 47 :: segment)))

/-! ### A segment that was written -/

theorem percentDecode_escapeByte (b : UInt8) (rest : List UInt8) :
    percentDecode (escapeByte b ++ rest) = b :: percentDecode rest := by
  have hlt : b.toNat < 256 := b.toNat_lt
  have hbyte : UInt8.ofNat (b.toNat / 16 * 16 + b.toNat % 16) = b := by
    have hsum : b.toNat / 16 * 16 + b.toNat % 16 = b.toNat := by omega
    rw [hsum, UInt8.ofNat_toNat]
  simp only [escapeByte, List.cons_append, List.nil_append, percentDecode, if_true,
    hexValue_hexDigit (show b.toNat / 16 < 16 by omega),
    hexValue_hexDigit (show b.toNat % 16 < 16 by omega), hbyte]

theorem percentDecode_writeByte (b : UInt8) (rest : List UInt8) :
    percentDecode (writeByte b ++ rest) = b :: percentDecode rest := by
  unfold writeByte
  by_cases hplain : isUnreserved b = true
  · have hpercent : b ≠ 37 := by
      rintro rfl
      revert hplain
      decide
    rw [if_pos hplain, List.singleton_append, percentDecode_cons hpercent]
  · rw [if_neg hplain, percentDecode_escapeByte]

theorem percentDecode_write (bytes rest : List UInt8) :
    percentDecode (bytes.flatMap writeByte ++ rest) = bytes ++ percentDecode rest := by
  induction bytes with
  | nil => rfl
  | cons b bytes ih =>
      rw [List.flatMap_cons, List.append_assoc, percentDecode_writeByte, ih, List.cons_append]

theorem percentDecode_encodeURIComponent (text : String) :
    percentDecode (encodeURIComponent text) = Utf8.encode text.toList := by
  have h := percentDecode_write (Utf8.encode text.toList) []
  rw [List.append_nil] at h
  rw [encodeURIComponent, h]
  exact List.append_nil _

/-- Different texts are written differently. -/
theorem text_of_percentDecode {text text' : String}
    (h : percentDecode (encodeURIComponent text) = Utf8.encode text'.toList) : text = text' := by
  rw [percentDecode_encodeURIComponent] at h
  have hchars := congrArg Utf8.decode h
  rw [Utf8.decode_encode, Utf8.decode_encode] at hchars
  exact String.toList_injective hchars

/-- A written segment is a dot segment only if the text is one. -/
theorem not_dot_encodeURIComponent {text : String} (h : text ≠ ".") (h' : text ≠ "..") :
    isSingleDot (encodeURIComponent text) = false ∧
      isDoubleDot (encodeURIComponent text) = false := by
  have hsingle : ∀ segment ∈ dots, percentDecode segment = Utf8.encode ".".toList := by decide
  have hdouble : ∀ segment ∈ (dots.flatMap fun first => dots.map fun second => first ++ second),
      percentDecode segment = Utf8.encode "..".toList := by decide
  refine ⟨decide_eq_false fun hmem => ?_, decide_eq_false fun hmem => ?_⟩
  · exact h (text_of_percentDecode (hsingle _ hmem))
  · exact h' (text_of_percentDecode (hdouble _ hmem))

theorem isUnreserved_hexDigit {n : Nat} (h : n < 16) : isUnreserved (hexDigit n) = true := by
  rw [isUnreserved, decide_eq_true_eq, toNat_hexDigit h]
  split
  · omega
  · omega

/-- What is written is unreserved, or a percent sign. -/
theorem mem_encodeURIComponent {text : String} {x : UInt8} (h : x ∈ encodeURIComponent text) :
    isUnreserved x = true ∨ x = 37 := by
  rcases List.mem_flatMap.mp h with ⟨b, _, hb⟩
  unfold writeByte at hb
  by_cases hplain : isUnreserved b = true
  · rw [if_pos hplain, List.mem_singleton] at hb
    exact Or.inl (hb ▸ hplain)
  · have hlt : b.toNat < 256 := b.toNat_lt
    rw [if_neg hplain] at hb
    simp only [escapeByte, List.mem_cons, List.not_mem_nil, or_false] at hb
    rcases hb with rfl | rfl | rfl
    · exact Or.inr rfl
    · exact Or.inl (isUnreserved_hexDigit (by omega))
    · exact Or.inl (isUnreserved_hexDigit (by omega))

/-- None of it means anything to the parser. -/
theorem inert_encodeURIComponent {text : String} {x : UInt8} (h : x ∈ encodeURIComponent text) :
    inPathSet x = false ∧ isSeparator x = false ∧ x ≠ 63 ∧ x ≠ 35 := by
  have hbounds : inPathSet x = false ∧ x.toNat ≠ 47 ∧ x.toNat ≠ 92 ∧ x.toNat ≠ 63 ∧
      x.toNat ≠ 35 := by
    rcases mem_encodeURIComponent h with hx | rfl
    · simp only [isUnreserved, decide_eq_true_eq, List.mem_cons, List.not_mem_nil, or_false] at hx
      simp only [inPathSet, decide_eq_false_iff_not, List.mem_cons, List.not_mem_nil, or_false]
      omega
    · decide
  rcases hbounds with ⟨hset, h47, h92, h63, h35⟩
  refine ⟨hset, decide_eq_false ?_, ?_, ?_⟩
  · rintro (rfl | rfl)
    · exact h47 rfl
    · exact h92 rfl
  · rintro rfl
    exact h63 rfl
  · rintro rfl
    exact h35 rfl

/-! ### A path that was written -/

theorem flatMap_normaliseByte {segment : List UInt8} (h : ∀ b ∈ segment, inPathSet b = false) :
    segment.flatMap normaliseByte = segment := by
  induction segment with
  | nil => rfl
  | cons b segment ih =>
      have hb : normaliseByte b = [b] := by
        rw [normaliseByte, h b List.mem_cons_self]
        rfl
      rw [List.flatMap_cons, hb, ih fun x hx => h x (List.mem_cons_of_mem _ hx)]
      rfl

/-- A segment that is left as it is. -/
theorem resolve_cons {path rest : List (List UInt8)} {segment : List UInt8}
    (hsingle : isSingleDot segment = false) (hdouble : isDoubleDot segment = false)
    (hplain : ∀ b ∈ segment, inPathSet b = false) :
    resolve path (segment :: rest) = resolve (path ++ [segment]) rest := by
  rw [resolve, if_neg (by rw [hdouble]; exact Bool.false_ne_true),
    if_neg (by rw [hsingle]; exact Bool.false_ne_true), flatMap_normaliseByte hplain]

/-- No dot segment, nothing to resolve. -/
theorem resolve_written {segments : List String}
    (h : ∀ segment ∈ segments, segment ≠ "." ∧ segment ≠ "..") (path : List (List UInt8)) :
    resolve path (segments.map encodeURIComponent)
      = path ++ segments.map encodeURIComponent := by
  induction segments generalizing path with
  | nil => rw [List.map_nil, resolve, List.append_nil]
  | cons segment segments ih =>
      rcases h segment List.mem_cons_self with ⟨hone, htwo⟩
      rcases not_dot_encodeURIComponent hone htwo with ⟨hsingle, hdouble⟩
      rw [List.map_cons, resolve_cons hsingle hdouble
        fun b hb => (inert_encodeURIComponent hb).1,
        ih (fun s hs => h s (List.mem_cons_of_mem _ hs)), List.append_assoc, List.singleton_append]

/-- The path is split where it was put together. -/
theorem splitOnP_writePath {segments : List String} (h : segments ≠ []) :
    ((writePath segments).drop 1).splitOnP isSeparator = segments.map encodeURIComponent := by
  induction segments with
  | nil => exact absurd rfl h
  | cons segment segments ih =>
      have hinert : ∀ x ∈ encodeURIComponent segment, isSeparator x = false :=
        fun x hx => (inert_encodeURIComponent hx).2.1
      cases segments with
      | nil =>
          have hone : (writePath [segment]).drop 1 = encodeURIComponent segment := by
            simp [writePath]
          rw [hone, List.splitOnP_eq_singleton hinert]
          rfl
      | cons next segments =>
          have hmore : (writePath (segment :: next :: segments)).drop 1
              = encodeURIComponent segment ++ 47 :: (writePath (next :: segments)).drop 1 := by
            simp [writePath]
          rw [hmore, List.splitOnP_append_cons_of_forall_mem hinert 47 rfl, ih (by simp)]
          rfl

/-- A path that was written has neither a question mark nor a number sign. -/
theorem mem_writePath {segments : List String} {x : UInt8} (h : x ∈ writePath segments) :
    x ≠ 63 ∧ x ≠ 35 := by
  rcases List.mem_flatMap.mp h with ⟨segment, _, hx⟩
  rcases List.mem_cons.mp hx with rfl | hx
  · decide
  · exact ⟨(inert_encodeURIComponent hx).2.2.1, (inert_encodeURIComponent hx).2.2.2⟩

/-- Behind the path, the query is found as it is. -/
theorem takeWhile_query {path : List UInt8} (hpath : ∀ x ∈ path, x ≠ 63)
    (query : Option (List UInt8)) :
    (path ++ writeQuery query).takeWhile (· ≠ 63) = path ∧
      (if 63 ∈ path ++ writeQuery query then
        some (((path ++ writeQuery query).dropWhile (· ≠ 63)).drop 1) else none) = query := by
  have hpass : ∀ x ∈ path, decide (x ≠ 63) = true := fun x hx => decide_eq_true (hpath x hx)
  cases query with
  | none =>
      rw [writeQuery, List.append_nil]
      refine ⟨List.takeWhile_eq_self_iff.mpr hpass, if_neg fun hmem => hpath 63 hmem rfl⟩
  | some query =>
      rw [writeQuery, List.takeWhile_append_of_pos hpass, List.dropWhile_append_of_pos hpass,
        List.takeWhile_cons_of_neg (by simp), List.dropWhile_cons_of_neg (by simp),
        List.append_nil, if_pos (List.mem_append_right _ List.mem_cons_self)]
      exact ⟨rfl, rfl⟩

/-- The parser finds the segments that were written. -/
theorem parse_written {authority : List UInt8} {segments : List String}
    {query : Option (List UInt8)} (hauthority : ∀ b ∈ authority, endsAuthority b = false)
    (hne : segments ≠ []) (hdots : ∀ segment ∈ segments, segment ≠ "." ∧ segment ≠ "..")
    (hquery : ∀ b ∈ query.getD [], b ≠ 35) :
    parse (authority ++ (writePath segments ++ writeQuery query))
      = { authority := authority, path := segments.map encodeURIComponent, query := query } := by
  have hpass : ∀ b ∈ authority, (!endsAuthority b) = true := by
    intro b hb
    rw [hauthority b hb]
    rfl
  -- The authority ends at the first slash of the path.
  have hslash : ∃ tail, writePath segments ++ writeQuery query = 47 :: tail := by
    cases segments with
    | nil => exact absurd rfl hne
    | cons segment segments => exact ⟨_, rfl⟩
  have hfragment : ∀ b ∈ writePath segments ++ writeQuery query, decide (b ≠ 35) = true := by
    intro b hb
    refine decide_eq_true ?_
    rcases List.mem_append.mp hb with hpath | htail
    · exact (mem_writePath hpath).2
    · cases query with
      | none => cases htail
      | some query =>
          rcases List.mem_cons.mp htail with rfl | hmem
          · decide
          · exact hquery b hmem
  have htake : (authority ++ (writePath segments ++ writeQuery query)).takeWhile
      (fun b => !endsAuthority b) = authority := by
    rcases hslash with ⟨tail, htail⟩
    rw [htail, List.takeWhile_append_of_pos hpass, List.takeWhile_cons_of_neg (by decide),
      List.append_nil]
  have hdrop : (authority ++ (writePath segments ++ writeQuery query)).dropWhile
      (fun b => !endsAuthority b) = writePath segments ++ writeQuery query := by
    rcases hslash with ⟨tail, htail⟩
    rw [htail, List.dropWhile_append_of_pos hpass, List.dropWhile_cons_of_neg (by decide)]
  have hplain : ∀ x ∈ writePath segments, x ≠ 63 := fun x hx => (mem_writePath hx).1
  rcases takeWhile_query hplain query with ⟨hpath, hfound⟩
  simp only [parse, htake, hdrop, List.takeWhile_eq_self_iff.mpr hfragment, hpath, hfound,
    splitOnP_writePath hne, resolve_written hdots, List.nil_append]

theorem parseUrl_http (rest : List UInt8) : parseUrl (http ++ rest) = some (parse rest) := by
  have htake : (http ++ rest).take 7 = http := List.take_left' rfl
  have hdrop : (http ++ rest).drop 7 = rest := List.drop_left' rfl
  rw [parseUrl, if_pos htake, hdrop]

theorem parseUrl_https (rest : List UInt8) : parseUrl (https ++ rest) = some (parse rest) := by
  have hother : (https ++ rest).take 7 ≠ http := by
    rw [List.take_append_of_le_length (by decide)]
    decide
  have htake : (https ++ rest).take 8 = https := List.take_left' rfl
  have hdrop : (https ++ rest).drop 8 = rest := List.drop_left' rfl
  rw [parseUrl, if_neg hother, if_pos htake, hdrop]

/-- The server gets the texts. -/
theorem requestPath_written {url : HttpUrl} {segments : List String}
    (h : url.path = segments.map encodeURIComponent) :
    requestPath url = String.ofList (segments.flatMap fun segment => '/' :: segment.toList) := by
  have hbytes : ∀ segments : List String,
      percentDecode ((segments.map encodeURIComponent).flatMap fun segment => 47 :: segment)
        = Utf8.encode (segments.flatMap fun segment => '/' :: segment.toList) := by
    intro segments
    induction segments with
    | nil => rfl
    | cons segment segments ih =>
        rw [List.map_cons, List.flatMap_cons, List.cons_append, percentDecode_cons (by decide),
          encodeURIComponent, percentDecode_write, ih, List.flatMap_cons, Utf8.encode, Utf8.encode,
          Utf8.encode, List.flatMap_append, List.flatMap_cons]
        rfl
  rw [requestPath, h, hbytes, Utf8.decode_encode]

end UrlPath

end MmrEngine
