import Mathlib.Data.List.TakeWhile
import StellarForge.Encoding.Utf16

/-!
# URLs

What a browser makes of an absolute `http` or `https` URL.  The host is kept as its text, and so are
percent escapes in the path, except that an escaped dot counts as one where a segment consists of
dots.

* `parse_ofSegments`: **a URL of plain segments is read as it was put together.**
-/

namespace StellarForge.Encoding

/-- A URL in its parts. -/
structure Url where
  scheme : List CodeUnit
  /-- What stands before the last `@` of the authority. -/
  credentials : Option (List CodeUnit)
  host : List CodeUnit
  path : List (List CodeUnit)
  query : Option (List CodeUnit)
  fragment : Option (List CodeUnit)
  deriving DecidableEq, Repr

namespace Url

/-! ### Parsing -/

/-- What stands before the first `u`, and what stands after it. -/
def cut (u : CodeUnit) (text : List CodeUnit) : List CodeUnit × Option (List CodeUnit) :=
  (text.takeWhile (· ≠ u), if u ∈ text then some ((text.dropWhile (· ≠ u)).drop 1) else none)

/-- The control characters and the space, which are dropped at both ends. -/
def isControlOrSpace (u : CodeUnit) : Bool := u ≤ 0x20

/-- A tab or a line break, which is dropped anywhere. -/
def isTabOrNewline (u : CodeUnit) : Bool := u == 0x09 || u == 0x0a || u == 0x0d

/-- `/` or `\` -/
def isSlash (u : CodeUnit) : Bool := u == 0x2f || u == 0x5c

/-- The input without what the parser removes before it reads anything. -/
def strip (input : List CodeUnit) : List CodeUnit :=
  (((input.dropWhile isControlOrSpace).reverse.dropWhile isControlOrSpace).reverse).filter
    (!isTabOrNewline ·)

/-- A segment is `.`, also with the dot escaped. -/
def isSingleDot (segment : List CodeUnit) : Bool :=
  [units ".", units "%2e", units "%2E"].contains segment

/-- A segment is `..`, also with dots escaped. -/
def isDoubleDot (segment : List CodeUnit) : Bool :=
  [units "..", units ".%2e", units ".%2E", units "%2e.", units "%2E.", units "%2e%2e",
    units "%2e%2E", units "%2E%2e", units "%2E%2E"].contains segment

/-- The segments of a path one after the other: `..` takes the last one away. -/
def normalize : (done : List (List CodeUnit)) → List (List CodeUnit) → List (List CodeUnit)
  | done, [] => done
  | done, segment :: rest =>
    if isDoubleDot segment then
      -- at the end there is an empty segment in its place
      normalize (done.dropLast ++ if rest = [] then [[]] else []) rest
    else if isSingleDot segment then normalize (done ++ if rest = [] then [[]] else []) rest
    else normalize (done ++ [segment]) rest

/-- The segments of a text that starts with a slash. -/
def segments (text : List CodeUnit) : List (List CodeUnit) :=
  (text.drop 1).splitOnP isSlash

/-- The authority: the credentials and the host. -/
def authority (text : List CodeUnit) : Option (List CodeUnit) × List CodeUnit :=
  let host := (text.reverse.takeWhile (· ≠ 0x40)).reverse
  (if 0x40 ∈ text then some (text.take (text.length - host.length - 1)) else none, host)

/-- An absolute URL; `none` for another scheme than `http` and `https`. -/
def parse (input : List CodeUnit) : Option Url := do
  let (text, fragment) := cut 0x23 (strip input)
  let (text, query) := cut 0x3f text
  let (scheme, rest) := cut 0x3a text
  let rest ← rest
  if [units "http", units "https"].contains scheme then
    let rest := rest.dropWhile isSlash
    let (credentials, host) := authority (rest.takeWhile (!isSlash ·))
    return { scheme, credentials, host,
             path := normalize [] (segments (rest.dropWhile (!isSlash ·))), query, fragment }
  else none

/-! ### Plain segments -/

/-- The unit has no meaning for the parser. -/
def isPlain (u : CodeUnit) : Bool :=
  !(isControlOrSpace u || isSlash u || u == 0x23 || u == 0x3f || u == 0x3a || u == 0x40)

/-- A segment that stays in its place. -/
structure Plain (segment : List CodeUnit) : Prop where
  units : ∀ u ∈ segment, isPlain u = true
  single : isSingleDot segment = false
  double : isDoubleDot segment = false

/-- The path with the given segments. -/
def joined (path : List (List CodeUnit)) : List CodeUnit := path.flatMap fun segment => 0x2f :: segment

/-- The URL with the given parts. -/
def ofSegments (scheme host : List CodeUnit) (path : List (List CodeUnit)) : List CodeUnit :=
  scheme ++ 0x3a :: 0x2f :: 0x2f :: (host ++ joined path)

variable {u v : CodeUnit} {scheme host text rest segment : List CodeUnit}
  {path done : List (List CodeUnit)}

theorem ne_of_isPlain (h : isPlain u = true) (hv : isPlain v = false) : u ≠ v := by
  rintro rfl
  rw [hv] at h
  cases h

theorem isSlash_of_isPlain (h : isPlain u = true) : isSlash u = false := by
  simp only [isPlain, Bool.not_eq_true', Bool.or_eq_false_iff] at h
  exact h.1.1.1.1.2

theorem isControlOrSpace_of_isPlain (h : isPlain u = true) : isControlOrSpace u = false := by
  simp only [isPlain, Bool.not_eq_true', Bool.or_eq_false_iff] at h
  exact h.1.1.1.1.1

/-- A text without the separator is not cut. -/
theorem cut_eq_of_not_mem (h : u ∉ text) : cut u text = (text, none) := by
  have htake : text.takeWhile (· ≠ u) = text := by
    apply List.takeWhile_eq_self_iff.mpr
    intro v hv
    rw [decide_eq_true_eq]
    rintro rfl
    exact h hv
  rw [cut, htake, if_neg h]

/-- A text is cut at its first separator. -/
theorem cut_append (h : u ∉ text) : cut u (text ++ u :: rest) = (text, some rest) := by
  have hkeep : ∀ v ∈ text, decide (v ≠ u) = true := by
    intro v hv
    rw [decide_eq_true_eq]
    rintro rfl
    exact h hv
  have htake : (text ++ u :: rest).takeWhile (· ≠ u) = text := by
    rw [List.takeWhile_append_of_pos hkeep, List.takeWhile_cons_of_neg (by simp), List.append_nil]
  have hdrop : (text ++ u :: rest).dropWhile (· ≠ u) = u :: rest := by
    rw [List.dropWhile_append_of_pos hkeep, List.dropWhile_cons_of_neg (by simp)]
  rw [cut, htake, hdrop, if_pos (by simp)]
  rfl

/-- Without control characters and spaces nothing is dropped. -/
theorem strip_eq (h : ∀ u ∈ text, isControlOrSpace u = false) : strip text = text := by
  have hend {text : List CodeUnit} (h : ∀ u ∈ text, isControlOrSpace u = false) :
      text.dropWhile isControlOrSpace = text := by
    cases text with
    | nil => rfl
    | cons u text =>
      have hu := h u List.mem_cons_self
      exact List.dropWhile_cons_of_neg (by rw [hu]; decide)
  rw [strip, hend h, hend fun u hu => h u (List.mem_reverse.mp hu), List.reverse_reverse]
  apply List.filter_eq_self.mpr
  intro u hu
  have hu := h u hu
  rw [isControlOrSpace, decide_eq_false_iff_not, UInt16.le_iff_toNat_le] at hu
  -- a tab and the line breaks are control characters
  have hne (k : CodeUnit) (hk : k.toNat ≤ 0x20) : (u == k) = false := by
    rw [beq_eq_false_iff_ne]
    rintro rfl
    exact hu hk
  rw [isTabOrNewline, hne 0x09 (by decide), hne 0x0a (by decide), hne 0x0d (by decide)]
  rfl

/-- The host, where there are no credentials. -/
theorem authority_eq (h : 0x40 ∉ host) : authority host = (none, host) := by
  have htake : host.reverse.takeWhile (· ≠ 0x40) = host.reverse := by
    apply List.takeWhile_eq_self_iff.mpr
    intro u hu
    rw [decide_eq_true_eq]
    rintro rfl
    exact h (List.mem_reverse.mp hu)
  rw [authority, htake, List.reverse_reverse, if_neg h]

/-- Segments without slashes are found again. -/
theorem segments_joined (hpath : path ≠ [])
    (h : ∀ segment ∈ path, ∀ u ∈ segment, isSlash u = false) : segments (joined path) = path := by
  have hsplit (segment : List CodeUnit) (hsegment : ∀ u ∈ segment, isSlash u = false) :
      ∀ path : List (List CodeUnit), (∀ segment ∈ path, ∀ u ∈ segment, isSlash u = false) →
        (segment ++ joined path).splitOnP isSlash = segment :: path := by
    intro path
    induction path generalizing segment with
    | nil =>
      intro _
      rw [joined, List.flatMap_nil, List.append_nil, List.splitOnP_eq_singleton hsegment]
    | cons next path ih =>
      intro h
      rw [List.forall_mem_cons] at h
      have hjoined : joined (next :: path) = 0x2f :: (next ++ joined path) := rfl
      rw [hjoined, List.splitOnP_append_cons_of_forall_mem hsegment _ (by decide), ih next h.1 h.2]
  cases path with
  | nil => exact absurd rfl hpath
  | cons segment path =>
    rw [List.forall_mem_cons] at h
    exact hsplit segment h.1 path h.2

/-- A path is its segments, with a slash before each. -/
theorem joined_eq (hpath : path ≠ []) : joined path = 0x2f :: [0x2f].intercalate path := by
  induction path with
  | nil => exact absurd rfl hpath
  | cons segment path ih =>
    cases path with
    | nil => rw [joined, List.flatMap_singleton, List.intercalate_singleton]
    | cons next path =>
      have hjoined : joined (segment :: next :: path) = 0x2f :: (segment ++ joined (next :: path)) :=
        rfl
      rw [hjoined, ih (List.cons_ne_nil _ _), List.intercalate_cons_cons, List.append_assoc,
        List.singleton_append]

/-- Segments that stay in their places are not changed. -/
theorem normalize_eq (h : ∀ segment ∈ path, Plain segment) : normalize done path = done ++ path := by
  induction path generalizing done with
  | nil => rw [normalize, List.append_nil]
  | cons segment path ih =>
    rw [List.forall_mem_cons] at h
    rw [normalize, h.1.single, h.1.double, if_neg Bool.false_ne_true, if_neg Bool.false_ne_true,
      ih h.2, List.append_assoc, List.singleton_append]

theorem mem_joined : u ∈ joined path ↔ ∃ segment ∈ path, u = 0x2f ∨ u ∈ segment := by
  rw [joined, List.mem_flatMap]
  exact exists_congr fun segment => and_congr_right fun _ => List.mem_cons

section OfSegments

variable (hscheme : ∀ u ∈ scheme, isPlain u = true) (hhost : ∀ u ∈ host, isPlain u = true)
  (hplain : ∀ segment ∈ path, Plain segment)

include hscheme hhost hplain

/-- Every unit is plain, or one of the two delimiters. -/
theorem isPlain_of_mem_ofSegments (hu : u ∈ ofSegments scheme host path) :
    isPlain u = true ∨ u = 0x3a ∨ u = 0x2f := by
  simp only [ofSegments, List.mem_append, List.mem_cons, mem_joined] at hu
  rcases hu with hu | rfl | rfl | rfl | hu | ⟨segment, hsegment, rfl | hu⟩
  · exact .inl (hscheme u hu)
  · exact .inr (.inl rfl)
  · exact .inr (.inr rfl)
  · exact .inr (.inr rfl)
  · exact .inl (hhost u hu)
  · exact .inr (.inr rfl)
  · exact .inl ((hplain segment hsegment).units u hu)

theorem not_mem_ofSegments (hu : isPlain u = false) (hcolon : u ≠ 0x3a) (hslash : u ≠ 0x2f) :
    u ∉ ofSegments scheme host path := by
  intro hmem
  rcases isPlain_of_mem_ofSegments hscheme hhost hplain hmem with h | h | h
  · exact ne_of_isPlain h hu rfl
  · exact hcolon h
  · exact hslash h

theorem strip_ofSegments : strip (ofSegments scheme host path) = ofSegments scheme host path := by
  apply strip_eq
  intro u hu
  rcases isPlain_of_mem_ofSegments hscheme hhost hplain hu with h | rfl | rfl
  · exact isControlOrSpace_of_isPlain h
  · rfl
  · rfl

end OfSegments

/-- After the two slashes comes the host. -/
theorem dropWhile_slashes (hnil : host ≠ []) (hhost : ∀ u ∈ host, isPlain u = true)
    (rest : List CodeUnit) : (0x2f :: 0x2f :: (host ++ rest)).dropWhile isSlash = host ++ rest := by
  cases host with
  | nil => exact absurd rfl hnil
  | cons first host =>
    have hfirst : isSlash first = false := isSlash_of_isPlain (hhost first List.mem_cons_self)
    rw [List.dropWhile_cons_of_pos (by decide), List.dropWhile_cons_of_pos (by decide),
      List.cons_append, List.dropWhile_cons_of_neg (by rw [hfirst]; decide)]

/-- The host goes up to the slash of the path. -/
theorem span_host (hhost : ∀ u ∈ host, isPlain u = true) (hpath : path ≠ []) :
    (host ++ joined path).takeWhile (!isSlash ·) = host ∧
      (host ++ joined path).dropWhile (!isSlash ·) = joined path := by
  have hkeep : ∀ u ∈ host, (!isSlash u) = true := by
    intro u hu
    rw [isSlash_of_isPlain (hhost u hu)]
    rfl
  obtain ⟨segment, path, rfl⟩ := List.exists_cons_of_ne_nil hpath
  have hjoined : joined (segment :: path) = 0x2f :: (segment ++ joined path) := rfl
  rw [hjoined, List.takeWhile_append_of_pos hkeep, List.takeWhile_cons_of_neg (by decide),
    List.append_nil, List.dropWhile_append_of_pos hkeep, List.dropWhile_cons_of_neg (by decide)]
  exact ⟨rfl, rfl⟩

theorem isPlain_scheme (hscheme : scheme ∈ [units "http", units "https"]) :
    ∀ u ∈ scheme, isPlain u = true := by
  have hall : [units "http", units "https"].all (fun scheme => scheme.all isPlain) = true := by
    decide
  have hscheme := List.all_eq_true.mp hall scheme hscheme
  exact List.all_eq_true.mp hscheme

/-- **A URL of plain segments is read as it was put together**: it has no credentials, no query and no
fragment, and its path has these segments. -/
theorem parse_ofSegments (hscheme : scheme ∈ [units "http", units "https"]) (hnil : host ≠ [])
    (hhost : ∀ u ∈ host, isPlain u = true) (hpath : path ≠ [])
    (hplain : ∀ segment ∈ path, Plain segment) :
    parse (ofSegments scheme host path) =
      some { scheme, credentials := none, host, path, query := none, fragment := none } := by
  have hletters := isPlain_scheme hscheme
  have hhash : 0x23 ∉ ofSegments scheme host path :=
    not_mem_ofSegments hletters hhost hplain (by decide) (by decide) (by decide)
  have hquestion : 0x3f ∉ ofSegments scheme host path :=
    not_mem_ofSegments hletters hhost hplain (by decide) (by decide) (by decide)
  have hcut : cut 0x3a (ofSegments scheme host path) =
      (scheme, some (0x2f :: 0x2f :: (host ++ joined path))) := by
    apply cut_append
    intro hmem
    exact ne_of_isPlain (hletters _ hmem) (by decide) rfl
  have hat : 0x40 ∉ host := fun hmem => ne_of_isPlain (hhost _ hmem) (by decide) rfl
  have hsegments : segments (joined path) = path :=
    segments_joined hpath fun s hs u hu => isSlash_of_isPlain ((hplain s hs).units u hu)
  obtain ⟨htake, hdrop⟩ := span_host hhost hpath
  unfold parse
  rw [strip_ofSegments hletters hhost hplain, cut_eq_of_not_mem hhash]
  dsimp only
  rw [cut_eq_of_not_mem hquestion]
  dsimp only
  rw [hcut]
  dsimp only [Option.bind_eq_bind, Option.bind_some]
  rw [if_pos (List.contains_iff_mem.mpr hscheme), dropWhile_slashes hnil hhost, htake, hdrop,
    authority_eq hat, hsegments, normalize_eq hplain, List.nil_append]
  rfl

end Url

end StellarForge.Encoding
