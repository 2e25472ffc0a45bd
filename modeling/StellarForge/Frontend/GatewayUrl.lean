import StellarForge.Encoding.Pattern
import StellarForge.Encoding.Url

/-!
# Gateway URLs

`ipfsToGatewayUrl` makes a URL of the gateway of a URI that whoever created a token has written.

* `ipfsToGatewayUrl_confined`: **whatever the URI, it is the placeholder or a URL beneath the prefix of
  the gateway.**
-/

namespace StellarForge.Frontend.Gateway

open Encoding

/-- `encodeURIComponent(text)`, of a text without unpaired surrogates. -/
def encodeURIComponent (text : List CodeUnit) : List CodeUnit :=
  (encodeUtf8 text).flatMap fun byte =>
    if byte.toUInt16 ∈ units "ABCDEFGHIJKLMNOPQRSTUVWXYZabcdefghijklmnopqrstuvwxyz0123456789-_.!~*'()" then
      [byte.toUInt16]
    else
      let digit (n : ℕ) := (units "0123456789ABCDEF").getD n 0
      [0x25, digit (byte.toNat / 16), digit (byte.toNat % 16)]

/-- What is shown in place of an image. -/
def TOKEN_IMAGE_PLACEHOLDER : List CodeUnit :=
  units "data:image/svg+xml," ++
    encodeURIComponent (units
      ("<svg xmlns=\"http://www.w3.org/2000/svg\" width=\"96\" height=\"96\" viewBox=\"0 0 96 96\">" ++
        "<rect width=\"96\" height=\"96\" fill=\"#e5e7eb\"/>" ++
        "<path d=\"M28 62l14-18 10 12 6-7 10 13z\" fill=\"#9ca3af\"/>" ++
        "<circle cx=\"36\" cy=\"34\" r=\"6\" fill=\"#9ca3af\"/>" ++ "</svg>"))

/-- `IPFS_CONFIG.pinataGateway` -/
def pinataGateway : List CodeUnit := units "https://gateway.pinata.cloud/ipfs"

/-- `[A-Za-z0-9]` -/
def ALPHANUMERIC : List CodeUnit :=
  units "ABCDEFGHIJKLMNOPQRSTUVWXYZabcdefghijklmnopqrstuvwxyz0123456789"

/-- `[A-Za-z0-9._-]` -/
def SEGMENT : List CodeUnit := ALPHANUMERIC ++ units "._-"

/-- `[A-Za-z0-9][A-Za-z0-9._-]*(\/[A-Za-z0-9._-]+)*` -/
def PATH_PATTERN : RegularExpression CodeUnit :=
  oneOf ALPHANUMERIC * (oneOf SEGMENT).star *
    (RegularExpression.char 0x2f * oneOrMore (oneOf SEGMENT)).star

/-- `IPFS_CONFIG.pinataGateway.replace(/\/+$/, '')` -/
def gatewayBase : List CodeUnit := (pinataGateway.reverse.dropWhile (· = 0x2f)).reverse

/-- The address of an image at the gateway, or the placeholder. -/
def ipfsToGatewayUrl (uri : List CodeUnit) : List CodeUnit :=
  if !(units "ipfs://").isPrefixOf uri then TOKEN_IMAGE_PLACEHOLDER
  else
    let path := (uri.drop (units "ipfs://").length).dropWhile (· = 0x2f)
    if path = [] ∨ PATH_PATTERN.rmatch path = false then TOKEN_IMAGE_PLACEHOLDER
    else if (path.splitOn 0x2f).any fun segment => segment = units ".." ∨ segment = units "." then
      TOKEN_IMAGE_PLACEHOLDER
    else gatewayBase ++ 0x2f :: path

/-! ### The pattern -/

variable {path : List CodeUnit}

/-- What the pattern matches is put together of segments over its class. -/
theorem exists_segments (h : PATH_PATTERN.rmatch path = true) :
    ∃ segments, segments ≠ [] ∧ (∀ segment ∈ segments, segment ≠ [] ∧ ∀ u ∈ segment, u ∈ SEGMENT) ∧
      0x2f :: path = Url.joined segments := by
  rw [RegularExpression.rmatch_iff_matches', PATH_PATTERN, RegularExpression.matches'_mul,
    Language.mem_mul] at h
  obtain ⟨first, hfirst, rest, hrest, rfl⟩ := h
  rw [RegularExpression.matches'_mul, Language.mem_mul] at hfirst
  obtain ⟨head, hhead, tail, htail, rfl⟩ := hfirst
  obtain ⟨u, hu, rfl⟩ := mem_oneOf.mp hhead
  have htail := mem_star_oneOf.mp htail
  rw [RegularExpression.matches'_star, Language.mem_kstar] at hrest
  obtain ⟨pieces, rfl, hpieces⟩ := hrest
  -- the other segments are the pieces without their slashes
  have hslash : ∀ piece ∈ pieces, 0x2f :: piece.tail = piece ∧ piece.tail ≠ [] ∧
      ∀ v ∈ piece.tail, v ∈ SEGMENT := by
    intro piece hpiece
    have hpiece := hpieces piece hpiece
    rw [RegularExpression.matches'_mul, Language.mem_mul, RegularExpression.matches'_char] at hpiece
    obtain ⟨slash, rfl, segment, hsegment, rfl⟩ := hpiece
    exact ⟨rfl, mem_oneOrMore_oneOf.mp hsegment⟩
  refine ⟨(u :: tail) :: pieces.map List.tail, List.cons_ne_nil _ _, ?_, ?_⟩
  · rw [List.forall_mem_cons]
    constructor
    · refine ⟨List.cons_ne_nil _ _, ?_⟩
      rw [List.forall_mem_cons]
      exact ⟨List.mem_append_left _ hu, htail⟩
    · intro segment hsegment
      obtain ⟨piece, hpiece, rfl⟩ := List.mem_map.mp hsegment
      exact (hslash piece hpiece).2
  · have hback : (pieces.map List.tail).flatMap (fun segment => 0x2f :: segment) = pieces.flatten := by
      rw [List.flatMap_map, List.flatMap_def]
      congr 1
      rw [List.map_congr_left fun piece hpiece => (hslash piece hpiece).1, List.map_id']
    rw [Url.joined, List.flatMap_cons, hback]
    rfl

/-! ### The prefix of the gateway -/

theorem isPlain_of_mem_SEGMENT {u : CodeUnit} (h : u ∈ SEGMENT) : Url.isPlain u = true := by
  have hall : SEGMENT.all Url.isPlain = true := by decide
  exact List.all_eq_true.mp hall u h

theorem percent_not_mem {segment : List CodeUnit} (h : ∀ u ∈ segment, u ∈ SEGMENT) : 0x25 ∉ segment := by
  intro hmem
  exact absurd (h 0x25 hmem) (by decide)

/-- A segment over the class that is neither `.` nor `..` stays in its place: the class has no percent
sign to escape a dot with. -/
theorem plain_of_segment {segment : List CodeUnit} (h : ∀ u ∈ segment, u ∈ SEGMENT)
    (hsingle : segment ≠ units ".") (hdouble : segment ≠ units "..") : Url.Plain segment where
  units u hu := isPlain_of_mem_SEGMENT (h u hu)
  single := by
    -- the spellings with a percent sign are out, since no segment has one
    have hpercent := percent_not_mem h
    rw [Url.isSingleDot, ← Bool.not_eq_true, List.contains_iff_mem]
    intro hmem
    simp only [List.mem_cons, List.not_mem_nil, or_false] at hmem
    rcases hmem with rfl | rfl | rfl
    · exact hsingle rfl
    · exact hpercent (by decide)
    · exact hpercent (by decide)
  double := by
    have hpercent := percent_not_mem h
    rw [Url.isDoubleDot, ← Bool.not_eq_true, List.contains_iff_mem]
    intro hmem
    rcases List.mem_cons.mp hmem with rfl | hmem
    · exact hdouble rfl
    · -- the same for the eight spellings of the double dot
      have hall : [units ".%2e", units ".%2E", units "%2e.", units "%2E.", units "%2e%2e",
          units "%2e%2E", units "%2E%2e", units "%2E%2E"].all (fun segment => 0x25 ∈ segment) =
          true := by
        decide
      exact hpercent (of_decide_eq_true (List.all_eq_true.mp hall segment hmem))

/-- A path that stays beneath the place where it is put: segments over the class, none of them empty, `.`
or `..`. -/
structure Confined (segments : List (List CodeUnit)) : Prop where
  ne_nil : segments ≠ []
  segment_ne_nil : ∀ segment ∈ segments, segment ≠ []
  units : ∀ segment ∈ segments, ∀ u ∈ segment, u ∈ SEGMENT
  notDots : ∀ segment ∈ segments, segment ≠ Encoding.units "." ∧ segment ≠ Encoding.units ".."

/-- The prefix of the gateway as a URL. -/
theorem gatewayBase_eq :
    gatewayBase = units "https" ++ 0x3a :: 0x2f :: 0x2f ::
      (units "gateway.pinata.cloud" ++ Url.joined [units "ipfs"]) := by
  decide

/-- A URL beneath the prefix is read as one. -/
theorem parse_gatewayUrl {segments : List (List CodeUnit)} (h : Confined segments) :
    Url.parse (gatewayBase ++ Url.joined segments) =
      some { scheme := units "https", credentials := none, host := units "gateway.pinata.cloud",
             path := units "ipfs" :: segments, query := none, fragment := none } := by
  have hurl : gatewayBase ++ Url.joined segments =
      Url.ofSegments (units "https") (units "gateway.pinata.cloud") (units "ipfs" :: segments) := by
    rw [gatewayBase_eq, Url.ofSegments]
    simp only [List.append_assoc, List.cons_append]
    rfl
  have hhost : (units "gateway.pinata.cloud").all Url.isPlain = true := by decide
  have hipfs : (units "ipfs").all (· ∈ SEGMENT) = true := by decide
  rw [hurl, Url.parse_ofSegments (by decide) (by decide) (List.all_eq_true.mp hhost)
    (List.cons_ne_nil _ _)]
  rw [List.forall_mem_cons]
  constructor
  · refine plain_of_segment (fun u hu => ?_) (by decide) (by decide)
    exact of_decide_eq_true (List.all_eq_true.mp hipfs u hu)
  · intro segment hsegment
    obtain ⟨hsingle, hdouble⟩ := h.notDots segment hsegment
    exact plain_of_segment (h.units segment hsegment) hsingle hdouble

/-- **Whatever the URI, it is resolved to the placeholder or to a URL beneath the prefix of the
gateway**, which a browser does not leave. -/
theorem ipfsToGatewayUrl_confined (uri : List CodeUnit) :
    ipfsToGatewayUrl uri = TOKEN_IMAGE_PLACEHOLDER ∨
      ∃ segments, Confined segments ∧
        ipfsToGatewayUrl uri = gatewayBase ++ Url.joined segments ∧
        Url.parse (ipfsToGatewayUrl uri) =
          some { scheme := units "https", credentials := none, host := units "gateway.pinata.cloud",
                 path := units "ipfs" :: segments, query := none, fragment := none } := by
  rw [ipfsToGatewayUrl]
  split_ifs with hprefix
  · exact .inl rfl
  dsimp only
  split_ifs with hmatch hdots
  · exact .inl rfl
  · exact .inl rfl
  right
  obtain ⟨-, hmatch⟩ := not_or.mp hmatch
  obtain ⟨segments, hnil, hsegments, hpath⟩ :=
    exists_segments (Bool.eq_true_of_not_eq_false hmatch)
  -- the second check looks at these segments
  have hslash : ∀ segment ∈ segments, (0x2f : CodeUnit) ∉ segment := fun segment hsegment hmem =>
    absurd ((hsegments segment hsegment).2 _ hmem) (by decide)
  have hsplit : List.splitOn 0x2f ((uri.drop (units "ipfs://").length).dropWhile (· = 0x2f)) =
      segments := by
    rw [(List.cons.inj (hpath.trans (Url.joined_eq hnil))).2, List.splitOn_intercalate 0x2f hslash hnil]
  rw [hsplit, List.any_eq_true] at hdots
  have hconfined : Confined segments := by
    refine ⟨hnil, fun segment h => (hsegments segment h).1, fun segment h => (hsegments segment h).2,
      fun segment h => ?_⟩
    have hne : ¬ (segment = units ".." ∨ segment = units ".") := fun heq =>
      hdots ⟨segment, h, decide_eq_true heq⟩
    exact ⟨fun heq => hne (.inr heq), fun heq => hne (.inl heq)⟩
  refine ⟨segments, hconfined, ?_, ?_⟩
  · rw [hpath]
  · rw [hpath]
    exact parse_gatewayUrl hconfined

example : ipfsToGatewayUrl (units "ipfs://Q/a") = units "https://gateway.pinata.cloud/ipfs/Q/a" := by
  decide +kernel

end StellarForge.Frontend.Gateway
