import StellarForge.Ipfs.RoundTrip

/-!
# The two readers

`Metadata` has `getMetadata` over characters, where a document is checked against its CID, and
`RoundTrip` has it over code units, where its lengths count.  A gateway serves UTF-8, so that both read
the same text, and what the first one returns are the texts of what the second one returns.

* `tokenMetadata_seen`: they find the same fields in a parsed document;
* **`getMetadata_texts`**: they return the same document, or the same error;
* `getMetadata_accepted`: a document that the upload handler has accepted is read as it is, over
  characters too.
-/

namespace StellarForge.Ipfs.RoundTrip

open Encoding Text
open Encoding.Json (Value parse stringify)
open Frontend.TokenForm (JsString text)

/-! ### Values -/

mutual

/-- What the reader over characters sees of a value. -/
def seen : Value → Json
  | .string s => .string (text s)
  | .object fields => .object (seenFields fields)
  | _ => .other

/-- The same of the fields of an object. -/
def seenFields : List (JsString × Value) → List (String × Json)
  | [] => []
  | (key, value) :: fields => (text key, seen value) :: seenFields fields

end

/-- The texts of a document. -/
def Document.texts (metadata : Document) : TokenMetadata where
  name := text metadata.name
  description := text metadata.description
  image := text metadata.image

/-- The texts of what the reader returns. -/
def texts : Except JsString Document → Except String TokenMetadata
  | .ok metadata => .ok metadata.texts
  | .error message => .error (text message)

/-- `JSON.parse` of the platform is the one over code units. -/
def ParsesJson (p : Platform) : Prop :=
  ∀ source, p.parseJson source = (parse (units source)).map seen

/-- The code units of what a gateway answers. -/
def servedUnits (p : Platform) : GatewayAnswer → GatewayText
  | .networkError => .networkError
  | .response ok status body => .response ok status (body.map fun octets => units (p.text octets))

variable {p : Platform} {s : JsString}

/-! ### Texts -/

theorem text_units (t : String) : text (units t) = t := by
  rw [text, decode_units, String.ofList_toList]

theorem toList_text (s : JsString) : (text s).toList = decode s := String.toList_ofList

theorem length_charUnits (c : Char) : (charUnits c).length = if 0xFFFF < c.toNat then 2 else 1 := by
  have hiff : c.val < 0x10000 ↔ ¬ 0xFFFF < c.toNat := by
    rw [UInt32.lt_iff_toNat_lt, Nat.not_lt, show (0x10000 : UInt32).toNat = 0x10000 from rfl,
      Nat.lt_succ_iff]
    rfl
  unfold charUnits
  split_ifs with hsmall hlarge hlarge
  · exact absurd hlarge (hiff.mp hsmall)
  · rfl
  · rfl
  · exact absurd (hiff.mpr hlarge) hsmall

theorem utf16Length_eq (t : String) : utf16Length t = (units t).length := by
  rw [utf16Length, units, List.length_flatMap]
  congr 1
  exact List.map_congr_left fun c _ => (length_charUnits c).symm

theorem text_eq_iff {t : String} (ht : '\ufffd' ∉ t.toList) : text s = t ↔ s = units t := by
  constructor
  · intro h
    have hdecode : decode s = t.toList ++ [] := by
      rw [← h, toList_text, List.append_nil]
    obtain ⟨rest, hs, hrest⟩ := exists_of_decode_append ht hdecode
    rw [decode_eq_nil hrest, List.append_nil] at hs
    exact hs
  · rintro rfl
    exact text_units t

/-! ### URIs -/

/-- The characters behind a prefix are those of the units behind it. -/
theorem afterPrefix_decode {t : String} (ht : '\ufffd' ∉ t.toList) :
    afterPrefix t.toList (decode s) =
      if (units t).isPrefixOf s then some (decode (s.drop (units t).length)) else none := by
  rw [afterPrefix]
  split_ifs with hchars hunits hunits
  · obtain ⟨rest, hrest⟩ := List.isPrefixOf_iff_prefix.mp hunits
    have hdecode : decode s = t.toList ++ decode rest := by
      rw [← hrest, units, decode_flatMap_append]
    rw [hdecode, List.drop_left, ← hrest, List.drop_left]
  · obtain ⟨more, hmore⟩ := List.isPrefixOf_iff_prefix.mp hchars
    obtain ⟨rest, hs, -⟩ := exists_of_decode_append ht hmore.symm
    exact absurd (List.isPrefixOf_iff_prefix.mpr ⟨rest, hs.symm⟩) hunits
  · obtain ⟨rest, hrest⟩ := List.isPrefixOf_iff_prefix.mp hunits
    refine absurd (List.isPrefixOf_iff_prefix.mpr ⟨decode rest, ?_⟩) hchars
    rw [← hrest, units, decode_flatMap_append]
  · rfl

theorem afterScheme_decode :
    afterPrefix "ipfs://".toList (decode s) = (afterScheme s).map decode := by
  have hlength : (units "ipfs://").length = 7 := rfl
  rw [afterPrefix_decode (by decide), afterScheme, hlength]
  split_ifs <;> rfl

theorem isAlphanum_iff (c : Char) : c.isAlphanum = true ↔
    (0x61 ≤ c.toNat ∧ c.toNat ≤ 0x7a ∨ 0x41 ≤ c.toNat ∧ c.toNat ≤ 0x5a) ∨
      0x30 ≤ c.toNat ∧ c.toNat ≤ 0x39 := by
  show (decide ('A'.val ≤ c.val ∧ c.val ≤ 'Z'.val) ||
    (decide ('a'.val ≤ c.val) && decide (c.val ≤ 'z'.val)) ||
    (decide ('0'.val ≤ c.val) && decide (c.val ≤ '9'.val))) = true ↔ _
  simp only [Bool.or_eq_true, Bool.and_eq_true, decide_eq_true_eq, UInt32.le_iff_toNat_le]
  exact or_congr_left or_comm

theorem isAlphanumUnit_iff (u : CodeUnit) : isAlphanumUnit u = true ↔
    (0x61 ≤ u.toNat ∧ u.toNat ≤ 0x7a ∨ 0x41 ≤ u.toNat ∧ u.toNat ≤ 0x5a) ∨
      0x30 ≤ u.toNat ∧ u.toNat ≤ 0x39 := by
  simp only [isAlphanumUnit, Bool.or_eq_true, Bool.and_eq_true, decide_eq_true_eq,
    UInt16.le_iff_toNat_le, UInt16.reduceToNat]

theorem isAlphanum_unitChar (u : CodeUnit) : (unitChar u).isAlphanum = isAlphanumUnit u := by
  rw [Bool.eq_iff_iff, isAlphanum_iff, isAlphanumUnit_iff]
  by_cases hsurrogate : (isHighSurrogate u || isLowSurrogate u) = true
  · -- neither a surrogate nor what stands for it
    have hu : unitChar u = '\ufffd' := by
      rw [unitChar, if_pos hsurrogate]
    rw [Bool.or_eq_true] at hsurrogate
    have hlarge := Encoding.Json.toNat_surrogate hsurrogate
    rw [hu]
    exact iff_of_false (by decide) (by omega)
  · rw [Bool.not_eq_true, Bool.or_eq_false_iff] at hsurrogate
    have hunit : (unitChar u).toNat = u.toNat := toNat_unitChar hsurrogate.1 hsurrogate.2
    rw [hunit]

theorem all_isAlphanum (s : JsString) : (decode s).all Char.isAlphanum = s.all isAlphanumUnit := by
  fun_induction decode s with
  | case1 => rfl
  | case2 u =>
    rw [List.all_cons, List.all_cons, isAlphanum_unitChar]
    rfl
  | case3 u v rest hpair ih =>
    -- neither the character nor the first half of the pair
    rw [Bool.and_eq_true] at hpair
    have hchar : (pairChar u v).isAlphanum = false := by
      have hval : (pairChar u v).toNat = _ := toNat_pairChar hpair.1 hpair.2
      rw [← Bool.not_eq_true, isAlphanum_iff]
      omega
    have hunit : isAlphanumUnit u = false := by
      have hlarge := Encoding.Json.toNat_surrogate (.inl hpair.1)
      rw [← Bool.not_eq_true, isAlphanumUnit_iff]
      omega
    rw [List.all_cons, List.all_cons, hchar, hunit, Bool.false_and, Bool.false_and]
  | case4 u v rest hpair ih => rw [List.all_cons, List.all_cons, isAlphanum_unitChar, ih]

theorem isEmpty_decode (s : JsString) : (decode s).isEmpty = s.isEmpty := by
  rw [Bool.eq_iff_iff, List.isEmpty_iff, List.isEmpty_iff]
  constructor
  · exact decode_eq_nil
  · rintro rfl
    rfl

/-- The two patterns for the URI of an image. -/
theorem IPFS_IMAGE_URI_PATTERN_text (s : JsString) :
    IPFS_IMAGE_URI_PATTERN (text s) = IPFS_URI_PATTERN s := by
  rw [IPFS_IMAGE_URI_PATTERN, IPFS_URI_PATTERN, toList_text, afterScheme_decode, Option.any_map]
  congr 1
  ext rest
  show (!(decode rest).isEmpty && (decode rest).all Char.isAlphanum) = _
  rw [isEmpty_decode, all_isAlphanum]

/-! ### Fields -/

theorem find_seenFields {key : String} (hkey : '\ufffd' ∉ key.toList)
    (fields : List (JsString × Value)) :
    ((seenFields fields).find? fun field => field.1 = key).map Prod.snd =
      ((Value.object fields).field (units key)).map seen := by
  show _ = ((fields.find? fun field => field.1 = units key).map Prod.snd).map seen
  induction fields with
  | nil => rfl
  | cons field fields ih =>
    obtain ⟨name, value⟩ := field
    rw [seenFields, List.find?_cons, List.find?_cons]
    dsimp only
    by_cases hname : name = units key
    · rw [decide_eq_true ((text_eq_iff hkey).mpr hname), decide_eq_true hname]
      rfl
    · rw [decide_eq_false fun h => hname ((text_eq_iff hkey).mp h), decide_eq_false hname]
      exact ih

theorem stringField_seen {key : String} (hkey : '\ufffd' ∉ key.toList) (value : Value) :
    (seen value).stringField key = (stringField value key).map text := by
  cases value with
  | object fields =>
    rw [seen, Json.stringField, find_seenFields hkey, stringField]
    rcases (Value.object fields).field (units key) with _ | found
    · rfl
    · cases found <;> rfl
  | _ => rfl

/-- **The readers find the same fields.** -/
theorem tokenMetadata_seen (value : Value) :
    (seen value).tokenMetadata = (tokenMetadata value).map Document.texts := by
  rw [Json.tokenMetadata, tokenMetadata, stringField_seen (by decide), stringField_seen (by decide),
    stringField_seen (by decide)]
  rcases stringField value "name" with _ | name
  · rfl
  rcases stringField value "description" with _ | description
  · rfl
  rcases stringField value "image" with _ | image
  · rfl
  show (if _ then _ else _) = Option.map _ (if _ then _ else _)
  rw [IPFS_IMAGE_URI_PATTERN_text]
  split_ifs <;> rfl

/-! ### Bounds -/

theorem length_points (s : JsString) : (points s).length = (decode s).length := by
  fun_induction points s with
  | case1 => rfl
  | case2 u => rfl
  | case3 u v rest hpair ih => rw [decode, if_pos hpair, List.length_cons, List.length_cons, ih]
  | case4 u v rest hpair ih => rw [decode, if_neg hpair, List.length_cons, List.length_cons, ih]

/-- The first character of a text begins with its first unit. -/
theorem points_cons (u : CodeUnit) (s : JsString) :
    ∃ more others, points (u :: s) = (u :: more) :: others := by
  cases s with
  | nil => exact ⟨[], [], rfl⟩
  | cons v s =>
    rw [points]
    split_ifs
    · exact ⟨[v], _, rfl⟩
    · exact ⟨[], _, rfl⟩

/-- Characters are cut off between characters: no pair is taken apart, and what follows makes none. -/
theorem decode_take_points {w : CodeUnit} (hw : isLowSurrogate w = false) (s : JsString) (n : ℕ) :
    decode (((points s).take n).flatten ++ [w]) = (decode s).take n ++ decode [w] := by
  have happart (u : CodeUnit) : (isHighSurrogate u && isLowSurrogate w) = false := by
    rw [hw, Bool.and_false]
  fun_induction points s generalizing n with
  | case1 =>
    rw [List.take_nil, decode, List.take_nil]
    rfl
  | case2 u =>
    cases n with
    | zero => rfl
    | succ n =>
      show decode (((([u] :: []).take (n + 1)).flatten) ++ [w]) = (unitChar u :: []).take (n + 1) ++ _
      rw [List.take_succ_cons, List.take_succ_cons, List.take_nil, List.take_nil, List.flatten_singleton,
        List.singleton_append, decode_cons]
      · rfl
      · rintro v ⟨⟩
        exact happart u
  | case3 u v rest hpair ih =>
    cases n with
    | zero => rfl
    | succ n =>
      have hpair' := Bool.and_eq_true _ _ ▸ hpair
      rw [decode_pair hpair'.1 hpair'.2, List.take_succ_cons, List.take_succ_cons, List.flatten_cons,
        List.append_assoc, List.cons_append, List.cons_append, List.nil_append,
        decode_pair hpair'.1 hpair'.2, ih, List.cons_append]
  | case4 u v rest hpair ih =>
    cases n with
    | zero => rfl
    | succ n =>
      rw [Bool.not_eq_true] at hpair
      have hcons : decode (u :: v :: rest) = unitChar u :: decode (v :: rest) := by
        apply decode_cons
        rintro x ⟨⟩
        exact hpair
      rw [hcons, List.take_succ_cons, List.take_succ_cons, List.flatten_cons, List.append_assoc,
        List.singleton_append, decode_cons, ih, List.cons_append]
      -- the unit is followed by the next one, or by `w`
      intro x hx
      obtain ⟨more, others, hpoints⟩ := points_cons v rest
      cases n with
      | zero =>
        obtain rfl := Option.some.inj hx
        exact happart u
      | succ n =>
        rw [hpoints] at hx
        obtain rfl := Option.some.inj hx
        exact hpair

theorem clamp_text (s : JsString) (max : ℕ) : Ipfs.clamp (text s) max = text (clamp s max) := by
  have hellipsis : units "…" = [0x2026] := by decide
  rw [Ipfs.clamp, clamp, toList_text, length_points]
  split_ifs
  · rfl
  · rw [text, hellipsis, decode_take_points rfl, String.ofList_append]
    rfl

/-! ### The readers -/

/-- What stands before and behind a URI in the text of an error. -/
theorem text_append_units (before behind t : String) :
    text (units before ++ units t ++ units behind) = before ++ t ++ behind := by
  have hunits : units before ++ units t ++ units behind = units (before ++ t ++ behind) := by
    rw [units, units, units, units, String.toList_append, String.toList_append, List.flatMap_append,
      List.flatMap_append]
  rw [hunits, text_units]

theorem readMetadata_texts (hp : ParsesJson p) (raw cid : String) :
    Ipfs.readMetadata p raw cid = texts (readMetadata p (units raw) (units cid)) := by
  rw [Ipfs.readMetadata, readMetadata, utf16Length_eq, text_units, text_units]
  split_ifs with hsize
  · exact congrArg Except.error (text_units _).symm
  rcases verifyCIDMatch p raw cid with message | _
  · exact congrArg Except.error (text_units _).symm
  dsimp only
  rw [hp raw]
  rcases parse (units raw) with _ | value
  · exact congrArg Except.error (text_units _).symm
  dsimp only [Option.map_some]
  rw [tokenMetadata_seen]
  rcases tokenMetadata value with _ | metadata
  · exact congrArg Except.error (text_units _).symm
  · dsimp only [Option.map_some, TokenMetadata.clamped, Document.texts, texts]
    rw [clamp_text, clamp_text]

theorem afterScheme_units (uri : String) :
    afterScheme (units uri) = if startsWith uri "ipfs://" then some (units (cidText uri)) else none := by
  split_ifs with hscheme
  · obtain ⟨rest, hrest⟩ := List.isPrefixOf_iff_prefix.mp hscheme
    have hcid : cidText uri = String.ofList rest := by
      rw [cidText, ← hrest]
      rfl
    have hunits : units uri = units "ipfs://" ++ units (cidText uri) := by
      rw [hcid, units, ← hrest, List.flatMap_append, units, units]
      exact congrArg (_ ++ List.flatMap charUnits ·) (String.toList_ofList (l := rest)).symm
    rw [hunits, afterScheme_append]
  · -- without the prefix of characters there is none of units
    have hdecode := afterScheme_decode (s := units uri)
    rw [decode_units, afterPrefix] at hdecode
    change (if startsWith uri "ipfs://" then _ else _) = _ at hdecode
    rw [if_neg hscheme] at hdecode
    exact Option.map_eq_none_iff.mp hdecode.symm

/-- **The readers return the same document, or the same error.** -/
theorem getMetadata_texts (hp : ParsesJson p) (gateway : String → GatewayAnswer) (uri : String) :
    Ipfs.getMetadata p gateway uri =
      texts (getMetadata p (fun cid => servedUnits p (gateway (text cid))) (units uri)) := by
  rw [Ipfs.getMetadata, getMetadata, afterScheme_units]
  rcases hscheme : startsWith uri "ipfs://" with _ | _
  · rw [if_pos rfl, if_neg Bool.false_ne_true]
    exact congrArg Except.error (text_append_units _ _ uri).symm
  rw [if_neg Bool.false_ne_true.symm, if_pos rfl]
  dsimp only
  rw [text_units]
  rcases gateway (cidText uri) with _ | ⟨ok, status, body⟩
  · exact congrArg Except.error (text_units _).symm
  cases ok with
  | false => exact congrArg Except.error (text_units _).symm
  | true =>
    rcases body with _ | octets
    · exact congrArg Except.error (text_units _).symm
    · exact readMetadata_texts hp (p.text octets) (cidText uri)

/-- What the upload handler has accepted is read as it is, when a gateway serves it under its CID. -/
theorem getMetadata_accepted {metadata : Document} {gateway : String → GatewayAnswer} {uri : String}
    {octets : Octets} (hp : ParsesJson p)
    (haccepted : validateTokenMetadata metadata.value (stringify metadata.value) = .ok ())
    (hscheme : startsWith uri "ipfs://" = true)
    (hgateway : gateway (cidText uri) = .response true 200 (some octets))
    (hserved : units (p.text octets) = servedText metadata)
    (hverify : verifyCIDMatch p (p.text octets) (cidText uri) = .ok ()) :
    Ipfs.getMetadata p gateway uri = .ok metadata.texts := by
  have htext : text (servedText metadata) = p.text octets := by
    rw [← hserved, text_units]
  have hverify' : verifyCIDMatch p (text (servedText metadata)) (text (units (cidText uri))) = .ok () := by
    rwa [htext, text_units]
  have hread := getMetadata_servedText p haccepted hverify'
  rw [getMetadata, afterScheme_append] at hread
  rw [getMetadata_texts hp, getMetadata, afterScheme_units, if_pos hscheme]
  dsimp only at hread ⊢
  rw [text_units, hgateway, servedUnits, Option.map_some, hserved]
  exact congrArg texts hread

end StellarForge.Ipfs.RoundTrip
