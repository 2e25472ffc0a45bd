import Mathlib.Algebra.Order.BigOperators.Group.List
import StellarForge.Factory.Token
import StellarForge.Ipfs.Metadata

/-!
# The integrity of metadata

A CID carries the hash of a block.  A raw block is the document itself; a dag-pb block wraps the
document into a UnixFS file, so that the hash of the document is not the hash in the CID.  The check
hashes the text of the answer, re-encoded, and is left out for a CID that does not look like one.

* `getMetadata_eq_ok`: when a document is returned;
* `backspace_mem_dagPbBlock`: no dag-pb block is a JSON text;
* `integrity_iff`: **the URIs and bodies for which the reader is sound and complete**;
* `not_integrity_samplePath`: a path after the CID, which the contract accepts.
-/

namespace StellarForge.Ipfs

open Text Soroban Contract

/-! ### Content addressing -/

/-- A protobuf varint. -/
def varint (n : ℕ) : Octets :=
  if n < 128 then [UInt8.ofNat n] else UInt8.ofNat (n % 128 + 128) :: varint (n / 128)

/-- A UnixFS file: its type, its data and its size. -/
def unixFsFile (data : Octets) : Octets :=
  [0x08, 0x02, 0x12] ++ varint data.length ++ data ++ [0x18] ++ varint data.length

/-- The dag-pb block, without links, that wraps a document which fits one block. -/
def dagPbBlock (data : Octets) : Octets :=
  [0x0a] ++ varint (unixFsFile data).length ++ unixFsFile data

/-- The document is the content that the CID addresses. -/
def Addresses (p : Platform) (cid : Cid) (document : Octets) : Prop :=
  cid.hashCode = SHA2_256_CODE ∧
    cid.digest = p.sha256 (if cid.code = DAG_PB_CODE then dagPbBlock document else document)

/-- A gateway that serves one body. -/
def serving (body : Octets) : String → GatewayAnswer := fun _ => .response true 200 (some body)

/-- What is returned of the body is content that the URI's CID addresses. -/
def Sound (p : Platform) (uri : String) (body : Octets) : Prop :=
  ∀ metadata, getMetadata p (serving body) uri = .ok metadata →
    ∃ cid, p.parseCid (cidText uri) = .ok cid ∧ Addresses p cid body

/-- The body is a document of at most 100 KB, whose fields are not clamped. -/
def IsDocument (p : Platform) (body : Octets) (metadata : TokenMetadata) : Prop :=
  body.length ≤ MAX_METADATA_BYTES ∧
    (∃ json, p.parseJson (p.text body) = some json ∧ json.tokenMetadata = some metadata) ∧
    metadata.name.toList.length ≤ MAX_METADATA_NAME_LENGTH ∧
    metadata.description.toList.length ≤ MAX_METADATA_DESCRIPTION_LENGTH

/-- A document that an accepted CID addresses is returned as it is. -/
def Complete (p : Platform) (uri : String) (body : Octets) : Prop :=
  isValidIPFSUri uri = true → ∀ cid metadata, p.parseCid (cidText uri) = .ok cid →
    Addresses p cid body → IsDocument p body metadata →
    getMetadata p (serving body) uri = .ok metadata

/-- What is displayed is the document of the URI, and its document is displayed. -/
def Integrity (p : Platform) (uri : String) (body : Octets) : Prop :=
  Sound p uri body ∧ Complete p uri body

/-! ### The condition -/

/-- The body is short enough, and a metadata document. -/
def Displayable (p : Platform) (body : Octets) : Prop :=
  utf16Length (p.text body) ≤ MAX_METADATA_BYTES ∧ ∃ json metadata,
    p.parseJson (p.text body) = some json ∧ json.tokenMetadata = some metadata

/-- The digest of the CID is the hash of the body's text. -/
def HashesText (p : Platform) (cid : Cid) (body : Octets) : Prop :=
  cid.hashCode = SHA2_256_CODE ∧ cid.digest = p.sha256 (utf8 (p.text body))

/-- The block is the body, and the body is the encoding of its text. -/
def PlainBlock (p : Platform) (cid : Cid) (body : Octets) : Prop :=
  cid.code ≠ DAG_PB_CODE ∧ utf8 (p.text body) = body

/-- Where the CID is checked, what hashes to it is a plain block; where it is not, the body is what
the CID addresses. -/
def Checkable (p : Platform) (uri : String) (body : Octets) : Prop :=
  startsWith uri "ipfs://" = true → Displayable p body →
    if looksLikeRealCID (cidText uri) then
      ∀ cid, p.parseCid (cidText uri) = .ok cid → HashesText p cid body → PlainBlock p cid body
    else
      ∃ cid, p.parseCid (cidText uri) = .ok cid ∧ Addresses p cid body

/-- What an accepted CID addresses, if it is a document, is a plain block. -/
def Recognizable (p : Platform) (uri : String) (body : Octets) : Prop :=
  isValidIPFSUri uri = true → ∀ cid metadata, p.parseCid (cidText uri) = .ok cid →
    Addresses p cid body → IsDocument p body metadata → PlainBlock p cid body

variable {p : Platform} {uri raw : String} {body : Octets} {cid : Cid} {metadata : TokenMetadata}

/-! ### What is returned -/

theorem verifyCIDMatch_eq_ok : verifyCIDMatch p raw (cidText uri) = .ok () ↔
    looksLikeRealCID (cidText uri) = false ∨ ∃ cid, p.parseCid (cidText uri) = .ok cid ∧
      cid.hashCode = SHA2_256_CODE ∧ cid.digest = p.sha256 (utf8 raw) := by
  rw [verifyCIDMatch]
  split_ifs with hlooks
  · exact iff_of_true rfl (.inl hlooks)
  · rw [or_iff_right hlooks]
    rcases hparse : p.parseCid (cidText uri) with message | cid
    · constructor
      · intro h
        cases h
      · rintro ⟨cid, h, -⟩
        cases h
    · -- a parsed CID can be created again
      have hcreate : Cid.create cid.version cid.code SHA2_256_CODE (p.sha256 (utf8 raw)) =
          .ok ⟨cid.version, cid.code, SHA2_256_CODE, p.sha256 (utf8 raw)⟩ := by
        rw [Cid.create, if_neg]
        rintro ⟨hversion, hcode⟩
        rcases p.parseCid_version hparse with ⟨-, h⟩ | h
        · exact hcode h
        · rw [hversion] at h
          cases h
      simp only [hcreate]
      obtain ⟨version, code, hashCode, digest⟩ := cid
      constructor
      · intro h
        split_ifs at h with hne
        have heq := Cid.mk.inj (not_not.mp hne)
        exact ⟨_, rfl, heq.2.2.1, heq.2.2.2⟩
      · rintro ⟨cid, h, hhash, hdigest⟩
        obtain rfl := Except.ok.inj h
        rw [if_neg]
        rw [not_not]
        exact congrArg₂ (Cid.mk version code) hhash hdigest

theorem readMetadata_eq_ok : readMetadata p raw (cidText uri) = .ok metadata ↔
    utf16Length raw ≤ MAX_METADATA_BYTES ∧ verifyCIDMatch p raw (cidText uri) = .ok () ∧
      ∃ json document, p.parseJson raw = some json ∧ json.tokenMetadata = some document ∧
        document.clamped = metadata := by
  rw [readMetadata]
  -- the four places where reading can stop, in their order
  split_ifs with hlong
  · constructor
    · intro h
      cases h
    · rintro ⟨h, -⟩
      exact absurd h (Nat.not_le.mpr hlong)
  · rw [and_iff_right (Nat.not_lt.mp hlong)]
    rcases verifyCIDMatch p raw (cidText uri) with message | ⟨⟩
    · constructor
      · intro h
        cases h
      · rintro ⟨h, -⟩
        cases h
    · rw [and_iff_right rfl]
      rcases p.parseJson raw with _ | json
      · constructor
        · intro h
          cases h
        · rintro ⟨json, document, h, -⟩
          cases h
      · constructor
        · intro h
          dsimp only at h
          split at h
          · cases h
          · next document hdocument => exact ⟨json, document, rfl, hdocument, Except.ok.inj h⟩
        · rintro ⟨json', document, h, hdocument, hclamped⟩
          obtain rfl := Option.some.inj h
          dsimp only
          rw [hdocument]
          exact congrArg Except.ok hclamped

/-- **When a document is returned.** -/
theorem getMetadata_eq_ok : getMetadata p (serving body) uri = .ok metadata ↔
    startsWith uri "ipfs://" = true ∧ utf16Length (p.text body) ≤ MAX_METADATA_BYTES ∧
      (looksLikeRealCID (cidText uri) = false ∨
        ∃ cid, p.parseCid (cidText uri) = .ok cid ∧ HashesText p cid body) ∧
      ∃ json document, p.parseJson (p.text body) = some json ∧
        json.tokenMetadata = some document ∧ document.clamped = metadata := by
  rw [getMetadata]
  split_ifs with hscheme
  · constructor
    · intro h
      cases h
    · rintro ⟨h, -⟩
      rw [hscheme] at h
      cases h
  · rw [and_iff_right (eq_true_of_ne_false hscheme)]
    show readMetadata p (p.text body) (cidText uri) = .ok metadata ↔ _
    rw [readMetadata_eq_ok, verifyCIDMatch_eq_ok]
    rfl

/-- Fields within their bounds are left alone. -/
theorem clamped_eq_self (hname : metadata.name.toList.length ≤ MAX_METADATA_NAME_LENGTH)
    (hdescription : metadata.description.toList.length ≤ MAX_METADATA_DESCRIPTION_LENGTH) :
    metadata.clamped = metadata := by
  rw [TokenMetadata.clamped, clamp, clamp, if_pos hname, if_pos hdescription]

/-! ### Texts and blocks -/

/-- No character has more UTF-16 units than UTF-8 bytes. -/
theorem units_le_utf8Size (c : Char) : (if 0xFFFF < c.toNat then 2 else 1) ≤ c.utf8Size := by
  have hpos : 0 < c.utf8Size := c.utf8Size_pos
  split_ifs with hwide
  · have hval : ¬ c.val ≤ 0x7F := by
      intro hle
      have : c.toNat ≤ 0x7F := hle
      omega
    unfold Char.utf8Size
    dsimp only
    split_ifs with hone
    · exact absurd hone hval
    all_goals omega
  · omega

theorem utf16Length_le : utf16Length raw ≤ (utf8 raw).length := by
  rw [utf16Length, utf8, List.length_flatMap]
  apply List.sum_le_sum
  intro c _
  rw [String.length_utf8EncodeChar]
  exact units_le_utf8Size c

theorem length_le_utf16Length : raw.toList.length ≤ utf16Length raw := by
  rw [utf16Length]
  calc raw.toList.length = (raw.toList.map fun _ => 1).sum := by simp
    _ ≤ _ := by
      apply List.sum_le_sum
      intro c _
      split_ifs <;> omega

/-- What follows a prefix is shorter by the prefix. -/
theorem length_of_afterPrefix {pattern text rest : List Char}
    (h : afterPrefix pattern text = some rest) : text.length = pattern.length + rest.length := by
  rw [afterPrefix] at h
  split_ifs at h with hprefix
  obtain rfl := Option.some.inj h
  have hle := (List.isPrefixOf_iff_prefix.mp hprefix).length_le
  rw [List.length_drop]
  omega

/-- A CID of one of the patterns is long enough to be checked. -/
theorem looksLikeRealCID_of_valid (h : isValidIPFSUri uri = true) :
    looksLikeRealCID (cidText uri) = true := by
  rw [isValidIPFSUri, Bool.and_eq_true] at h
  have hlong : 10 ≤ (cidText uri).toList.length := by
    rcases (Bool.or_eq_true ..).mp h.2 with h | h
    · obtain ⟨rest, hrest, hpattern⟩ := (Option.any_eq_true ..).mp h
      rw [Bool.and_eq_true, beq_iff_eq] at hpattern
      have := length_of_afterPrefix hrest
      omega
    · obtain ⟨rest, hrest, hpattern⟩ := (Option.any_eq_true ..).mp h
      rw [Bool.and_eq_true, decide_eq_true_eq] at hpattern
      have := length_of_afterPrefix hrest
      omega
  rw [looksLikeRealCID, if_neg]
  · exact h.2
  · exact Nat.not_lt.mpr (hlong.trans length_le_utf16Length)

/-- **No dag-pb block is a JSON text**: there is a backspace in it. -/
theorem backspace_mem_dagPbBlock (data : Octets) : 0x08 ∈ dagPbBlock data := by
  rw [dagPbBlock]
  apply List.mem_append_right
  rw [unixFsFile]
  simp

/-! ### Soundness -/

/-- What is addressed through a dag-pb block does not hash to its digest as a text. -/
theorem not_hashesText_of_dagPb (hcode : cid.code = DAG_PB_CODE) (haddresses : Addresses p cid body)
    (hhashes : HashesText p cid body) : p.parseJson (p.text body) = none := by
  have hblock : utf8 (p.text body) = dagPbBlock body := by
    apply p.sha256_inj
    rw [← hhashes.2, haddresses.2, if_pos hcode]
  rcases hparse : p.parseJson (p.text body) with _ | json
  · rfl
  · have hmem := backspace_mem_dagPbBlock body
    rw [← hblock] at hmem
    exact absurd hmem (p.parseJson_backspace hparse)

/-- What hashes to the digest as a text is what a raw CID addresses, if it is the encoding of its
text. -/
theorem addresses_iff_of_raw (hcode : cid.code ≠ DAG_PB_CODE) (hhashes : HashesText p cid body) :
    Addresses p cid body ↔ utf8 (p.text body) = body := by
  rw [Addresses, if_neg hcode, and_iff_right hhashes.1, hhashes.2]
  constructor
  · exact fun h => p.sha256_inj h
  · exact fun h => congrArg p.sha256 h

/-- A displayable body is returned in some form, if its CID lets it pass. -/
theorem exists_getMetadata (hscheme : startsWith uri "ipfs://" = true)
    (hdisplayable : Displayable p body) (hpasses : looksLikeRealCID (cidText uri) = false ∨
      ∃ cid, p.parseCid (cidText uri) = .ok cid ∧ HashesText p cid body) :
    ∃ metadata, getMetadata p (serving body) uri = .ok metadata := by
  obtain ⟨hshort, json, document, hparse, hdocument⟩ := hdisplayable
  have hread : ∃ json' document', p.parseJson (p.text body) = some json' ∧
      json'.tokenMetadata = some document' ∧ document'.clamped = document.clamped :=
    ⟨json, document, hparse, hdocument, rfl⟩
  use document.clamped
  rw [getMetadata_eq_ok]
  exact ⟨hscheme, hshort, hpasses, hread⟩

/-- The condition, where the CID is checked. -/
theorem checkable_of_looks (hlooks : looksLikeRealCID (cidText uri) = true) :
    Checkable p uri body ↔ (startsWith uri "ipfs://" = true → Displayable p body →
      ∀ cid, p.parseCid (cidText uri) = .ok cid → HashesText p cid body → PlainBlock p cid body) := by
  simp only [Checkable, hlooks, if_true]

/-- The condition, where it is not. -/
theorem checkable_of_not_looks (hlooks : looksLikeRealCID (cidText uri) = false) :
    Checkable p uri body ↔ (startsWith uri "ipfs://" = true → Displayable p body →
      ∃ cid, p.parseCid (cidText uri) = .ok cid ∧ Addresses p cid body) := by
  simp only [Checkable, hlooks, Bool.false_eq_true, if_false]

theorem sound_iff : Sound p uri body ↔ Checkable p uri body := by
  rcases hlooks : looksLikeRealCID (cidText uri) with _ | _
  · -- a path is not checked at all, so soundness is about what the gateway serves
    rw [checkable_of_not_looks hlooks]
    constructor
    · intro hsound hscheme hdisplayable
      obtain ⟨metadata, hreturned⟩ := exists_getMetadata hscheme hdisplayable (.inl hlooks)
      exact hsound metadata hreturned
    · intro hcheckable metadata hreturned
      obtain ⟨hscheme, hshort, -, json, document, hparse, hdocument, -⟩ :=
        getMetadata_eq_ok.mp hreturned
      exact hcheckable hscheme ⟨hshort, json, document, hparse, hdocument⟩
  · rw [checkable_of_looks hlooks]
    constructor
    · intro hsound hscheme hdisplayable cid hparse hhashes
      obtain ⟨metadata, hreturned⟩ :=
        exists_getMetadata hscheme hdisplayable (.inr ⟨cid, hparse, hhashes⟩)
      obtain ⟨cid', hparse', haddresses⟩ := hsound metadata hreturned
      obtain rfl := Except.ok.inj (hparse.symm.trans hparse')
      -- a dag-pb hash is over the node, so no text that parses can have it
      have hcode : cid.code ≠ DAG_PB_CODE := by
        intro hcode
        obtain ⟨-, json, document, hjson, -⟩ := hdisplayable
        rw [not_hashesText_of_dagPb hcode haddresses hhashes] at hjson
        cases hjson
      exact ⟨hcode, (addresses_iff_of_raw hcode hhashes).mp haddresses⟩
    · intro hcheckable metadata hreturned
      obtain ⟨hscheme, hshort, hpasses, json, document, hparse, hdocument, -⟩ :=
        getMetadata_eq_ok.mp hreturned
      -- the check was passed by hashing, not by being skipped
      rcases hpasses with hnot | ⟨cid, hcid, hhashes⟩
      · rw [hlooks] at hnot
        cases hnot
      · obtain ⟨hcode, hplain⟩ :=
          hcheckable hscheme ⟨hshort, json, document, hparse, hdocument⟩ cid hcid hhashes
        exact ⟨cid, hcid, (addresses_iff_of_raw hcode hhashes).mpr hplain⟩

/-! ### Completeness -/

theorem complete_iff : Complete p uri body ↔ Recognizable p uri body := by
  constructor
  · intro hcomplete hvalid cid metadata hcid haddresses hdocument
    have hreturned := hcomplete hvalid cid metadata hcid haddresses hdocument
    obtain ⟨-, -, hpasses, json, document, hparse, -⟩ := getMetadata_eq_ok.mp hreturned
    rcases hpasses with hnot | ⟨cid', hcid', hhashes⟩
    · rw [looksLikeRealCID_of_valid hvalid] at hnot
      cases hnot
    · obtain rfl := Except.ok.inj (hcid.symm.trans hcid')
      -- here too a dag-pb content cannot be the text itself
      have hcode : cid.code ≠ DAG_PB_CODE := by
        intro hcode
        rw [not_hashesText_of_dagPb hcode haddresses hhashes] at hparse
        cases hparse
      exact ⟨hcode, (addresses_iff_of_raw hcode hhashes).mp haddresses⟩
  · intro hrecognizable hvalid cid metadata hcid haddresses hdocument
    obtain ⟨hcode, hplain⟩ := hrecognizable hvalid cid metadata hcid haddresses hdocument
    obtain ⟨hsize, ⟨json, hparse, hmetadata⟩, hname, hdescription⟩ := hdocument
    have hscheme : startsWith uri "ipfs://" = true := by
      rw [isValidIPFSUri, Bool.and_eq_true] at hvalid
      exact hvalid.1
    -- a text has no more code units than bytes
    have hshort : utf16Length (p.text body) ≤ MAX_METADATA_BYTES := by
      have hle : utf16Length (p.text body) ≤ (utf8 (p.text body)).length := utf16Length_le
      rw [hplain] at hle
      exact hle.trans hsize
    have hhashes : HashesText p cid body := by
      refine ⟨haddresses.1, ?_⟩
      rw [haddresses.2, if_neg hcode, hplain]
    have hclamped : metadata.clamped = metadata := clamped_eq_self hname hdescription
    have hread : ∃ json document, p.parseJson (p.text body) = some json ∧
        json.tokenMetadata = some document ∧ document.clamped = metadata :=
      ⟨json, metadata, hparse, hmetadata, hclamped⟩
    rw [getMetadata_eq_ok]
    exact ⟨hscheme, hshort, .inr ⟨cid, hcid, hhashes⟩, hread⟩

/-- **When the reader is sound and complete.** -/
theorem integrity_iff (p : Platform) (uri : String) (body : Octets) :
    Integrity p uri body ↔ Checkable p uri body ∧ Recognizable p uri body :=
  and_congr sound_iff complete_iff

/-! ### A path after the CID -/

/-- `\x7b"name":"a","description":"b","image":"ipfs://c"\x7d`, with the braces escaped. -/
def sampleSource : String :=
  "\x7b\"name\":\"a\",\"description\":\"b\",\"image\":\"ipfs://c\"\x7d"

/-- A document. -/
def sampleJson : Json :=
  .object [("name", .string "a"), ("description", .string "b"), ("image", .string "ipfs://c")]

/-- A page that reads ASCII, knows the document above, and is asked for no CID that parses. -/
def samplePlatform : Platform where
  sha256 := id
  sha256_inj := id
  parseCid := fun _ => .error "Non-base58btc character"
  parseCid_version := by
    intro text cid h
    cases h
  text := fun body => String.ofList (body.map fun byte => Char.ofNat byte.toNat)
  parseJson := fun source => if source = sampleSource then some sampleJson else none
  parseJson_backspace := by
    intro source json h
    split_ifs at h with heq
    rw [heq]
    decide

/-- A URI with a path behind its CID. -/
def sampleUri : String := "ipfs://QmYwAPJzv5CZsnA625s3Xf2nemtYgPpHdWEz79ojWnPbdG/metadata.json"

/-- Any document is displayed for a URI with a path. -/
theorem not_integrity_samplePath :
    (∀ e s, Returns (Factory.validateMetadataUri (utf8 sampleUri)) e s () s) ∧
      ¬ Integrity samplePlatform sampleUri (utf8 sampleSource) := by
  constructor
  · intro e s
    have hlength : (utf8 sampleUri).length = 67 := by decide +kernel
    have hprefix : (utf8 sampleUri).take 7 = Factory.ipfsPrefix := by decide +kernel
    have hmax : 67 ≤ Factory.METADATA_URI_MAX_LEN := by decide
    simp [Factory.validateMetadataUri, hlength, hprefix, hmax]
  · rintro ⟨hsound, -⟩
    -- the path is no CID, and the body is returned unchecked
    have hreturned : getMetadata samplePlatform (serving (utf8 sampleSource)) sampleUri =
        .ok ⟨"a", "b", "ipfs://c"⟩ := by
      decide +kernel
    obtain ⟨cid, hparse, -⟩ := hsound ⟨"a", "b", "ipfs://c"⟩ hreturned
    cases hparse

end StellarForge.Ipfs
