import StellarForge.Encoding.Json
import StellarForge.Frontend.TokenForm
import StellarForge.Ipfs.Metadata

/-!
# From the metadata form to the pin and back

What `MetadataForm` lets through, the document that it uploads, the checks of the upload handler and
the reader of the pinned document.  Strings are code units here, since the form, the handler and the
reader measure them in different ways.

* `validateTokenMetadata_value_iff`: which documents the handler accepts;
* `getMetadata_served`: what it has accepted is read back as it is;
* `formRoundTrips_iff`: **the forms whose documents make the whole way**.
-/

namespace StellarForge.Ipfs.RoundTrip

open Encoding Text
open Encoding.Json (Value parse stringify quoteUnits)
open Frontend.TokenForm (JsString text trim)

/-- What is read of a string that has been sent as UTF-8. -/
def received (s : JsString) : JsString := units (text s)

/-! ### The form -/

/-- The fields of the form, with its file. -/
structure MetadataForm (F : Type) where
  tokenAddress : JsString
  description : JsString
  imageFile : Option F

variable {F : Type}

/-- `handleSubmit`, which opens the confirmation or shows an error. -/
def handleSubmit (form : MetadataForm F) : Except String Unit :=
  if form.imageFile.isNone then .error "Please select an image file"
  else if (trim form.tokenAddress).isEmpty then .error "Please enter a token address"
  else if form.description.length > MAX_METADATA_DESCRIPTION_LENGTH then
    .error ("Description must be " ++ toString MAX_METADATA_DESCRIPTION_LENGTH ++
      " characters or fewer")
  else .ok ()

/-- `TokenMetadata` -/
structure Document where
  name : JsString
  description : JsString
  image : JsString
  deriving DecidableEq, Repr

/-- The document of `uploadMetadataDetailed`; the form passes the token address, as it was entered,
as the name. -/
def uploadedMetadata (form : MetadataForm F) (imageCid : JsString) : Document where
  name := form.tokenAddress
  description := form.description
  image := units "ipfs://" ++ imageCid

/-- The document, as it is written. -/
def Document.value (metadata : Document) : Value :=
  .object [(units "name", .string metadata.name), (units "description", .string metadata.description),
    (units "image", .string metadata.image)]

/-- The body of `_uploadJSON`, as the server receives it. -/
def requestBody (metadata : Document) (name : JsString) : JsString :=
  received (stringify (.object [(units "metadata", metadata.value), (units "name", .string name)]))

/-! ### The upload handler -/

/-- The bound of the document, in code units. -/
def MAX_METADATA_JSON_SIZE : ℕ := 8 * 1024

/-- The bound of the name, in code units. -/
def MAX_NAME_LENGTH : ℕ := 128

/-- The bound of the description, in code units. -/
def MAX_DESCRIPTION_LENGTH : ℕ := 2000

/-- What follows `ipfs://`. -/
def afterScheme (uri : JsString) : Option JsString :=
  if (units "ipfs://").isPrefixOf uri then some (uri.drop 7) else none

/-- A letter or a digit of ASCII. -/
def isAlphanumUnit (u : CodeUnit) : Bool :=
  (0x61 ≤ u && u ≤ 0x7a) || (0x41 ≤ u && u ≤ 0x5a) || (0x30 ≤ u && u ≤ 0x39)

/-- `/^ipfs:\/\/[a-zA-Z0-9]+$/` -/
def IPFS_URI_PATTERN (image : JsString) : Bool :=
  (afterScheme image).any fun rest => !rest.isEmpty && rest.all isAlphanumUnit

/-- `typeof value === "object" && value !== null` -/
def isObject : Value → Bool
  | .object _ => true
  | .array _ => true
  | _ => false

/-- A string that is neither empty nor longer than `max`. -/
def isBoundedString (value : Option Value) (max : ℕ) : Bool :=
  match value with
  | some (.string s) => s.length ≠ 0 && s.length ≤ max
  | _ => false

/-- A string that has the form of an image's URI. -/
def isImageUri (value : Option Value) : Bool :=
  match value with
  | some (.string s) => IPFS_URI_PATTERN s
  | _ => false

/-- `Object.keys` of an object that is no array. -/
def keys : Value → List JsString
  | .object fields => fields.map Prod.fst
  | _ => []

/-- `validateTokenMetadata`; an array has no name. -/
def validateTokenMetadata (metadata : Value) (jsonString : JsString) : Except JsString Unit :=
  if jsonString.length > MAX_METADATA_JSON_SIZE then
    .error (units ("Metadata exceeds maximum size of " ++ toString MAX_METADATA_JSON_SIZE ++
      " bytes."))
  else if !isObject metadata then .error (units "Metadata must be a JSON object.")
  else if !isBoundedString (metadata.field (units "name")) MAX_NAME_LENGTH then
    .error (units ("name must be a non-empty string, max " ++ toString MAX_NAME_LENGTH ++
      " characters."))
  else if !isBoundedString (metadata.field (units "description")) MAX_DESCRIPTION_LENGTH then
    .error (units ("description must be a non-empty string, max " ++
      toString MAX_DESCRIPTION_LENGTH ++ " characters."))
  else if !isImageUri (metadata.field (units "image")) then
    .error (units "image must be in ipfs://CID format (e.g., ipfs://QmXxxx).")
  else
    match (keys metadata).find? fun key =>
      !(key == units "name" || key == units "description" || key == units "image") with
    | some key => .error (units "Unexpected field: " ++ key ++ units ".")
    | none => .ok ()

/-- The checks of the handler of `upload-json` on the body that the server has parsed, up to the content
that it pins. -/
def pinnedContent (body : Option Value) : Except JsString Value :=
  match body.bind (·.field (units "name")), body.bind (·.field (units "metadata")) with
  | some (.string _), some metadata =>
    if isObject metadata then do
      validateTokenMetadata metadata (stringify metadata)
      return metadata
    else .error (units "Request body must include \x7b metadata: object, name: string \x7d.")
  | _, _ => .error (units "Request body must include \x7b metadata: object, name: string \x7d.")

/-! ### The reader -/

/-- `[...value]` -/
def points : JsString → List JsString
  | [] => []
  | [u] => [[u]]
  | u :: v :: rest =>
    if isHighSurrogate u && isLowSurrogate v then [u, v] :: points rest
    else [u] :: points (v :: rest)

/-- Clamp a string to `max` characters, appending an ellipsis when shortened. -/
def clamp (value : JsString) (max : ℕ) : JsString :=
  if (points value).length ≤ max then value else ((points value).take max).flatten ++ units "…"

/-- A field of an object, if it is a string. -/
def stringField (value : Value) (key : String) : Option JsString :=
  match value.field (units key) with
  | some (.string s) => some s
  | _ => none

/-- `isTokenMetadata`, with the fields that it has looked at. -/
def tokenMetadata (value : Value) : Option Document := do
  let name ← stringField value "name"
  let description ← stringField value "description"
  let image ← stringField value "image"
  if IPFS_URI_PATTERN image then return { name, description, image } else none

/-- What the gateway answers, after the retries: an error, or a response whose text may be
unreadable. -/
inductive GatewayText
  | networkError
  | response (ok : Bool) (status : ℕ) (raw : Option JsString)

variable (p : Platform)

/-- A text that the reader has received, checked against the CID and read. -/
def readMetadata (raw cid : JsString) : Except JsString Document :=
  if raw.length > MAX_METADATA_BYTES then
    .error (units "Metadata document is too large to display.")
  else
    match verifyCIDMatch p (text raw) (text cid) with
    | .error message => .error (units message)
    | .ok () =>
      match parse raw with
      | none => .error (units "Metadata response is not valid JSON.")
      | some parsed =>
        match tokenMetadata parsed with
        | none => .error (units
          ("Metadata response is missing required fields (name, description, image) " ++
            "or its image is not an ipfs:// URI."))
        | some metadata => .ok
          { name := clamp metadata.name MAX_METADATA_NAME_LENGTH
            description := clamp metadata.description MAX_METADATA_DESCRIPTION_LENGTH
            image := metadata.image }

/-- `getMetadata`; `gateway` answers for the text after `ipfs://`. -/
def getMetadata (gateway : JsString → GatewayText) (uri : JsString) : Except JsString Document :=
  match afterScheme uri with
  | none => .error (units "Invalid IPFS URI: \"" ++ uri ++ units "\". Expected format: ipfs://<CID>")
  | some cid =>
    match gateway cid with
    | .networkError =>
      .error (units "Network error while fetching metadata from IPFS gateway. Check your connection.")
    | .response false status _ =>
      .error (units ("Failed to fetch metadata (HTTP " ++ toString status ++
        "). The CID may not be pinned yet."))
    | .response true _ none =>
      .error (units "Network error while reading metadata from the IPFS gateway.")
    | .response true _ (some raw) => readMetadata p raw cid

/-! ### The whole way -/

/-- The text of a pinned document, as a gateway serves it. -/
def servedText (metadata : Document) : JsString := received (stringify metadata.value)

/-- The handler accepts the document of the form, and a reader of what is served gets it back. -/
def RoundTrips (form : MetadataForm F) (imageCid : JsString) : Prop :=
  let metadata := uploadedMetadata form imageCid
  pinnedContent (parse (requestBody metadata (form.tokenAddress ++ units "-metadata.json"))) =
      .ok metadata.value ∧
    ∀ (p : Platform) (cid : JsString),
      verifyCIDMatch p (text (servedText metadata)) (text cid) = .ok () →
        getMetadata p (fun _ => .response true 200 (some (servedText metadata)))
          (units "ipfs://" ++ cid) = .ok metadata

/-- The length of the document, of which 46 units are not the form's. -/
def documentLength (form : MetadataForm F) (imageCid : JsString) : ℕ :=
  46 + (quoteUnits form.tokenAddress).length + (quoteUnits form.description).length + imageCid.length

/-! ### The handler -/

variable {metadata : Document} {form : MetadataForm F} {imageCid : JsString}

theorem field_name : metadata.value.field (units "name") = some (.string metadata.name) := rfl

theorem field_description :
    metadata.value.field (units "description") = some (.string metadata.description) := rfl

theorem field_image : metadata.value.field (units "image") = some (.string metadata.image) := rfl

theorem isBoundedString_iff {s : JsString} {max : ℕ} :
    isBoundedString (some (.string s)) max = true ↔ s ≠ [] ∧ s.length ≤ max := by
  rw [isBoundedString, Bool.and_eq_true, decide_eq_true_eq, decide_eq_true_eq, ne_eq,
    List.length_eq_zero_iff]

/-- The documents that the handler accepts. -/
theorem validateTokenMetadata_value_iff :
    validateTokenMetadata metadata.value (stringify metadata.value) = .ok () ↔
      (stringify metadata.value).length ≤ MAX_METADATA_JSON_SIZE ∧
      (metadata.name ≠ [] ∧ metadata.name.length ≤ MAX_NAME_LENGTH) ∧
      (metadata.description ≠ [] ∧ metadata.description.length ≤ MAX_DESCRIPTION_LENGTH) ∧
      IPFS_URI_PATTERN metadata.image = true := by
  -- the document has the three keys and no other
  have hkeys : ((keys metadata.value).find? fun key =>
      !(key == units "name" || key == units "description" || key == units "image")) = none := by
    rfl
  rw [validateTokenMetadata, field_name, field_description, field_image, hkeys]
  rw [← isBoundedString_iff, ← isBoundedString_iff, ← Nat.not_lt]
  have hobject : (!isObject metadata.value) = false := rfl
  rw [hobject]
  show (if _ then _ else _) = _ ↔ _
  -- the checks in the order of the source
  split_ifs with hsize hfalse hname hdescription himage
  · exact iff_of_false nofun fun h => h.1 hsize
  · cases hfalse
  · exact iff_of_false nofun fun h => by rw [h.2.1] at hname; cases hname
  · exact iff_of_false nofun fun h => by rw [h.2.2.1] at hdescription; cases hdescription
  · exact iff_of_false nofun fun h => by
      rw [isImageUri, h.2.2.2] at himage
      cases himage
  · rw [Bool.not_eq_true, Bool.not_eq_false'] at hname hdescription himage
    exact iff_of_true rfl ⟨hsize, hname, hdescription, himage⟩

/-! ### The texts -/

theorem received_eq {s : JsString} (h : hasUnpairedSurrogate s = false) : received s = s := by
  rw [received, text, units, String.toList_ofList]
  exact flatMap_charUnits_decode h

theorem reads_value (metadata : Document) :
    Json.Reads metadata.value (stringify metadata.value) := by
  apply Json.Reads.object _ rfl
  intro field hfield
  simp only [List.mem_cons, List.not_mem_nil, or_false] at hfield
  rcases hfield with rfl | rfl | rfl
  · exact Json.Reads.string _
  · exact Json.Reads.string _
  · exact Json.Reads.string _

theorem hasUnpairedSurrogate_value (metadata : Document) :
    hasUnpairedSurrogate (stringify metadata.value) = false := by
  apply Json.hasUnpairedSurrogate_stringify_object
  intro field hfield
  simp only [List.mem_cons, List.not_mem_nil, or_false] at hfield
  rcases hfield with rfl | rfl | rfl
  · exact Json.hasUnpairedSurrogate_stringify_string _
  · exact Json.hasUnpairedSurrogate_stringify_string _
  · exact Json.hasUnpairedSurrogate_stringify_string _

theorem servedText_eq (metadata : Document) : servedText metadata = stringify metadata.value :=
  received_eq (hasUnpairedSurrogate_value metadata)

theorem parse_servedText (metadata : Document) :
    parse (servedText metadata) = some metadata.value := by
  rw [servedText_eq]
  exact Json.parse_of_reads (reads_value metadata)

/-- The server parses what the client has written. -/
theorem parse_requestBody (metadata : Document) (name : JsString) :
    parse (requestBody metadata name) =
      some (.object [(units "metadata", metadata.value), (units "name", .string name)]) := by
  have hfields : ∀ field ∈ [(units "metadata", metadata.value), (units "name", Value.string name)],
      Json.Reads field.2 (stringify field.2) ∧ hasUnpairedSurrogate (stringify field.2) = false := by
    intro field hfield
    simp only [List.mem_cons, List.not_mem_nil, or_false] at hfield
    rcases hfield with rfl | rfl
    · exact ⟨reads_value metadata, hasUnpairedSurrogate_value metadata⟩
    · exact ⟨Json.Reads.string name, Json.hasUnpairedSurrogate_stringify_string name⟩
  rw [requestBody, received_eq (Json.hasUnpairedSurrogate_stringify_object fun field h =>
    (hfields field h).2)]
  exact Json.parse_of_reads (Json.Reads.object (fun field h => (hfields field h).1) rfl)

theorem pinnedContent_requestBody_iff (metadata : Document) (name : JsString) :
    pinnedContent (parse (requestBody metadata name)) = .ok metadata.value ↔
      validateTokenMetadata metadata.value (stringify metadata.value) = .ok () := by
  rw [parse_requestBody]
  show (validateTokenMetadata metadata.value (stringify metadata.value) >>= fun _ => _) = _ ↔ _
  cases validateTokenMetadata metadata.value (stringify metadata.value) with
  | error message => exact iff_of_false nofun nofun
  | ok => exact iff_of_true rfl rfl

/-! ### The length -/

theorem length_quote (s : JsString) : (Json.quote s).length = (quoteUnits s).length + 2 := by
  rw [Json.quote, List.length_cons, List.length_append, List.length_singleton]

theorem length_stringify_value (metadata : Document) : (stringify metadata.value).length =
    39 + (quoteUnits metadata.name).length + (quoteUnits metadata.description).length +
      (quoteUnits metadata.image).length := by
  have hname : (Json.quote (units "name")).length = 6 := rfl
  have hdescription : (Json.quote (units "description")).length = 13 := rfl
  have himage : (Json.quote (units "image")).length = 7 := rfl
  simp only [Document.value, stringify, Json.stringifyFields, List.intercalate_cons_cons,
    List.intercalate_singleton, List.length_cons, List.length_append, List.length_nil,
    length_quote metadata.name, length_quote metadata.description, length_quote metadata.image,
    hname, hdescription, himage]
  omega

theorem afterScheme_append (rest : JsString) : afterScheme (units "ipfs://" ++ rest) = some rest := by
  rw [afterScheme, if_pos]
  · rfl
  · rw [List.isPrefixOf_iff_prefix]
    exact List.prefix_append _ _

theorem IPFS_URI_PATTERN_append (rest : JsString) :
    IPFS_URI_PATTERN (units "ipfs://" ++ rest) = (!rest.isEmpty && rest.all isAlphanumUnit) := by
  rw [IPFS_URI_PATTERN, afterScheme_append]
  rfl

theorem quoteUnit_alphanum {u : CodeUnit} (h : isAlphanumUnit u = true) : Json.quoteUnit u = [u] := by
  simp only [isAlphanumUnit, Bool.or_eq_true, Bool.and_eq_true, decide_eq_true_eq,
    UInt16.le_iff_toNat_le, UInt16.reduceToNat] at h
  apply Json.quoteUnit_plain
  iterate 4 omega

/-- The URI of an image has nothing to escape. -/
theorem quoteUnits_image (h : IPFS_URI_PATTERN (units "ipfs://" ++ imageCid) = true) :
    quoteUnits (units "ipfs://" ++ imageCid) = units "ipfs://" ++ imageCid := by
  rw [IPFS_URI_PATTERN_append, Bool.and_eq_true, List.all_eq_true] at h
  have hscheme : (units "ipfs://").all (fun u => Json.quoteUnit u = [u]) = true := by decide
  apply Json.quoteUnits_plain
  intro u hu
  rcases List.mem_append.mp hu with hu | hu
  · exact of_decide_eq_true (List.all_eq_true.mp hscheme u hu)
  · exact quoteUnit_alphanum (h.2 u hu)

theorem length_stringify_uploaded (h : IPFS_URI_PATTERN (units "ipfs://" ++ imageCid) = true) :
    (stringify (uploadedMetadata form imageCid).value).length = documentLength form imageCid := by
  have hscheme : (units "ipfs://").length = 7 := rfl
  rw [length_stringify_value]
  dsimp only [uploadedMetadata]
  rw [quoteUnits_image h, List.length_append, hscheme, documentLength]
  omega

/-! ### The reader -/

theorem length_points_le (s : JsString) : (points s).length ≤ s.length := by
  fun_induction points s with
  | case1 => exact Nat.le_refl _
  | case2 u => exact Nat.le_refl _
  | case3 u v rest hpair ih =>
    simp only [List.length_cons]
    omega
  | case4 u v rest hpair ih =>
    simp only [List.length_cons] at ih ⊢
    omega

theorem clamp_eq {s : JsString} {max : ℕ} (h : s.length ≤ max) : clamp s max = s :=
  if_pos ((length_points_le s).trans h)

/-- What the handler accepts is read as it is. -/
theorem getMetadata_servedText
    (haccepted : validateTokenMetadata metadata.value (stringify metadata.value) = .ok ())
    {cid : JsString} (hverify : verifyCIDMatch p (text (servedText metadata)) (text cid) = .ok ()) :
    getMetadata p (fun _ => .response true 200 (some (servedText metadata)))
      (units "ipfs://" ++ cid) = .ok metadata := by
  obtain ⟨hsize, ⟨-, hname⟩, ⟨-, hdescription⟩, himage⟩ :=
    validateTokenMetadata_value_iff.mp haccepted
  -- the reader's bound on the text is far above the handler's
  have hshort : ¬ (servedText metadata).length > MAX_METADATA_BYTES := by
    rw [servedText_eq]
    exact Nat.not_lt.mpr (hsize.trans (by decide))
  have hfields : tokenMetadata metadata.value = some metadata := by
    show (if IPFS_URI_PATTERN metadata.image = true then some metadata else none) = some metadata
    exact if_pos himage
  rw [getMetadata, afterScheme_append]
  show readMetadata p (servedText metadata) cid = _
  have hname : clamp metadata.name MAX_METADATA_NAME_LENGTH = metadata.name := clamp_eq hname
  have hdescription : clamp metadata.description MAX_METADATA_DESCRIPTION_LENGTH =
      metadata.description := clamp_eq hdescription
  rw [readMetadata, if_neg hshort, hverify, parse_servedText]
  dsimp only
  rw [hfields]
  dsimp only
  rw [hname, hdescription]

/-! ### The whole way -/

theorem handleSubmit_eq_ok (h : handleSubmit form = .ok ()) :
    form.tokenAddress ≠ [] ∧ form.description.length ≤ MAX_METADATA_DESCRIPTION_LENGTH := by
  unfold handleSubmit at h
  split_ifs at h with himage haddress hlong
  refine ⟨?_, Nat.not_lt.mp hlong⟩
  intro hempty
  rw [hempty] at haddress
  exact haddress rfl

/-- **The forms whose documents are accepted and read back**: those with a description, whose name and
whose document are not too long for the handler. -/
theorem formRoundTrips_iff (hform : handleSubmit form = .ok ())
    (hcid : IPFS_URI_PATTERN (units "ipfs://" ++ imageCid) = true) :
    RoundTrips form imageCid ↔
      form.description ≠ [] ∧ form.tokenAddress.length ≤ MAX_NAME_LENGTH ∧
        documentLength form imageCid ≤ MAX_METADATA_JSON_SIZE := by
  obtain ⟨haddress, hlong⟩ := handleSubmit_eq_ok hform
  -- what the server accepts of the document that is sent
  have haccepted : validateTokenMetadata (uploadedMetadata form imageCid).value
      (stringify (uploadedMetadata form imageCid).value) = .ok () ↔
        form.description ≠ [] ∧ form.tokenAddress.length ≤ MAX_NAME_LENGTH ∧
          documentLength form imageCid ≤ MAX_METADATA_JSON_SIZE := by
    rw [validateTokenMetadata_value_iff, length_stringify_uploaded hcid]
    constructor
    · rintro ⟨hsize, ⟨-, hname⟩, ⟨hdescription, -⟩, -⟩
      exact ⟨hdescription, hname, hsize⟩
    · rintro ⟨hdescription, hname, hsize⟩
      exact ⟨hsize, ⟨haddress, hname⟩, ⟨hdescription, hlong⟩, hcid⟩
  rw [← haccepted]
  constructor
  · rintro ⟨hpinned, -⟩
    exact (pinnedContent_requestBody_iff _ _).mp hpinned
  · intro h
    refine ⟨(pinnedContent_requestBody_iff _ _).mpr h, ?_⟩
    intro p cid hverify
    exact getMetadata_servedText p h hverify

/-! ### Forms -/

/-- A token, its image and what has been written about it. -/
def sampleForm (description : JsString) : MetadataForm Unit where
  tokenAddress := units "CB3KQX7R2YJ4XVFQ5M6ZP2W7N3S4T5U6V7A2B3C4D5E6F7G2H3I4J5K6"
  description := description
  imageFile := some ()

/-- The CID of the image. -/
def sampleCid : JsString := units "QmYwAPJzv5CZsnAzt8auVZRn1pfe6xYjqJQyLr8jG7yXzN"

/-- A line and an emoji, which the form, the handler and the reader measure in different ways. -/
theorem roundTrips_sampleForm : RoundTrips (sampleForm (units "Coffee\n☕𝄞")) sampleCid :=
  (formRoundTrips_iff (by decide) (by decide)).mpr (by decide)

/-- Without a description, the image is pinned and the document is refused. -/
theorem not_roundTrips_sampleForm :
    handleSubmit (sampleForm []) = .ok () ∧ IPFS_URI_PATTERN (units "ipfs://" ++ sampleCid) = true ∧
      ¬ RoundTrips (sampleForm []) sampleCid := by
  refine ⟨rfl, rfl, ?_⟩
  rintro ⟨hpinned, -⟩
  have haccepted := (pinnedContent_requestBody_iff _ _).mp hpinned
  exact (validateTokenMetadata_value_iff.mp haccepted).2.2.1.1 rfl

end StellarForge.Ipfs.RoundTrip
