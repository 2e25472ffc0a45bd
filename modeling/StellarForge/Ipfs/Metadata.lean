import Mathlib.Algebra.Order.Ring.Nat
import StellarForge.Collections.Text
import StellarForge.Ipfs.Service

/-!
# Reading metadata

`getMetadata`, with the check of a gateway's answer against the CID of the URI.  `Platform` is what the
page runs on: the hash, the CID parser of the `multiformats` package, `Response.text` and
`JSON.parse`.
-/

namespace StellarForge.Ipfs

open Text

/-- Bytes. -/
abbrev Octets := List UInt8

/-- `new TextEncoder().encode(text)` -/
def utf8 (text : String) : Octets := text.toList.flatMap String.utf8EncodeChar

/-- The `length` of a JavaScript string. -/
def utf16Length (text : String) : ℕ :=
  (text.toList.map fun c => if 0xFFFF < c.toNat then 2 else 1).sum

/-- `startsWith` -/
def startsWith (text pattern : String) : Bool := pattern.toList.isPrefixOf text.toList

/-! ### CIDs -/

/-- A parsed CID: the multihash as its code and its digest. -/
structure Cid where
  version : ℕ
  code : ℕ
  hashCode : ℕ
  digest : Octets
  deriving DecidableEq, Repr

/-- The codec of UnixFS files. -/
def DAG_PB_CODE : ℕ := 0x70

/-- The multihash code of sha2-256. -/
def SHA2_256_CODE : ℕ := 0x12

/-- What `JSON.parse` returns, as far as the reader looks at it. -/
inductive Json
  | string (text : String)
  | object (fields : List (String × Json))
  | other

/-- What the page runs on. -/
structure Platform where
  sha256 : Octets → Octets
  sha256_inj : ∀ {a b}, sha256 a = sha256 b → a = b
  /-- `CID.parse`; the error is the text that it throws. -/
  parseCid : String → Except String Cid
  /-- A version 0 CID is of the codec dag-pb. -/
  parseCid_version : ∀ {text cid}, parseCid text = .ok cid →
    cid.version = 0 ∧ cid.code = DAG_PB_CODE ∨ cid.version = 1
  /-- `Response.text` of a body: bytes that are not UTF-8 are replaced, a byte order mark is dropped. -/
  text : Octets → String
  parseJson : String → Option Json
  /-- No JSON text has a backspace in it. -/
  parseJson_backspace : ∀ {source json}, parseJson source = some json → 0x08 ∉ utf8 source

/-- A character of base58. -/
def isBase58 (c : Char) : Bool :=
  ('1' ≤ c && c ≤ '9') || ('A' ≤ c && c ≤ 'H') || ('J' ≤ c && c ≤ 'N') || ('P' ≤ c && c ≤ 'Z') ||
    ('a' ≤ c && c ≤ 'k') || ('m' ≤ c && c ≤ 'z')

/-- A character of base32. -/
def isBase32 (c : Char) : Bool := ('a' ≤ c && c ≤ 'z') || ('2' ≤ c && c ≤ '7')

/-- `/^Qm[1-9A-HJ-NP-Za-km-z]{44}$/` -/
def CID_V0 (cid : String) : Bool :=
  (afterPrefix "Qm".toList cid.toList).any fun rest => rest.length == 44 && rest.all isBase58

/-- `/^b[a-z2-7]{58,}$/` -/
def CID_V1 (cid : String) : Bool :=
  (afterPrefix "b".toList cid.toList).any fun rest => 58 ≤ rest.length && rest.all isBase32

/-- What follows `ipfs://`. -/
def cidText (uri : String) : String := String.ofList (uri.toList.drop 7)

/-- `isValidIPFSUri` -/
def isValidIPFSUri (uri : String) : Bool :=
  startsWith uri "ipfs://" && (CID_V0 (cidText uri) || CID_V1 (cidText uri))

/-- The text has the form of a CID. -/
def looksLikeRealCID (cid : String) : Bool :=
  if utf16Length cid < 10 then false else CID_V0 cid || CID_V1 cid

/-- `CID.create` -/
def Cid.create (version code hashCode : ℕ) (digest : Octets) : Except String Cid :=
  if version = 0 ∧ code ≠ DAG_PB_CODE then
    .error "Version 0 CID must use dag-pb (code: 112) block encoding"
  else .ok ⟨version, code, hashCode, digest⟩

/-- `verifyCIDMatch` -/
def verifyCIDMatch (p : Platform) (content cidString : String) : Except String Unit :=
  if looksLikeRealCID cidString = false then .ok ()
  else
    match p.parseCid cidString with
    | .error message => .error ("CID verification failed: " ++ message)
    | .ok cid =>
      match Cid.create cid.version cid.code SHA2_256_CODE (p.sha256 (utf8 content)) with
      | .error message => .error ("CID verification failed: " ++ message)
      | .ok expectedCID =>
        if cid ≠ expectedCID then
          .error ("Metadata content does not match the provided CID. " ++
            "The content may have been tampered with or corrupted.")
        else .ok ()

/-! ### Documents -/

/-- The characters of a name that is displayed. -/
def MAX_METADATA_NAME_LENGTH : ℕ := 128

/-- The characters of a description that is displayed. -/
def MAX_METADATA_DESCRIPTION_LENGTH : ℕ := 2000

/-- The bound of what is read. -/
def MAX_METADATA_BYTES : ℕ := 100 * 1024

/-- Clamp a text to `max` characters, appending an ellipsis when shortened. -/
def clamp (value : String) (max : ℕ) : String :=
  if value.toList.length ≤ max then value else String.ofList (value.toList.take max) ++ "…"

/-- `/^ipfs:\/\/[a-zA-Z0-9]+$/` -/
def IPFS_IMAGE_URI_PATTERN (image : String) : Bool :=
  (afterPrefix "ipfs://".toList image.toList).any fun rest =>
    !rest.isEmpty && rest.all Char.isAlphanum

/-- A field of an object, if it is a string. -/
def Json.stringField (json : Json) (key : String) : Option String :=
  match json with
  | .object fields =>
    match (fields.find? fun field => field.1 = key).map Prod.snd with
    | some (.string text) => some text
    | _ => none
  | _ => none

/-- `isTokenMetadata`, with the fields that it has looked at. -/
def Json.tokenMetadata (json : Json) : Option TokenMetadata := do
  let name ← json.stringField "name"
  let description ← json.stringField "description"
  let image ← json.stringField "image"
  if IPFS_IMAGE_URI_PATTERN image then return { name, description, image } else none

/-- The bounds of what a caller receives. -/
def TokenMetadata.clamped (metadata : TokenMetadata) : TokenMetadata where
  name := clamp metadata.name MAX_METADATA_NAME_LENGTH
  description := clamp metadata.description MAX_METADATA_DESCRIPTION_LENGTH
  image := metadata.image

/-! ### The reader -/

/-- What the gateway answers, after the retries: an error, or a response whose body may be unreadable. -/
inductive GatewayAnswer
  | networkError
  | response (ok : Bool) (status : ℕ) (body : Option Octets)

/-- A text that the reader has received, checked against the CID and read. -/
def readMetadata (p : Platform) (raw cid : String) : Except String TokenMetadata :=
  if utf16Length raw > MAX_METADATA_BYTES then
    .error "Metadata document is too large to display."
  else
    match verifyCIDMatch p raw cid with
    | .error message => .error message
    | .ok () =>
      match p.parseJson raw with
      | none => .error "Metadata response is not valid JSON."
      | some parsed =>
        match parsed.tokenMetadata with
        | none => .error ("Metadata response is missing required fields (name, description, image) " ++
            "or its image is not an ipfs:// URI.")
        | some metadata => .ok metadata.clamped

/-- `getMetadata`; `gateway` answers for the text after `ipfs://`. -/
def getMetadata (p : Platform) (gateway : String → GatewayAnswer) (uri : String) :
    Except String TokenMetadata :=
  if startsWith uri "ipfs://" = false then
    .error ("Invalid IPFS URI: \"" ++ uri ++ "\". Expected format: ipfs://<CID>")
  else
    match gateway (cidText uri) with
    | .networkError =>
      .error "Network error while fetching metadata from IPFS gateway. Check your connection."
    | .response false status _ =>
      .error ("Failed to fetch metadata (HTTP " ++ toString status ++
        "). The CID may not be pinned yet.")
    | .response true _ none =>
      .error "Network error while reading metadata from the IPFS gateway."
    | .response true _ (some body) => readMetadata p (p.text body) (cidText uri)

end StellarForge.Ipfs
