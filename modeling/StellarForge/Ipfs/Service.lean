import StellarForge.Submission.Client

/-!
# Uploading metadata

`IPFSService` with its memory of the last upload, and one submission of `MetadataForm`.  An `Attempt`
is what the user entered together with how each awaited step ends.
-/

namespace StellarForge.Ipfs

open Submission

/-- A metadata document. -/
structure TokenMetadata where
  name : String
  description : String
  image : String
  deriving DecidableEq, Repr

/-- The CIDs that the upload service pins files and documents under. -/
structure ContentAddressing (F : Type) where
  file : F → String
  document : TokenMetadata → String
  /-- An answer without a CID is an error. -/
  document_ne_empty : ∀ metadata, document metadata ≠ ""

/-- The CIDs of an upload, which a failure hands back. -/
structure UploadedCids where
  imageCid : String
  metadataCid : String
  deriving DecidableEq, Repr

/-- What an upload returns. -/
structure UploadMetadataResult where
  metadataUri : String
  imageCid : String
  metadataCid : String
  deriving DecidableEq, Repr

/-- The singleton: the CIDs of the most recent upload. -/
structure IPFSService where
  lastCids : Option UploadedCids := none
  deriving DecidableEq, Repr

/-- What the form is submitted with. -/
structure Attempt (F : Type) where
  image : F
  description : String
  tokenAddress : String
  /-- `isValidImageFile` -/
  validation : Except String Unit
  /-- `getUploadToken` -/
  uploadToken : Except String Unit
  /-- `_uploadFile` -/
  imageUpload : Except String Unit
  /-- `_uploadJSON` -/
  jsonUpload : Except String Unit
  /-- `stellarService.setMetadata` -/
  setMetadata : Except Failure String
  /-- Whether `getUploadToken` answers for the two unpins that may follow. -/
  imageUnpinToken : Bool
  metadataUnpinToken : Bool

variable {F : Type} (c : ContentAddressing F)

/-- The document that the attempt pins; the form passes the token address as the name. -/
def Attempt.metadata (a : Attempt F) : TokenMetadata where
  name := a.tokenAddress
  description := a.description
  image := "ipfs://" ++ c.file a.image

/-- `uploadMetadataDetailed` -/
def uploadMetadataDetailed (a : Attempt F) (service : IPFSService) :
    Except String UploadMetadataResult × IPFSService :=
  match a.validation, a.uploadToken, a.imageUpload with
  | .error err, _, _ => (.error err, service)
  | .ok (), .error err, _ => (.error err, service)
  | .ok (), .ok (), .error err => (.error err, service)
  | .ok (), .ok (), .ok () =>
    let imageCid := c.file a.image
    match a.jsonUpload with
    -- the image is pinned and has to be remembered, although there is no document
    | .error err => (.error err, { lastCids := some ⟨imageCid, ""⟩ })
    | .ok () =>
      let metadataCid := c.document (a.metadata c)
      (.ok ⟨"ipfs://" ++ metadataCid, imageCid, metadataCid⟩,
        { lastCids := some ⟨imageCid, metadataCid⟩ })

/-- `unpinLastUpload`: the CIDs that unpin requests are sent for.  An `unpin` without a token sends
none, and does not keep the other one from being tried. -/
def unpinLastUpload (service : IPFSService) (imageToken metadataToken : Bool) : List String :=
  match service.lastCids with
  | none => []
  | some cids =>
    (if imageToken then [cids.imageCid] else []) ++
      if cids.metadataCid ≠ "" ∧ metadataToken then [cids.metadataCid] else []

/-- What a submission leaves behind. -/
structure SubmissionOutcome where
  service : IPFSService
  unpinned : List String
  /-- The hash of the confirmed `set_metadata`. -/
  txHash : Option String
  deriving DecidableEq, Repr

/-- `handleConfirm` -/
def handleConfirm (a : Attempt F) (service : IPFSService) : SubmissionOutcome :=
  match uploadMetadataDetailed c a service with
  | (.error _, service) =>
    -- whatever failed, the CIDs remembered are those of the last upload
    ⟨service, unpinLastUpload service a.imageUnpinToken a.metadataUnpinToken, none⟩
  | (.ok _, service) =>
    match a.setMetadata with
    | .ok hash => ⟨service, [], some hash⟩
    | .error failure =>
      let unpinned :=
        if reclaimsUpload failure then
          unpinLastUpload service a.imageUnpinToken a.metadataUnpinToken
        else []
      ⟨service, unpinned, none⟩

/-- The service after some submissions, oldest first. -/
def serviceAfter (attempts : List (Attempt F)) : IPFSService :=
  attempts.foldl (fun service a => (handleConfirm c a service).service) {}

end StellarForge.Ipfs
