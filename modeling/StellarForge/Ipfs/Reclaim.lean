import StellarForge.Ipfs.Service

/-!
# What a failed submission reclaims

`unpinLastUpload` unpins what the service remembers.  That is set where an attempt has uploaded its
image, and nowhere else: an attempt that fails before finds the CIDs of an earlier one.  Equal files
have equal CIDs, so that an attempt of its own may reclaim what an earlier one has linked.

* `handleConfirm_of_uploaded`, `handleConfirm_of_not_uploaded`: how a submission ends;
* `lastCids_serviceAfter`: the service remembers the last upload;
* `reclaimExact_iff`: **the sequences of submissions in which only the attempt's own, unlinked pins are
  unpinned**;
* `not_reclaimExact_sampleAttempts`: a rejected file after a confirmed submission.
-/

namespace StellarForge.Ipfs

open Submission

variable {F : Type} {c : ContentAddressing F} {a b : Attempt F} {service : IPFSService}
  {earlier attempts : List (Attempt F)}

namespace Attempt

/-- The image was uploaded. -/
def imageUploaded (a : Attempt F) : Bool :=
  a.validation.isOk && a.uploadToken.isOk && a.imageUpload.isOk

/-- The document was uploaded. -/
def jsonUploaded (a : Attempt F) : Bool := a.imageUploaded && a.jsonUpload.isOk

/-- The `set_metadata` was confirmed. -/
def confirmed (a : Attempt F) : Bool := a.jsonUploaded && a.setMetadata.isOk

variable (c) in
/-- The CID of the document. -/
def metadataCid (a : Attempt F) : String := c.document (a.metadata c)

variable (c) in
/-- The CIDs that the attempt has pinned. -/
def pinned (a : Attempt F) : List String :=
  (if a.imageUploaded then [c.file a.image] else []) ++
    if a.jsonUploaded then [a.metadataCid c] else []

variable (c) in
/-- The CIDs that the linked metadata refers to: the document's, and the image's that it names. -/
def referenced (a : Attempt F) : List String := [a.metadataCid c, c.file a.image]

/-- The attempt fails, and reclaims what it uploaded. -/
def reclaims (a : Attempt F) : Bool :=
  !a.jsonUploaded || match a.setMetadata with
    | .ok _ => false
    | .error failure => reclaimsUpload failure

end Attempt

variable (c) in
/-- The unpin requests of the attempt concern its own pins, none of which is linked. -/
def Exact (earlier : List (Attempt F)) (a : Attempt F) : Prop :=
  ∀ cid ∈ (handleConfirm c a (serviceAfter c earlier)).unpinned,
    cid ∈ a.pinned c ∧ ∀ b ∈ earlier, b.confirmed = true → cid ∉ b.referenced c

variable (c) in
/-- Every failed submission reclaims exactly. -/
def ReclaimExact (attempts : List (Attempt F)) : Prop :=
  ∀ earlier a later, attempts = earlier ++ a :: later → Exact c earlier a

/-! ### The condition -/

variable (c) in
/-- No confirmed attempt refers to the CID. -/
def Unlinked (earlier : List (Attempt F)) (cid : String) : Prop :=
  ∀ b ∈ earlier, b.confirmed = true → cid ∉ b.referenced c

/-- The last attempt that uploaded its image. -/
def lastUpload (earlier : List (Attempt F)) : Option (Attempt F) :=
  (earlier.filter Attempt.imageUploaded).getLast?

variable (c) in
/-- An attempt that reclaims its upload shares no CID with a confirmed one, and one that fails before its
upload comes before every upload: as far as the unpins get a token. -/
def ReclaimsSafely (earlier : List (Attempt F)) (a : Attempt F) : Prop :=
  if a.imageUploaded then
    a.reclaims = true →
      (a.imageUnpinToken = true → Unlinked c earlier (c.file a.image)) ∧
      (a.jsonUploaded = true → a.metadataUnpinToken = true → Unlinked c earlier (a.metadataCid c))
  else
    ∀ b, lastUpload earlier = some b →
      a.imageUnpinToken = false ∧ (b.jsonUploaded = true → a.metadataUnpinToken = false)

/-! ### One submission -/

variable (c) in
/-- The CIDs that the service remembers of an upload. -/
def recorded (a : Attempt F) : UploadedCids :=
  ⟨c.file a.image, if a.jsonUploaded then a.metadataCid c else ""⟩

/-- Without an uploaded image the service is left alone, and unpins what it remembers. -/
theorem handleConfirm_of_not_uploaded (h : a.imageUploaded = false) : handleConfirm c a service =
    ⟨service, unpinLastUpload service a.imageUnpinToken a.metadataUnpinToken, none⟩ := by
  rw [handleConfirm, uploadMetadataDetailed]
  rcases hvalidation : a.validation with err | ⟨⟩
  · rfl
  · rcases htoken : a.uploadToken with err | ⟨⟩
    · rfl
    · rcases himage : a.imageUpload with err | ⟨⟩
      · rfl
      · rw [Attempt.imageUploaded, hvalidation, htoken, himage] at h
        cases h

/-- With an uploaded image the service remembers the upload, and unpins that. -/
theorem handleConfirm_of_uploaded (h : a.imageUploaded = true) (service : IPFSService) :
    ∃ txHash, handleConfirm c a service =
    ⟨⟨some (recorded c a)⟩, if a.reclaims then
      unpinLastUpload ⟨some (recorded c a)⟩ a.imageUnpinToken a.metadataUnpinToken else [],
      txHash⟩ := by
  have hsteps := h
  rw [Attempt.imageUploaded, Bool.and_eq_true, Bool.and_eq_true] at hsteps
  obtain ⟨⟨hvalidation, htoken⟩, himage⟩ := hsteps
  rw [handleConfirm, uploadMetadataDetailed]
  -- validation, token and image upload went well, since the image is there
  rcases hv : a.validation with err | ⟨⟩
  · rw [hv] at hvalidation
    cases hvalidation
  rcases ht : a.uploadToken with err | ⟨⟩
  · rw [ht] at htoken
    cases htoken
  rcases hi : a.imageUpload with err | ⟨⟩
  · rw [hi] at himage
    cases himage
  rcases hj : a.jsonUpload with err | ⟨⟩
  · -- the document is missing, which always reclaims
    have hjson : a.jsonUploaded = false := by
      rw [Attempt.jsonUploaded, hj]
      exact Bool.and_false _
    have hreclaims : a.reclaims = true := by
      rw [Attempt.reclaims, hjson]
      rfl
    refine ⟨none, ?_⟩
    rw [recorded, hjson, hreclaims]
    rfl
  · have hjson : a.jsonUploaded = true := by
      rw [Attempt.jsonUploaded, h, hj]
      rfl
    -- both are there, so the failure of the call decides
    rcases hs : a.setMetadata with failure | hash
    · have hreclaims : a.reclaims = reclaimsUpload failure := by
        rw [Attempt.reclaims, hjson, hs]
        rfl
      refine ⟨none, ?_⟩
      rw [recorded, hjson, hreclaims]
      rfl
    · have hreclaims : a.reclaims = false := by
        rw [Attempt.reclaims, hjson, hs]
        rfl
      refine ⟨some hash, ?_⟩
      rw [recorded, hjson, hreclaims]
      rfl

/-! ### What the service remembers -/

theorem serviceAfter_concat : serviceAfter c (earlier ++ [a]) =
    (handleConfirm c a (serviceAfter c earlier)).service := by
  rw [serviceAfter, List.foldl_append]
  rfl

theorem lastUpload_concat : lastUpload (earlier ++ [a]) =
    if a.imageUploaded then some a else lastUpload earlier := by
  rw [lastUpload, List.filter_append]
  by_cases h : a.imageUploaded = true
  · rw [if_pos h, List.filter_cons_of_pos h, List.filter_nil, List.getLast?_concat]
  · rw [if_neg h, List.filter_cons_of_neg h, List.filter_nil, List.append_nil, lastUpload]

/-- **The service remembers the last upload.** -/
theorem lastCids_serviceAfter :
    (serviceAfter c earlier).lastCids = (lastUpload earlier).map (recorded c) := by
  induction earlier using List.reverseRecOn with
  | nil => rfl
  | append_singleton earlier a ih =>
    rw [serviceAfter_concat, lastUpload_concat]
    by_cases h : a.imageUploaded = true
    · obtain ⟨txHash, hconfirm⟩ := handleConfirm_of_uploaded h (serviceAfter c earlier)
      rw [hconfirm, if_pos h]
      rfl
    · rw [handleConfirm_of_not_uploaded (eq_false_of_ne_true h), if_neg h, ih]

theorem mem_ite_singleton {α : Type} {x y : α} {p : Prop} [Decidable p] :
    x ∈ (if p then [y] else []) ↔ p ∧ x = y := by
  split_ifs with hp <;> simp [hp]

/-- What is unpinned of an upload: its image, and its document if there is one. -/
theorem mem_unpinLastUpload {cid : String} {imageToken metadataToken : Bool} :
    cid ∈ unpinLastUpload ⟨some (recorded c b)⟩ imageToken metadataToken ↔
      (imageToken = true ∧ cid = c.file b.image) ∨
        b.jsonUploaded = true ∧ metadataToken = true ∧ cid = b.metadataCid c := by
  have hdocument : (recorded c b).metadataCid ≠ "" ↔ b.jsonUploaded = true := by
    rw [recorded]
    split_ifs with hjson
    · exact iff_of_true (c.document_ne_empty _) hjson
    · exact iff_of_false (fun h => h rfl) hjson
  rw [unpinLastUpload, List.mem_append, mem_ite_singleton, mem_ite_singleton, hdocument, and_assoc]
  apply or_congr Iff.rfl
  apply and_congr_right
  intro hjson
  rw [recorded, if_pos hjson]

/-! ### When a submission reclaims exactly -/

/-- After an uploaded image only the attempt's own pins are unpinned. -/
theorem exact_iff_of_uploaded (h : a.imageUploaded = true) : Exact c earlier a ↔
    (a.reclaims = true →
      (a.imageUnpinToken = true → Unlinked c earlier (c.file a.image)) ∧
      (a.jsonUploaded = true → a.metadataUnpinToken = true →
        Unlinked c earlier (a.metadataCid c))) := by
  obtain ⟨txHash, hconfirm⟩ := handleConfirm_of_uploaded h (serviceAfter c earlier)
  rw [Exact, hconfirm]
  have himage : c.file a.image ∈ a.pinned c := by
    rw [Attempt.pinned, if_pos h]
    exact List.mem_append_left _ (List.mem_singleton_self _)
  have hdocument : a.jsonUploaded = true → a.metadataCid c ∈ a.pinned c := by
    intro hjson
    rw [Attempt.pinned, if_pos hjson]
    exact List.mem_append_right _ (List.mem_singleton_self _)
  -- only a reclaim removes anything
  by_cases hreclaims : a.reclaims = true
  · simp only [if_pos hreclaims, mem_unpinLastUpload]
    constructor
    · intro hexact _
      refine ⟨fun htoken => ?_, fun hjson htoken => ?_⟩
      · exact (hexact _ (.inl ⟨htoken, rfl⟩)).2
      · exact (hexact _ (.inr ⟨hjson, htoken, rfl⟩)).2
    · intro hsafe cid hcid
      obtain ⟨hfile, hdoc⟩ := hsafe hreclaims
      rcases hcid with ⟨htoken, rfl⟩ | ⟨hjson, htoken, rfl⟩
      · exact ⟨himage, hfile htoken⟩
      · exact ⟨hdocument hjson, hdoc hjson htoken⟩
  · simp [hreclaims]

/-- Before an upload every request concerns a pin of another attempt. -/
theorem exact_iff_of_not_uploaded (h : a.imageUploaded = false) : Exact c earlier a ↔
    ∀ b, lastUpload earlier = some b →
      a.imageUnpinToken = false ∧ (b.jsonUploaded = true → a.metadataUnpinToken = false) := by
  have hjson : a.jsonUploaded = false := by
    rw [Attempt.jsonUploaded, h]
    rfl
  have hpinned : a.pinned c = [] := by
    rw [Attempt.pinned, h, hjson]
    rfl
  -- what is removed is what the service remembers of the upload before
  have hunpinned : (handleConfirm c a (serviceAfter c earlier)).unpinned = unpinLastUpload
      ⟨(lastUpload earlier).map (recorded c)⟩ a.imageUnpinToken a.metadataUnpinToken := by
    rw [handleConfirm_of_not_uploaded h, ← lastCids_serviceAfter]
  rw [Exact, hunpinned, hpinned]
  rcases lastUpload earlier with _ | b
  · have hnothing : ∀ cid, cid ∉ unpinLastUpload ⟨(none : Option (Attempt F)).map (recorded c)⟩
        a.imageUnpinToken a.metadataUnpinToken := fun _ => List.not_mem_nil
    constructor
    · intro _ b hb
      cases hb
    · intro _ cid hcid
      exact absurd hcid (hnothing cid)
  · rw [Option.map_some]
    simp only [mem_unpinLastUpload]
    constructor
    · -- a pin removed here was made by an earlier attempt, so none may be
      rintro hexact b' ⟨⟩
      refine ⟨?_, fun hdocument => ?_⟩
      · by_contra htoken
        exact absurd (hexact _ (.inl ⟨eq_true_of_ne_false htoken, rfl⟩)).1 List.not_mem_nil
      · by_contra htoken
        exact absurd (hexact _ (.inr ⟨hdocument, eq_true_of_ne_false htoken, rfl⟩)).1
          List.not_mem_nil
    · intro hsafe cid hcid
      obtain ⟨himage, hdocument⟩ := hsafe b rfl
      rcases hcid with ⟨htoken, -⟩ | ⟨hb, htoken, -⟩
      · rw [himage] at htoken
        cases htoken
      · rw [hdocument hb] at htoken
        cases htoken

theorem exact_iff : Exact c earlier a ↔ ReclaimsSafely c earlier a := by
  rw [ReclaimsSafely]
  split_ifs with h
  · exact exact_iff_of_uploaded h
  · exact exact_iff_of_not_uploaded (eq_false_of_ne_true h)

/-- **When failed submissions reclaim exactly.** -/
theorem reclaimExact_iff : ReclaimExact c attempts ↔
    ∀ earlier a later, attempts = earlier ++ a :: later → ReclaimsSafely c earlier a := by
  simp only [ReclaimExact, exact_iff]

/-! ### A rejected file after a confirmed submission -/

/-- The files are texts that are addressed by themselves. -/
def sampleAddressing : ContentAddressing String where
  file image := "file-" ++ image
  document metadata := "document-" ++ metadata.description
  document_ne_empty metadata h := by
    have hlength := congrArg String.length h
    rw [String.length_append] at hlength
    exact absurd hlength (by simp)

/-- A submission that is confirmed. -/
def sampleConfirmed : Attempt String where
  image := "logo"
  description := "A token"
  tokenAddress := "CTOKEN"
  validation := .ok ()
  uploadToken := .ok ()
  imageUpload := .ok ()
  jsonUpload := .ok ()
  setMetadata := .ok "hash"
  imageUnpinToken := true
  metadataUnpinToken := true

/-- The next one, with a file that is rejected. -/
def sampleRejected : Attempt String :=
  { sampleConfirmed with
    image := "not an image"
    validation := .error "Invalid image file." }

/-- The pins of the confirmed submission are unpinned. -/
theorem not_reclaimExact_sampleAttempts :
    ¬ ReclaimExact sampleAddressing [sampleConfirmed, sampleRejected] := by
  intro h
  have hexact := h [sampleConfirmed] sampleRejected [] rfl
  have hunpinned : "file-logo" ∈ (handleConfirm sampleAddressing sampleRejected
      (serviceAfter sampleAddressing [sampleConfirmed])).unpinned := by decide
  have hreferenced : "file-logo" ∈ sampleConfirmed.referenced sampleAddressing := by decide
  exact (hexact _ hunpinned).2 sampleConfirmed (List.mem_singleton_self _) rfl hreferenced

end StellarForge.Ipfs
