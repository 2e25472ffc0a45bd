import StellarForge.Server.RateLimit

/-!
# Uploads and unpins

`pinOwnership.ts` keeps the wallet that has pinned a CID, in the KV store or, where there is none, in
the memory of the instance.  The upload routes record the wallet after Pinata has pinned the content,
and the unpin route asks for it before it lets Pinata unpin.
-/

namespace StellarForge.Server

open Collections Concurrency

/-! ### The records -/

/-- The owner of a CID is recorded in memory. -/
def recordInMemory (cid : String) (record : PinOwnerRecord) : Program Unit :=
  .atOnce fun _ m =>
    ((), { m with memoryRegistry := Function.update m.memoryRegistry cid (some record) })

/-- The record in memory is dropped. -/
def clearInMemory (cid : String) : Program Unit :=
  .atOnce fun _ m => ((), { m with memoryRegistry := Function.update m.memoryRegistry cid none })

/-- A KV failure is not thrown: the memory is written instead. -/
def recordPinOwner (env : Deployment) (cid ownerAddress : String) : Program Unit := do
  let record : PinOwnerRecord := ⟨ownerAddress, ← dateNow⟩
  if env.isKvConfigured then
    -- no expiry
    match ← (kvSet (.pinOwner cid) record none).run with
    | .ok () => pure ()
    | .error _ => recordInMemory cid record
  else recordInMemory cid record

/-- `null` also where the record cannot be read. -/
def getPinOwner (env : Deployment) (cid : String) : Program (Option String) := do
  if env.isKvConfigured then
    match ← (kvGet (.pinOwner cid)).run with
    | .ok data => pure (data.map PinOwnerRecord.ownerAddress)
    | .error _ => pure none
  else .atOnce fun _ m => ((m.memoryRegistry cid).map PinOwnerRecord.ownerAddress, m)

/-- The record of a CID is dropped, in the store or in memory. -/
def clearPinOwner (env : Deployment) (cid : String) : Program Unit := do
  if env.isKvConfigured then
    match ← (kvDel (.pinOwner cid)).run with
    | .ok () => pure ()
    | .error _ => clearInMemory cid
  else clearInMemory cid

/-! ### The routes -/

/-- The body of a request, after the checks of its handler. -/
inductive IpfsBody
  /-- `upload-json`: the metadata and the name, or what is wrong with them. -/
  | uploadJson (checked : Except String (String × String))
  /-- `upload-file`: the content with the type that has been verified and the name; or the status and
  the text of the error. -/
  | uploadFile (checked : Except (ℕ × String) (List UInt8 × String × String))
  /-- `unpin`: the CID, when it is a string. -/
  | unpin (cid : Option String)

/-- A request of the IPFS routes. -/
structure IpfsRequest where
  isPost : Bool
  /-- The address in the token, or why there is none. -/
  walletAuth : Except String String
  body : IpfsBody

/-- What the routes answer. -/
inductive IpfsResponseBody
  | error (message : String)
  | cid (value : String)
  | unpinned (cid : String)
  deriving DecidableEq, Repr

/-- The answer, with its status. -/
structure IpfsResponse where
  status : ℕ
  body : IpfsResponseBody
  deriving DecidableEq, Repr

/-- `/^Qm[1-9A-HJ-NP-Za-km-z]{44}$/` or `/^b[a-z2-7]{58,}$/` -/
def isValidCid (cid : String) : Bool :=
  (match cid.toList with
    | 'Q' :: 'm' :: rest => rest.length = 44 &&
        rest.all ("123456789ABCDEFGHJKLMNPQRSTUVWXYZabcdefghijkmnopqrstuvwxyz".toList.contains ·)
    | _ => false) ||
  match cid.toList with
    | 'b' :: rest => 58 ≤ rest.length && rest.all ("abcdefghijklmnopqrstuvwxyz234567".toList.contains ·)
    | _ => false

section

variable (env : Deployment)

/-- `requirePinataHeaders` -/
def pinataMissing : String :=
  "Pinata API credentials are not configured on the server (PINATA_API_KEY / PINATA_API_SECRET)."

/-- From the request to Pinata on; `failed` is the text for an exception. -/
def pinContent (request : PinataRequest) (failed walletAddress : String) : Program IpfsResponse := do
  match ← Process.await (Op.pinata request) with
  | .rejected => return ⟨500, .error failed⟩
  | .response status ipfsHash =>
    if (PinataReply.response status ipfsHash).ok then
      match ipfsHash with
      -- the body cannot be read
      | none => return ⟨500, .error failed⟩
      | some cid => do
        recordPinOwner env cid walletAddress
        return ⟨200, .cid cid⟩
    else return ⟨502, .error s!"Pinata upload failed (HTTP {status})."⟩

/-- A document is pinned, and its owner recorded. -/
def uploadJson (walletAddress : String) : Except String (String × String) → Program IpfsResponse
  | .error message => return ⟨400, .error message⟩
  | .ok (metadata, name) =>
    if env.isPinataConfigured then
      pinContent env (.pinJSONToIPFS metadata name) "Unexpected error while uploading metadata to IPFS."
        walletAddress
    else return ⟨500, .error pinataMissing⟩

/-- A file is pinned, and its owner recorded. -/
def uploadFile (walletAddress : String) :
    Except (ℕ × String) (List UInt8 × String × String) → Program IpfsResponse
  | .error (status, message) => return ⟨status, .error message⟩
  | .ok (buffer, type, filename) =>
    if env.isPinataConfigured then
      pinContent env (.pinFileToIPFS buffer type filename) "Unexpected error while uploading to IPFS."
        walletAddress
    else return ⟨500, .error pinataMissing⟩

/-- The request to unpin, after the wallet has been found to be the owner. -/
def unpinContent (cid : String) : Program IpfsResponse := do
  match ← Process.await (Op.pinata (.unpin cid)) with
  | .rejected => return ⟨500, .error "Unexpected error while unpinning from IPFS."⟩
  | .response status ipfsHash =>
    if (PinataReply.response status ipfsHash).ok ∨ status = 404 then do
      clearPinOwner env cid
      return ⟨200, .unpinned cid⟩
    else if status = 429 then
      return ⟨502, .error "Pinata rate limit reached. Please try again later."⟩
    else return ⟨502, .error s!"Pinata unpin failed (HTTP {status})."⟩

/-- A CID is unpinned for its owner, and the record dropped. -/
def unpin (walletAddress : String) (rawCid : Option String) : Program IpfsResponse :=
  match rawCid.filter isValidCid with
  | none => return ⟨400, .error "Request body must include a valid \x7b cid: string \x7d."⟩
  | some cid => do
    match ← getPinOwner env cid with
    | none => return ⟨403, .error
        "This CID has no known owner on record. Unpin is denied by default for unindexed content."⟩
    | some ownerAddress =>
      if ownerAddress ≠ walletAddress then
        return ⟨403, .error "You are not authorized to unpin this content."⟩
      else if env.isPinataConfigured then unpinContent env cid
      else return ⟨500, .error pinataMissing⟩

/-- The text for a request beyond the limits. -/
def IpfsBody.limitedMessage : IpfsBody → String
  | .unpin _ => "Too many requests. Please try again later."
  | _ => "Too many upload requests. Please try again later."

/-- After the wallet has been authenticated. -/
def ipfsAction (walletAddress : String) : IpfsBody → Program IpfsResponse
  | .uploadJson checked => uploadJson env walletAddress checked
  | .uploadFile checked => uploadFile env walletAddress checked
  | .unpin cid => unpin env walletAddress cid

/-- A route; `none` where it returns without a response. -/
def ipfsRoute (request : IpfsRequest) : Program (Option IpfsResponse) :=
  if !request.isPost then return some ⟨405, .error "Method not allowed"⟩
  else match request.walletAuth with
    | .error message => return some ⟨401, .error message⟩
    | .ok walletAddress =>
      if walletAddress = "" then return none
      else do
        if ← isActionRateLimited env walletAddress then
          return some ⟨429, .error request.body.limitedMessage⟩
        else return some (← ipfsAction env walletAddress request.body)

end

end StellarForge.Server
