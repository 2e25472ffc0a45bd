import StellarForge.Server.Jwt
import StellarForge.Server.RateLimit

/-!
# The login challenge

`challengeStore.ts` and the route `/api/auth/challenge`.
-/

namespace StellarForge.Server

open Concurrency

/-! ### The challenge store -/

/-- Challenges expire after 5 minutes. -/
def CHALLENGE_TTL_MS : ℕ := 5 * 60 * 1000

/-- How long a challenge is valid, for the store. -/
def CHALLENGE_TTL_SECONDS : ℕ := CHALLENGE_TTL_MS / 1000

/-- A challenge in memory that has not expired. -/
def StoredChallenge.Fresh (stored : StoredChallenge) (now : ℕ) : Prop :=
  now - stored.createdAt ≤ CHALLENGE_TTL_MS

instance {stored : StoredChallenge} {now : ℕ} : Decidable (stored.Fresh now) :=
  inferInstanceAs (Decidable (_ ≤ _))

/-- The challenges that have expired are dropped. -/
def sweepExpired (now : ℕ) (m : Memory) : Memory :=
  { m with challenges := fun address => (m.challenges address).filter fun s => s.Fresh now }

/-- A challenge is kept in memory. -/
def putInMemory (address value : String) : Program Unit :=
  .atOnce fun now m =>
    let swept := sweepExpired now m
    ((), { swept with challenges := Function.update swept.challenges address (some ⟨value, now⟩) })

/-- The challenge in memory, unless it has expired. -/
def getFromMemory (address : String) : Program (Option String) :=
  .atOnce fun now m =>
    match m.challenges address with
    | none => (none, m)
    | some stored =>
      if stored.Fresh now then (some stored.value, m)
      else (none, { m with challenges := Function.update m.challenges address none })

/-- The challenge in memory is dropped. -/
def deleteFromMemory (address : String) : Program Unit :=
  .atOnce fun _ m => ((), { m with challenges := Function.update m.challenges address none })

/-- A challenge is kept, in the store or in memory. -/
def putChallenge (env : Deployment) (address value : String) : Throwing Unit :=
  if !env.isKvConfigured then ExceptT.lift (putInMemory address value)
  else kvSet (.challenge address) value (some CHALLENGE_TTL_SECONDS)

/-- The challenge of an address, from the store or from memory. -/
def getChallenge (env : Deployment) (address : String) : Throwing (Option String) :=
  if !env.isKvConfigured then ExceptT.lift (getFromMemory address)
  else kvGet (.challenge address)

/-- The challenge of an address is dropped. -/
def deleteChallenge (env : Deployment) (address : String) : Throwing Unit :=
  if !env.isKvConfigured then ExceptT.lift (deleteFromMemory address)
  else kvDel (.challenge address)

/-! ### The route -/

/-- A request: for a `GET` its address parameter and the client IP, for a `POST` the fields of its
body.  A field is absent when it is not a string. -/
inductive ChallengeRequest
  | get (address : Option String) (clientIp : String)
  | post (address signature : Option String)
  | other
  deriving DecidableEq, Repr

/-- What the route answers. -/
inductive ChallengeBody
  | error (message : String)
  | challenge (value : String)
  | token (token : Token)
  deriving DecidableEq, Repr

/-- The answer, with its status. -/
structure ChallengeResponse where
  status : ℕ
  body : ChallengeBody
  deriving DecidableEq, Repr

/-- `address.startsWith('G')` -/
def StartsWithG (address : String) : Prop := address.toList.head? = some 'G'

instance {address : String} : Decidable (StartsWithG address) :=
  inferInstanceAs (Decidable (_ = _))

section

variable (env : Deployment) (crypto : Crypto)

/-- A new challenge for an address. -/
def issueChallenge (address : String) : Program ChallengeResponse := do
  let challengeValue ← Process.await Op.randomBytes
  -- a challenge of the same address that is still pending is replaced
  match ← (putChallenge env address challengeValue).run with
  | .error _ => return ⟨500, .error "Could not issue a challenge. Try again."⟩
  | .ok () => return ⟨200, .challenge challengeValue⟩

/-- `GET`: a challenge, unless the client asks too often. -/
def handleGetChallenge (address : Option String) (clientIp : String) :
    Program ChallengeResponse :=
  match address with
  | none => return ⟨400, .error "Missing or invalid address query parameter."⟩
  | some address =>
    if ¬ StartsWithG address then
      return ⟨400, .error "Missing or invalid address query parameter."⟩
    else do
      -- the limit is by client here, and by address in the `POST`
      if ← isChallengeRateLimited env clientIp then
        return ⟨429, .error "Too many challenge requests. Please try again later."⟩
      else issueChallenge env address

/-- The last step: the challenge has been deleted. -/
def answerToken (address : String) : Program ChallengeResponse := do
  let token ← .atOnce fun now m => (issueToken env crypto now address TOKEN_EXPIRES_IN, m)
  match token with
  | .ok token => return ⟨200, .token token⟩
  | .error e => return ⟨500, .error e⟩

/-- A signature of the challenge is answered with a token. -/
def verifyChallenge (address signature storedChallenge : String) : Program ChallengeResponse :=
  if crypto.verifySignature address storedChallenge signature then do
    -- the deletion comes before the token, so that no challenge is redeemed twice
    match ← (deleteChallenge env address).run with
    | .ok () => answerToken env crypto address
    | .error e => return ⟨500, .error e.message⟩
  else do
    -- the response is out before the challenge is deleted, so an error comes too late to change it
    let _ ← (deleteChallenge env address).run
    return ⟨401, .error "Signature verification failed."⟩

/-- After the rate limit. -/
def checkChallenge (address signature : String) : Program ChallengeResponse := do
  match ← (getChallenge env address).run with
  | .error _ => return ⟨500, .error "Could not verify the challenge. Try again."⟩
  | .ok storedChallenge =>
    match storedChallenge with
    | none =>
      return ⟨400, .error "Challenge not found or expired. Request a new challenge."⟩
    | some storedChallenge =>
      -- the empty text counts as absent
      if storedChallenge = "" then
        return ⟨400, .error "Challenge not found or expired. Request a new challenge."⟩
      else verifyChallenge env crypto address signature storedChallenge

/-- `POST`: the challenge of the address is looked up and its signature checked. -/
def handleVerifyChallenge (address signature : Option String) : Program ChallengeResponse :=
  match address with
  | none => return ⟨400, .error "Missing or invalid address."⟩
  | some address =>
    if ¬ StartsWithG address then return ⟨400, .error "Missing or invalid address."⟩
    else
      match signature with
      | none => return ⟨400, .error "Missing signature."⟩
      | some signature =>
        if signature = "" then return ⟨400, .error "Missing signature."⟩
        else do
          if ← isActionRateLimited env address then
            return ⟨429, .error "Too many verification attempts. Please try again later."⟩
          else checkChallenge env crypto address signature

/-- The route, by the method of the request. -/
def challengeRoute : ChallengeRequest → Program ChallengeResponse
  | .get address clientIp => handleGetChallenge env address clientIp
  | .post address signature => handleVerifyChallenge env crypto address signature
  | .other => return ⟨405, .error "Method not allowed"⟩

end

end StellarForge.Server
