import StellarForge.Server.Properties.PendingChallenge
import StellarForge.Transition.Throughout

/-!
# The upload token of a wallet

`auth.ts`.  A wallet signs in with three requests that follow each other, and the token that the server
issues for it stays in `localStorage` for four and a half minutes.  The cache does not know for whom the
token has been issued; `Browser.owner` does.

* `exchangeResponse_of_runs`: the answers of the server's route to the last request;
* `BelongsTo.address`: whoever accepts a token takes it for the wallet's that it has been issued for;
* **`throughout_belongs_iff`**: the runs in which every caller gets a token of its own wallet;
* `not_belongs_switchedAccount`: an account is switched within the lifetime of a token.
-/

namespace StellarForge.Frontend.UploadToken

open Concurrency Server Transition

/-! ### Signing in -/

/-- What a sign-in waits for. -/
inductive Stage
  | challenge
  | signature
  | exchange
  deriving DecidableEq, Repr

/-- How the server's route answers the last request. -/
inductive Exchange
  /-- It does not issue a token. -/
  | refused (status : ℕ) (message : String)
  /-- It comes to issue one, at that moment of its clock. -/
  | issued (now : ℕ)
  deriving DecidableEq, Repr

/-- What a call has waited for. -/
inductive Answer
  /-- A promise rejects with an `Error`. -/
  | rejected (message : String)
  | challenge (status : ℕ) (challenge : Option String)
  | signature (error signedMessage : Option String)
  | exchange (exchange : Exchange)
  deriving DecidableEq, Repr

/-- What follows in `getUploadToken`. -/
inductive Progress
  | waits (stage : Stage)
  | throws (message : String)
  | returns (token : Token)
  deriving DecidableEq, Repr

/-- `response.ok` -/
def isOk (status : ℕ) : Bool := 200 ≤ status && status < 300

/-- A text that is neither absent nor empty. -/
def truthy (text : Option String) : Option String := text.filter (· ≠ "")

section

variable (env : Deployment) (crypto : Crypto)

/-- The response of the server to the address of the wallet and its signature. -/
def exchangeResponse (walletAddress : String) : Exchange → ChallengeResponse
  | .refused status message => ⟨status, .error message⟩
  | .issued now =>
    match issueToken env crypto now walletAddress TOKEN_EXPIRES_IN with
    | .ok token => ⟨200, .token token⟩
    | .error e => ⟨500, .error e⟩

/-- What the browser makes of that response. -/
def exchanged (response : ChallengeResponse) : Progress :=
  if !isOk response.status then
    let error := match response.body with
      | .error message => truthy (some message)
      | _ => none
    .throws (error.getD ("Failed to get token (HTTP " ++ toString response.status ++ ")"))
  else
    match response.body with
    | .token token => .returns token
    | _ => .throws "Token not provided by server"

/-- The sign-in of a wallet goes on; `none` where it does not wait for such an answer. -/
def signIn (walletAddress : String) : Stage → Answer → Option Progress
  | _, .rejected message => some (.throws message)
  | .challenge, .challenge status challenge => some <|
    if !isOk status then .throws ("Failed to request challenge (HTTP " ++ toString status ++ ")")
    else if (truthy challenge).isNone then .throws "Challenge not provided by server"
    else .waits .signature
  | .signature, .signature error signedMessage => some <|
    match truthy error with
    | some error => .throws error
    | none =>
      if (truthy signedMessage).isNone then .throws "Failed to sign message with Freighter"
      else .waits .exchange
  | .exchange, .exchange exchange =>
    some (exchanged (exchangeResponse env crypto walletAddress exchange))
  | _, _ => none

end

/-! ### The browser -/

/-- A token, and when it expires. -/
structure TokenData where
  token : Token
  expiresAt : ℕ
  deriving DecidableEq, Repr

/-- The browser, with the calls of `getUploadToken` that wait for an answer and the ones that have
ended. -/
structure Browser where
  /-- `localStorage` can be written. -/
  storage : Bool
  /-- `Date.now()` -/
  now : ℕ
  uploadToken : Option TokenData := none
  /-- The wallet that has signed in for that token. -/
  owner : Option String := none
  pending : List (String × Stage) := []
  ended : List (String × Except String Token) := []

/-- Four and a half minutes, in milliseconds. -/
def CACHE_LIFETIME : ℕ := 270000

namespace Browser

/-- `cacheToken`, for the wallet that has signed in. -/
def cacheToken (walletAddress : String) (token : Token) (s : Browser) : Browser :=
  if s.storage then
    { s with uploadToken := some ⟨token, s.now + CACHE_LIFETIME⟩, owner := some walletAddress }
  else s

/-- `getCachedToken` -/
def getCachedToken (s : Browser) : Option Token × Browser :=
  match s.uploadToken with
  | none => (none, s)
  | some data =>
    if data.expiresAt < s.now then (none, { s with uploadToken := none, owner := none })
    else (some data.token, s)

/-- The token of the browser is forgotten. -/
def clearUploadToken (s : Browser) : Browser := { s with uploadToken := none, owner := none }

/-- `getUploadToken` up to its first `await`. -/
def getUploadToken (walletAddress : String) (s : Browser) : Browser :=
  match s.getCachedToken with
  | (some token, s) => { s with ended := (walletAddress, .ok token) :: s.ended }
  | (none, s) => { s with pending := s.pending ++ [(walletAddress, .challenge)] }

/-- A call of `getUploadToken` goes on. -/
def proceed (walletAddress : String) (s : Browser) : Progress → Browser
  | .waits stage => { s with pending := s.pending ++ [(walletAddress, stage)] }
  | .throws message =>
    { s with ended := (walletAddress, .error ("Authentication failed: " ++ message)) :: s.ended }
  | .returns token =>
    let s := s.cacheToken walletAddress token
    { s with ended := (walletAddress, .ok token) :: s.ended }

end Browser

/-- A call begins, or what it waits for settles. -/
inductive Event
  | getUploadToken (walletAddress : String)
  /-- What call number `i` waits for settles. -/
  | settled (i : ℕ) (answer : Answer)
  | clearUploadToken
  | elapsed (milliseconds : ℕ)
  deriving DecidableEq, Repr

/-- One event. -/
def step (env : Deployment) (crypto : Crypto) (s : Browser) : Event → Browser
  | .getUploadToken walletAddress => s.getUploadToken walletAddress
  | .settled i answer =>
    match s.pending[i]? with
    | none => s
    | some (walletAddress, stage) =>
      match signIn env crypto walletAddress stage answer with
      | none => s
      | some progress =>
        { s with pending := s.pending.eraseIdx i }.proceed walletAddress progress
  | .clearUploadToken => s.clearUploadToken
  | .elapsed milliseconds => { s with now := s.now + milliseconds }

/-! ### The property and the condition -/

/-- The server has issued the token for the wallet, and nobody who accepts the token takes it for
another wallet's. -/
structure BelongsTo (env : Deployment) (crypto : Crypto) (walletAddress : String) (token : Token) :
    Prop where
  issued : ∃ now, issueToken env crypto now walletAddress TOKEN_EXPIRES_IN = .ok token
  address : ∀ now payload, verifyToken env crypto now token = .ok payload →
    payload.address = walletAddress

/-- Every caller has got a token of the wallet that it has named. -/
def Belongs (env : Deployment) (crypto : Crypto) (s : Browser) : Prop :=
  ∀ walletAddress token, (walletAddress, .ok token) ∈ s.ended →
    BelongsTo env crypto walletAddress token

/-- A cached token that has not expired is asked for only by the wallet that has signed in for it. -/
def Keeps (s : Browser) : Event → Prop
  | .getUploadToken walletAddress =>
    ∀ data ∈ s.uploadToken, s.now ≤ data.expiresAt → s.owner = some walletAddress
  | _ => True

instance {s : Browser} {e : Event} : Decidable (Keeps s e) := by
  cases e <;> unfold Keeps <;> infer_instance

variable {env : Deployment} {crypto : Crypto} {s : Browser} {e : Event} {token : Token}
  {walletAddress other : String}

/-! ### Tokens -/

theorem belongsTo_of_issued {now : ℕ}
    (h : issueToken env crypto now walletAddress TOKEN_EXPIRES_IN = .ok token) :
    BelongsTo env crypto walletAddress token := by
  refine ⟨⟨now, h⟩, fun t payload hverify => ?_⟩
  obtain ⟨secret, -, rfl⟩ := issueToken_eq_ok.mp h
  obtain ⟨-, -, header, encoded, signature, hparts, -, hdecode, -⟩ := verifyToken_eq_ok.mp hverify
  obtain ⟨-, rfl, -⟩ : TOKEN_HEADER = header ∧ _ = encoded ∧ _ = signature := by
    simpa using hparts
  rw [crypto.decodePayload_encodePayload] at hdecode
  rw [← Except.ok.inj hdecode]

/-- A token belongs to one wallet. -/
theorem BelongsTo.unique (h : BelongsTo env crypto walletAddress token)
    (hother : BelongsTo env crypto other token) : walletAddress = other := by
  obtain ⟨now, hissued⟩ := hother.issued
  have haccepted := verifyToken_issueToken hissued (t := now) (Nat.le_add_right ..)
  exact (h.address now _ haccepted).symm

/-- **What the route of the server answers is in the model.** -/
theorem exchangeResponse_of_runs {cidOf : PinataRequest → String} {w w' : ServerWorld}
    {signature : Option String} {r : ChallengeResponse}
    (hr : Process.Runs (Answers True cidOf)
      (challengeRoute env crypto (.post (some walletAddress) signature)) w r w') :
    ∃ exchange, (exchangeResponse env crypto walletAddress exchange).body = r.body := by
  have houtcome := runs_post hr
  cases hbody : r.body with
  | error message => exact ⟨.refused r.status message, rfl⟩
  | challenge value => exact absurd hbody (houtcome.not_challenge value)
  | token token =>
    obtain ⟨a, ha, _, -, _, _, now, hredeemed⟩ := houtcome.redemption token hbody
    obtain rfl := Option.some.inj ha
    refine ⟨.issued now, ?_⟩
    unfold exchangeResponse
    dsimp only
    rw [hredeemed.issued]

/-- A sign-in returns tokens of its own wallet only. -/
theorem belongsTo_of_returns {stage : Stage} {answer : Answer}
    (h : signIn env crypto walletAddress stage answer = some (.returns token)) :
    BelongsTo env crypto walletAddress token := by
  have hexchanged {exchange : Exchange}
      (h : exchanged (exchangeResponse env crypto walletAddress exchange) = .returns token) :
      BelongsTo env crypto walletAddress token := by
    cases exchange with
    | refused status message =>
      unfold exchanged exchangeResponse at h
      dsimp only at h
      split_ifs at h
    | issued now =>
      unfold exchangeResponse at h
      dsimp only at h
      cases hissue : issueToken env crypto now walletAddress TOKEN_EXPIRES_IN with
      | error e =>
        rw [hissue] at h
        cases h
      | ok issued =>
        rw [hissue] at h
        obtain rfl := Progress.returns.inj h
        exact belongsTo_of_issued hissue
  unfold signIn at h
  split at h
  · cases h
  · -- the first two requests never return a token
    have h := Option.some.inj h
    split_ifs at h
  · have h := Option.some.inj h
    split at h
    · cases h
    · split_ifs at h
  · exact hexchanged (Option.some.inj h)
  · cases h

/-! ### The invariant -/

/-- The cached token belongs to the wallet that has signed in for it. -/
def Cached (env : Deployment) (crypto : Crypto) (s : Browser) : Prop :=
  ∀ data ∈ s.uploadToken, ∃ owner ∈ s.owner, BelongsTo env crypto owner data.token

theorem Cached.congr {s' : Browser} (h : Cached env crypto s)
    (huploadToken : s'.uploadToken = s.uploadToken) (howner : s'.owner = s.owner) :
    Cached env crypto s' := by
  unfold Cached
  rw [huploadToken, howner]
  exact h

theorem cached_of_none (h : s.uploadToken = none) : Cached env crypto s := by
  intro data hdata
  rw [h] at hdata
  cases hdata

/-- The cache answers with its token as long as it is live. -/
theorem getCachedToken_cases (s : Browser) :
    (∃ data ∈ s.uploadToken, s.now ≤ data.expiresAt ∧ s.getCachedToken = (some data.token, s)) ∨
    ((∀ data ∈ s.uploadToken, ¬ s.now ≤ data.expiresAt) ∧
      ∃ s', s.getCachedToken = (none, s') ∧ s'.ended = s.ended ∧
        (s' = s ∨ s'.uploadToken = none)) := by
  unfold Browser.getCachedToken
  cases hdata : s.uploadToken with
  | none => exact .inr ⟨nofun, s, rfl, rfl, .inl rfl⟩
  | some data =>
    dsimp only
    split_ifs with hexpired
    · refine .inr ⟨fun other hother => ?_, _, rfl, rfl, .inr rfl⟩
      obtain rfl := Option.some.inj hother
      omega
    · exact .inl ⟨data, rfl, by omega, rfl⟩

theorem Cached.getUploadToken (h : Cached env crypto s) :
    Cached env crypto (s.getUploadToken walletAddress) := by
  unfold Browser.getUploadToken
  rcases getCachedToken_cases s with ⟨data, -, -, heq⟩ | ⟨-, s', heq, -, rfl | hnone⟩
  · rw [heq]
    exact h.congr rfl rfl
  · rw [heq]
    exact h.congr rfl rfl
  · rw [heq]
    exact cached_of_none hnone

theorem Cached.proceed (h : Cached env crypto s) {progress : Progress}
    (hreturns : ∀ token, progress = .returns token → BelongsTo env crypto walletAddress token) :
    Cached env crypto (s.proceed walletAddress progress) := by
  cases progress with
  | waits stage => exact h.congr rfl rfl
  | throws message => exact h.congr rfl rfl
  | returns token =>
    unfold Browser.proceed Browser.cacheToken
    dsimp only
    split_ifs
    · intro data hdata
      obtain rfl := Option.some.inj hdata
      exact ⟨walletAddress, rfl, hreturns token rfl⟩
    · exact h.congr rfl rfl

/-- The cached token belongs to its owner, after every event. -/
theorem Cached.step (h : Cached env crypto s) : Cached env crypto (step env crypto s e) := by
  cases e with
  | getUploadToken walletAddress => exact h.getUploadToken
  | settled i answer =>
    unfold UploadToken.step
    dsimp only
    split
    · exact h
    · next walletAddress stage hpending =>
      split
      · exact h
      · next progress hprogress =>
        have hwaiting : Cached env crypto { s with pending := s.pending.eraseIdx i } :=
          h.congr rfl rfl
        refine hwaiting.proceed fun token htoken => ?_
        rw [htoken] at hprogress
        exact belongsTo_of_returns hprogress
  | clearUploadToken => exact cached_of_none rfl
  | elapsed milliseconds => exact h.congr rfl rfl

/-! ### The steps that keep the property -/

theorem Belongs.congr {s' : Browser} (h : Belongs env crypto s) (hended : s'.ended = s.ended) :
    Belongs env crypto s' := by
  unfold Belongs
  rw [hended]
  exact h

/-- One more call has returned. -/
theorem belongs_cons_iff (h : Belongs env crypto s) {s' : Browser}
    (hended : s'.ended = (walletAddress, .ok token) :: s.ended) :
    Belongs env crypto s' ↔ BelongsTo env crypto walletAddress token := by
  unfold Belongs
  rw [hended]
  constructor
  · exact fun hall => hall walletAddress token List.mem_cons_self
  · intro hbelongs caller other hmem
    rcases List.mem_cons.mp hmem with heq | hmem
    · obtain ⟨rfl, hother⟩ := Prod.mk.inj heq
      rw [Except.ok.inj hother]
      exact hbelongs
    · exact h caller other hmem

/-- **A call gets a token of its own wallet exactly under the condition.** -/
theorem belongs_getUploadToken_iff (hcached : Cached env crypto s) (h : Belongs env crypto s) :
    Belongs env crypto (s.getUploadToken walletAddress) ↔
      Keeps s (.getUploadToken walletAddress) := by
  unfold Browser.getUploadToken Keeps
  rcases getCachedToken_cases s with ⟨data, hdata, hlive, heq⟩ | ⟨hdead, s', heq, hended, -⟩
  · rw [heq]
    obtain ⟨owner, howner, hbelongs⟩ := hcached data hdata
    have howner : s.owner = some owner := howner
    dsimp only
    rw [belongs_cons_iff h rfl, howner]
    constructor
    · intro hcaller _ _ _
      rw [hcaller.unique hbelongs]
    · intro hkeeps
      rw [← Option.some.inj (hkeeps data hdata hlive)]
      exact hbelongs
  · rw [heq]
    exact iff_of_true (h.congr hended) fun data hdata hlive => absurd hlive (hdead data hdata)

theorem Belongs.proceed (h : Belongs env crypto s) {progress : Progress}
    (hreturns : ∀ token, progress = .returns token → BelongsTo env crypto walletAddress token) :
    Belongs env crypto (s.proceed walletAddress progress) := by
  cases progress with
  | waits stage => exact h.congr rfl
  | throws message =>
    intro caller token hmem
    rcases List.mem_cons.mp hmem with heq | hmem
    · cases heq
    · exact h caller token hmem
  | returns token =>
    have hended : (s.proceed walletAddress (.returns token)).ended =
        (walletAddress, .ok token) :: s.ended := by
      unfold Browser.proceed Browser.cacheToken
      dsimp only
      split_ifs <;> rfl
    exact (belongs_cons_iff h hended).mpr (hreturns token rfl)

/-- **The steps that keep the property.** -/
theorem belongs_step_iff (hcached : Cached env crypto s) (h : Belongs env crypto s) :
    Belongs env crypto (step env crypto s e) ↔ Keeps s e := by
  cases e with
  | getUploadToken walletAddress => exact belongs_getUploadToken_iff hcached h
  | settled i answer =>
    refine iff_of_true ?_ trivial
    unfold UploadToken.step
    dsimp only
    split
    · exact h
    · next walletAddress stage hpending =>
      split
      · exact h
      · next progress hprogress =>
        have hwaiting : Belongs env crypto { s with pending := s.pending.eraseIdx i } :=
          h.congr rfl
        refine hwaiting.proceed fun token htoken => ?_
        rw [htoken] at hprogress
        exact belongsTo_of_returns hprogress
  | clearUploadToken => exact iff_of_true (h.congr rfl) trivial
  | elapsed milliseconds => exact iff_of_true (h.congr rfl) trivial

/-- **Every caller gets a token of the wallet that it names throughout a run if and only if a live cached
token is asked for only by the wallet that has signed in for it.** -/
theorem throughout_belongs_iff (env : Deployment) (crypto : Crypto) (storage : Bool) (now : ℕ)
    (events : List Event) :
    Throughout (step env crypto) (Belongs env crypto) ⟨storage, now, none, none, [], []⟩ events ↔
      Kept (step env crypto) Keeps ⟨storage, now, none, none, [], []⟩ events :=
  throughout_iff_kept (I := Cached env crypto) (fun h => h.step) belongs_step_iff
    (cached_of_none rfl) (fun _ _ h => absurd h List.not_mem_nil)

/-! ### An account is switched -/

/-- A wallet signs in, and another one asks for its token within a minute. -/
def switchedAccount : List Event := [
  .getUploadToken "GALICE",
  .settled 0 (.challenge 200 (some "nonce")),
  .settled 0 (.signature none (some "signed")),
  .settled 0 (.exchange (.issued 0)),
  .elapsed 60000,
  .getUploadToken "GBOB"]

/-- The other wallet gets the token of the first one. -/
theorem not_belongs_switchedAccount :
    ¬ ∀ env crypto storage now events, Throughout (step env crypto) (Belongs env crypto)
      ⟨storage, now, none, none, [], []⟩ events := by
  intro h
  have hlast := (h sampleDeployment plainCrypto true 0 switchedAccount).last
  obtain ⟨token, hissued⟩ : ∃ token,
      issueToken sampleDeployment plainCrypto 0 "GALICE" TOKEN_EXPIRES_IN = .ok token := ⟨_, rfl⟩
  have hreturned : ("GBOB", .ok token) ∈
      (switchedAccount.foldl (step sampleDeployment plainCrypto) ⟨true, 0, none, none, [], []⟩).ended := by
    obtain ⟨secret, hsecret, rfl⟩ := issueToken_eq_ok.mp hissued
    obtain rfl := Option.some.inj hsecret
    exact List.mem_cons_self
  have heq : "GALICE" = "GBOB" := (belongsTo_of_issued hissued).unique (hlast _ _ hreturned)
  revert heq
  decide

end StellarForge.Frontend.UploadToken
