import StellarForge.Server.Services

/-!
# Upload tokens

`jwt.ts`.  A token is given by its parts, the texts between its dots.

* `verifyToken_issueToken`: an issued token is accepted until its expiry, the last second included;
* `verifyToken_eq_ok`: what the acceptance of a token says.
-/

namespace StellarForge.Server

/-- What a token says. -/
structure TokenPayload where
  address : String
  iat : ℕ
  exp : ℕ
  deriving DecidableEq, Repr

/-- A token text, split at its dots. -/
abbrev Token := List String

/-- The cryptography and the encodings that the routes use. -/
structure Crypto where
  /-- HMAC-SHA256 of a text under a secret. -/
  hmac : String → String → List UInt8
  base64url : List UInt8 → String
  fromBase64url : String → List UInt8
  fromBase64url_base64url : ∀ bytes, fromBase64url (base64url bytes) = bytes
  /-- The base64url text of the JSON text of a payload. -/
  encodePayload : TokenPayload → String
  /-- The payload in a base64url text, or the error of `JSON.parse`. -/
  decodePayload : String → Except String TokenPayload
  decodePayload_encodePayload : ∀ payload, decodePayload (encodePayload payload) = .ok payload
  /-- `verifyStellarSignature`: the address, the message and the signature in base64.  Whatever is
  malformed is not verified. -/
  verifySignature : String → String → String → Bool
  verifySignature_empty : ∀ address message, verifySignature address message "" = false

/-- The base64url text of `{"alg":"HS256","typ":"JWT"}`. -/
def TOKEN_HEADER : String := "eyJhbGciOiJIUzI1NiIsInR5cCI6IkpXVCJ9"

/-- Five minutes, in milliseconds. -/
def TOKEN_EXPIRES_IN : ℕ := 5 * 60 * 1000

/-- The error of a server without a secret. -/
def jwtSecretMissing : String := "JWT_SECRET environment variable is not configured."

/-- The secret that tokens are signed with: `!secret` refuses one that is empty like one that is not
set. -/
def Deployment.signingSecret? (env : Deployment) : Option String := env.jwtSecret.filter (· ≠ "")

theorem Deployment.mem_signingSecret? {env : Deployment} {secret : String} :
    secret ∈ env.signingSecret? ↔ env.jwtSecret = some secret ∧ secret ≠ "" := by
  rw [signingSecret?, Option.mem_def, Option.filter_eq_some_iff, decide_eq_true_eq]

/-- What is signed of a token. -/
def signedMessage (header payload : String) : String := header ++ "." ++ payload

section

variable (env : Deployment) (crypto : Crypto) (now : ℕ)

/-- `now` is the clock in milliseconds; a token counts in seconds. -/
def issueToken (address : String) (expiresIn : ℕ) : Except String Token :=
  match env.signingSecret? with
  | none => .error jwtSecretMissing
  | some secret =>
    let payload := crypto.encodePayload ⟨address, now / 1000, now / 1000 + expiresIn / 1000⟩
    .ok [TOKEN_HEADER, payload,
      crypto.base64url (crypto.hmac secret (signedMessage TOKEN_HEADER payload))]

/-- The signature of the parts is the server's. -/
def MacValid (secret header payload signature : String) : Prop :=
  crypto.hmac secret (signedMessage header payload) = crypto.fromBase64url signature

instance {secret header payload signature : String} :
    Decidable (MacValid crypto secret header payload signature) :=
  inferInstanceAs (Decidable (_ = _))

/-- The payload of a token that the server has signed and that has not expired. -/
def verifyToken (token : Token) : Except String TokenPayload :=
  match env.signingSecret? with
  | none => .error jwtSecretMissing
  | some secret =>
    match token with
    | [header, payload, signature] =>
      if MacValid crypto secret header payload signature then
        match crypto.decodePayload payload with
        | .error e => .error e
        | .ok payload =>
          if payload.exp < now / 1000 then .error "Token has expired." else .ok payload
      else .error "Invalid token signature."
    | _ => .error "Invalid token format."

end

section

variable {env : Deployment} {crypto : Crypto} {now t : ℕ} {token : Token} {address : String}

theorem issueToken_eq_ok {expiresIn : ℕ} :
    issueToken env crypto now address expiresIn = .ok token ↔
      ∃ secret ∈ env.signingSecret?,
        token = [TOKEN_HEADER,
          crypto.encodePayload ⟨address, now / 1000, now / 1000 + expiresIn / 1000⟩,
          crypto.base64url (crypto.hmac secret (signedMessage TOKEN_HEADER
            (crypto.encodePayload ⟨address, now / 1000, now / 1000 + expiresIn / 1000⟩)))] := by
  rw [issueToken]
  rcases env.signingSecret? with _ | secret
  · simp
  · simp only [Except.ok.injEq, Option.mem_some_iff, exists_eq_left']
    exact eq_comm

/-- **The tokens that are accepted**: those of the secret that have not expired. -/
theorem verifyToken_eq_ok {p : TokenPayload} :
    verifyToken env crypto now token = .ok p ↔
      ∃ secret ∈ env.signingSecret?, ∃ header payload signature, token = [header, payload, signature] ∧
        MacValid crypto secret header payload signature ∧
        crypto.decodePayload payload = .ok p ∧ now / 1000 ≤ p.exp := by
  rw [verifyToken]
  constructor
  · intro h
    -- secret, three parts, signature, payload and expiry, in the order of the source
    split at h
    · cases h
    · next secret hsecret =>
      split at h
      · next header payload signature =>
        split_ifs at h with hmac
        split at h
        · cases h
        · next p' hp' =>
          split_ifs at h with hexp
          obtain rfl := Except.ok.inj h
          exact ⟨secret, hsecret, header, payload, signature, rfl, hmac, hp', Nat.not_lt.mp hexp⟩
      · cases h
  · rintro ⟨secret, hsecret, header, payload, signature, rfl, hmac, hp, hexp⟩
    rw [Option.mem_def.mp hsecret]
    simp only [if_pos hmac, hp, if_neg (Nat.not_lt.mpr hexp)]

/-- **An issued token is accepted until its expiry**, the last second included. -/
theorem verifyToken_issueToken (htoken : issueToken env crypto now address TOKEN_EXPIRES_IN = .ok token)
    (ht : t / 1000 ≤ now / 1000 + 300) :
    verifyToken env crypto t token = .ok ⟨address, now / 1000, now / 1000 + 300⟩ := by
  obtain ⟨secret, hsecret, rfl⟩ := issueToken_eq_ok.mp htoken
  refine verifyToken_eq_ok.mpr ⟨secret, hsecret, _, _, _, rfl, ?_, ?_, ht⟩
  · exact (crypto.fromBase64url_base64url _).symm
  · exact crypto.decodePayload_encodePayload _

end

/-! ### Encodings in the clear

A concrete choice of the cryptography, with which the routes can be run. -/

/-- Bytes as the characters with these codes. -/
def plainText (bytes : List UInt8) : String := String.ofList (bytes.map fun b => Char.ofNat b.toNat)

/-- The codes of the characters. -/
def plainBytes (text : String) : List UInt8 := text.toList.map fun c => UInt8.ofNat c.toNat

theorem plainBytes_plainText (bytes : List UInt8) : plainBytes (plainText bytes) = bytes := by
  rw [plainBytes, plainText, String.toList_ofList, List.map_map]
  conv_rhs => rw [← List.map_id bytes]
  apply List.map_congr_left
  intro b _
  have hb : b.toNat < 256 := b.toNat_lt
  have hvalid : b.toNat.isValidChar := .inl (by omega)
  have hchar : (Char.ofNat b.toNat).toNat = b.toNat := by
    rw [Char.ofNat, dif_pos hvalid]
    rfl
  show UInt8.ofNat (Char.ofNat b.toNat).toNat = b
  rw [hchar, UInt8.ofNat_toNat]

/-- A payload in plain writing. -/
def plainPayload (p : TokenPayload) : String :=
  String.ofList (List.replicate p.iat 'i' ++ '.' :: (List.replicate p.exp 'e' ++ '.' :: p.address.toList))

/-- What is read of it. -/
def readPayload (text : String) : TokenPayload :=
  let iat := text.toList.takeWhile (· = 'i')
  let rest := (text.toList.drop (iat.length + 1))
  let exp := rest.takeWhile (· = 'e')
  ⟨String.ofList (rest.drop (exp.length + 1)), iat.length, exp.length⟩

theorem takeWhile_replicate_append (c d : Char) (hcd : d ≠ c) (n : ℕ) (rest : List Char) :
    (List.replicate n c ++ d :: rest).takeWhile (· = c) = List.replicate n c := by
  rw [List.takeWhile_append_of_pos (by simp), List.takeWhile_cons]
  simp [hcd]

/-- A payload in plain writing is read back. -/
theorem readPayload_plainPayload (p : TokenPayload) : readPayload (plainPayload p) = p := by
  obtain ⟨address, iat, exp⟩ := p
  simp only [readPayload, plainPayload, String.toList_ofList]
  rw [takeWhile_replicate_append 'i' '.' (by decide), List.length_replicate]
  have hdrop : ∀ (c : Char) (n : ℕ) (rest : List Char),
      (List.replicate n c ++ '.' :: rest).drop (n + 1) = rest := by
    intro c n rest
    rw [List.drop_append, List.length_replicate]
    simp
  rw [hdrop, takeWhile_replicate_append 'e' '.' (by decide), List.length_replicate, hdrop,
    String.ofList_toList]

/-- The encodings in the clear, and a signature that names its address and its message. -/
def plainCrypto : Crypto where
  hmac secret message := plainBytes (secret ++ ":" ++ message)
  base64url := plainText
  fromBase64url := plainBytes
  fromBase64url_base64url := plainBytes_plainText
  encodePayload := plainPayload
  decodePayload text := .ok (readPayload text)
  decodePayload_encodePayload p := by rw [readPayload_plainPayload]
  verifySignature address message signature := signature = address ++ ":" ++ message
  verifySignature_empty address message := by simp

end StellarForge.Server
