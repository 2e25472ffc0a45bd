import Mathlib.Data.List.Basic
import StellarForge.Concurrency.Pool
import StellarForge.Server.Challenge

/-!
# Logging in among strangers

Any number of requests to the challenge route in progress.  The holder of an address asks for a
challenge, signs it and posts the signature; meanwhile strangers name the same address.

* `token_of_leftAlone`: **the holder receives a token** when nobody alters the address's challenge
  between its storing and its reading, and the address's bucket has room;
* `not_token_sampleReplaced`: one `GET` of a stranger in between, and the login fails.
-/

namespace StellarForge.Server

open Collections Concurrency Transition Process

/-- The challenge route with its requests in progress. -/
abbrev ChallengePool := Pool Memory Op Op.Reply ChallengeResponse Services

/-- A step of a request, or its beginning. -/
abbrev ChallengeTurn := Turn ChallengeRequest Op

/-- Requests arrive and perform their operations; no KV operation fails. -/
def ChallengeStep (env : Deployment) (crypto : Crypto) (cidOf : PinataRequest → String) :
    ChallengePool → ChallengeTurn → ChallengePool → Prop :=
  Pool.Step (challengeRoute env crypto) (Answers False cidOf)

/-- The pool after the arrival of a request. -/
def arrived (env : Deployment) (crypto : Crypto) (s : ChallengePool) (r : ChallengeRequest) :
    ChallengePool :=
  { s with tasks := s.tasks ++ [challengeRoute env crypto r] }

/-- The label is a write or a deletion of the key. -/
def Alters (k : Key) : ChallengeTurn → Prop
  | .move _ _ (some (.kvSet k' _ _)) => k' = k
  | .move _ _ (some (.kvDel k')) => k' = k
  | _ => False

/-- The action bucket of the address has room whenever the request at `j` reads it. -/
structure HasRoom (env : Deployment) (crypto : Crypto) (cidOf : PinataRequest → String)
    (address : String) (j : ℕ) (s₀ : ChallengePool) (h : List ChallengeTurn) : Prop where
  window : ∀ h₁ h₂ t s, h = h₂ ++ .move j t (some (.kvGet (.window (.action address)))) :: h₁ →
    Run (ChallengeStep env crypto cidOf) s₀ h₁ s →
    (nextWindow env.actionMaxPerWindow t
      (s.world.store.kv.get t (.window (.action address)))).isSome
  day : ∀ h₁ h₂ t s, h = h₂ ++ .move j t (some (.kvGet (.day (.action address)))) :: h₁ →
    Run (ChallengeStep env crypto cidOf) s₀ h₁ s →
    (nextDay env.actionMaxPerDay (s.world.store.kv.get t (.day (.action address)))).isSome

/-- The request at `j` reads the challenge that the request at `i` has stored within its lifetime,
and nobody alters it in between. -/
def LeftAlone (address : String) (i j : ℕ) (h : List ChallengeTurn) : Prop :=
  ∀ h₁ h₂ h₃ t₁ t₂ c ex,
    h = h₃ ++ .move j t₂ (some (.kvGet (.challenge address))) ::
      (h₂ ++ .move i t₁ (some (.kvSet (.challenge address) c ex)) :: h₁) →
    t₂ ≤ t₁ + CHALLENGE_TTL_MS ∧ ∀ l ∈ h₂, ¬ Alters (.challenge address) l

section

variable {env : Deployment} {crypto : Crypto} {cidOf : PinataRequest → String}
  {s s' s₀ s₁ s₂ : ChallengePool} {h h₁ h₂ : List ChallengeTurn} {l : ChallengeTurn} {i j t : ℕ}
  {address signature c : String}

/-! ### What is stored -/

/-- A step that does not alter an entry leaves it. -/
theorem entry_of_not_alters {k : Key} (hs : ChallengeStep env crypto cidOf s l s')
    (hl : ¬ Alters k l) : s'.world.store.kv.entry k = s.world.store.kv.entry k := by
  cases hs with
  | arrive => rfl
  | finish _ _ _ => rfl
  | @perform i t p op next m r store ht hi hq hans =>
    -- only a write or a delete under `k` itself alters the entry
    cases op with
    | kvGet k' =>
      obtain ⟨rfl, -⟩ := hans
      rfl
    | kvSet k' v ex =>
      obtain ⟨-, rfl⟩ | ⟨hf, -⟩ := hans
      · exact Expiring.entry_set_ne fun heq => hl heq.symm
      · exact hf.elim
    | kvDel k' =>
      obtain ⟨-, rfl⟩ | ⟨hf, -⟩ := hans
      · exact Expiring.entry_del_ne fun heq => hl heq.symm
      · exact hf.elim
    | randomBytes =>
      obtain ⟨-, rfl⟩ := hans
      rfl
    | pinata request =>
      obtain ⟨rfl, -⟩ := hans
      rfl

/-- What nobody alters stays. -/
theorem entry_of_run_not_alters {k : Key} (hr : Run (ChallengeStep env crypto cidOf) s₀ h s)
    (hno : ∀ l ∈ h, ¬ Alters k l) : s.world.store.kv.entry k = s₀.world.store.kv.entry k :=
  hr.frame (f := fun s => s.world.store.kv.entry k) fun hl hs => entry_of_not_alters hs (hno _ hl)

/-- After a write that nobody has altered, its value is stored. -/
theorem entry_of_run {k : Key} {v : k.Val} {ex : Option ℕ}
    (hr : Run (ChallengeStep env crypto cidOf) s₀ (h₂ ++ .move i t (some (.kvSet k v ex)) :: h₁) s)
    (hno : ∀ l ∈ h₂, ¬ Alters k l) :
    s.world.store.kv.entry k = some ⟨v, (ex.map (· * 1000)).map (t + ·)⟩ := by
  obtain ⟨s', hr', hr₂⟩ := Run.split hr
  rw [entry_of_run_not_alters hr₂ hno]
  obtain ⟨_, -, hs⟩ := Run.cons_iff.mp hr'
  cases hs with
  | perform _ _ _ hans =>
    obtain ⟨-, rfl⟩ | ⟨hf, -⟩ := hans
    · exact Expiring.entry_set_self
    · exact hf.elim

/-! ### The GET -/

/-- What the history `h` records of the operations of the request at `i`. -/
def Recorded (h : List ChallengeTurn) (i t : ℕ) : (op : Op) → op.Reply → Prop
  | .randomBytes, r => r ≠ ""
  | op, _ => .move i t (some op) ∈ h

/-- A `GET` that is answered with a challenge has stored it. -/
theorem yields_get (hkv : env.isKvConfigured = true) {clientIp : String} :
    ∀ t, (challengeRoute env crypto (.get (some address) clientIp)).Yields (Recorded h i)
      (fun r _ => ∀ c, r = ⟨200, .challenge c⟩ → StartsWithG address ∧ c ≠ "" ∧
        ∃ t, .move i t (some (.kvSet (.challenge address) c (some CHALLENGE_TTL_SECONDS))) ∈ h) t := by
  intro t
  simp only [challengeRoute, handleGetChallenge]
  split_ifs with hG
  · refine yields_bind.mpr (.of_forall fun limited u => ?_)
    cases limited
    · -- not limited: a value is drawn and stored
      show (issueChallenge env address).Yields _ _ u
      simp only [issueChallenge, putChallenge, hkv, Bool.not_true, Bool.false_eq_true, if_false]
      intro v hv u' r hr u''
      rcases r with e | ⟨⟩
      · intro c hc
        cases hc
      · intro c hc
        cases hc
        exact ⟨hG, hv, u', hr⟩
    · intro c hc
      cases hc
  · intro c hc
    cases hc

/-! ### The POST -/

/-- The replies that lead a `POST` for the address to its token, when `c` is stored for it. -/
def Favourable (env : Deployment) (address c : String) (t : ℕ) : (op : Op) → op.Reply → Prop
  | .kvGet (.window p), r =>
    p = .action address → ∃ d, r = .ok d ∧ (nextWindow env.actionMaxPerWindow t d).isSome
  | .kvGet (.day p), r => p = .action address → ∃ d, r = .ok d ∧ (nextDay env.actionMaxPerDay d).isSome
  | .kvGet (.challenge a), r => a = address → r = .ok (some c)
  | .kvSet .., r => r = .ok ()
  | .kvDel _, r => r = .ok ()
  | _, _ => True

/-- A check of a bucket with room lets the request through. -/
theorem yields_isActionRateLimited (hkv : env.isKvConfigured = true) :
    ∀ t, (isActionRateLimited env address).Yields (Favourable env address c)
      (fun limited _ => limited = false) t := by
  intro t
  rw [isActionRateLimited, isRateLimited_eq hkv]
  intro _ r hr t'
  obtain ⟨d, rfl, hroom⟩ := hr rfl
  obtain ⟨b, hb⟩ := Option.isSome_iff_exists.mp hroom
  show (failClosed (checkWindow _ _ _ t d)).Yields _ _ t'
  rw [failClosed_checkWindow, hb]
  intro r hr u
  obtain rfl : r = .ok () := hr
  show (failClosed (kvGet (.day (.action address)) >>= checkDay _ _)).Yields _ _ u
  rw [failClosed_kvGet]
  intro r hr u'
  obtain ⟨d, rfl, hroom⟩ := hr rfl
  obtain ⟨count, hcount⟩ := Option.isSome_iff_exists.mp hroom
  show (failClosed (checkDay _ _ d)).Yields _ _ u'
  rw [failClosed_checkDay, hcount]
  intro r hr v
  obtain rfl : r = .ok () := hr
  rfl

/-- **A `POST` whose replies are favourable is answered with a token.** -/
theorem yields_post (hkv : env.isKvConfigured = true) {secret : String}
    (hsecret : secret ∈ env.signingSecret?) (hG : StartsWithG address) (hc : c ≠ "")
    (hsign : crypto.verifySignature address c signature = true) :
    ∀ t, (challengeRoute env crypto (.post (some address) (some signature))).Yields
      (Favourable env address c) (fun r _ => ∃ token, r = ⟨200, .token token⟩) t := by
  intro t
  -- an empty signature never verifies
  have hne : signature ≠ "" := by
    rintro rfl
    rw [crypto.verifySignature_empty] at hsign
    cases hsign
  simp only [challengeRoute, handleVerifyChallenge, not_not.mpr hG, if_false, if_neg hne]
  -- the limiter, the challenge, its deletion and the token, each as favoured
  refine yields_bind.mpr ((yields_isActionRateLimited hkv t).imp ?_)
  rintro limited u rfl
  show (checkChallenge env crypto address signature).Yields _ _ u
  rw [checkChallenge, getChallenge, hkv]
  intro r hr u'
  obtain rfl := hr rfl
  show (if c = "" then _ else verifyChallenge env crypto address signature c :
    Program ChallengeResponse).Yields _ _ u'
  rw [if_neg hc, verifyChallenge, if_pos hsign, deleteChallenge, hkv]
  intro r hr v
  obtain rfl : r = .ok () := hr
  obtain ⟨token, htoken⟩ : ∃ token,
      issueToken env crypto v address TOKEN_EXPIRES_IN = .ok token := by
    rw [issueToken, Option.mem_def.mp hsecret]
    exact ⟨_, rfl⟩
  show (answerToken env crypto address).Yields _ _ v
  refine yields_bind.mpr fun m => ?_
  dsimp only [Process.Yields]
  rw [htoken]
  exact ⟨token, rfl⟩

/-! ### The login -/

theorem tasks_arrived {r : ChallengeRequest} :
    (arrived env crypto s r).tasks[s.tasks.length]? = some (challengeRoute env crypto r) := by
  rw [arrived, List.getElem?_append_right (Nat.le_refl _), Nat.sub_self]
  rfl

/-- A `GET` that was answered with a challenge has stored it. -/
theorem stored_of_get (hkv : env.isKvConfigured = true) {clientIp : String}
    (hget : Run (ChallengeStep env crypto cidOf)
      (arrived env crypto s₀ (.get (some address) clientIp)) h₁ s₁)
    (hgot : s₁.result? s₀.tasks.length = some ⟨200, .challenge c⟩) :
    StartsWithG address ∧ c ≠ "" ∧ ∃ t, .move s₀.tasks.length t
      (some (.kvSet (.challenge address) c (some CHALLENGE_TTL_SECONDS))) ∈ h₁ := by
  have hprogram : ∀ t, (challengeRoute env crypto (.get (some address) clientIp)).Yields
      (Recorded h₁ s₀.tasks.length) _ t := yields_get hkv
  obtain ⟨q, hq, hyields⟩ := Pool.yields_of_run hget tasks_arrived hprogram (by
      intro h h' t op s heq hr r store hans
      have hmem : .move s₀.tasks.length t (some op) ∈ h₁ := by simp [heq]
      cases op with
      | randomBytes => exact hans.1
      | _ => exact hmem)
  exact Pool.result_of_yields hq hyields hgot c rfl

/-- The replies to the holder's `POST`. -/
theorem favourable_of_leftAlone {clientIp : String} {t₁ : ℕ}
    (hget : Run (ChallengeStep env crypto cidOf)
      (arrived env crypto s₀ (.get (some address) clientIp)) h₁ s₁)
    (hstored : .move s₀.tasks.length t₁
      (some (.kvSet (.challenge address) c (some CHALLENGE_TTL_SECONDS))) ∈ h₁)
    (halone : LeftAlone address s₀.tasks.length s₁.tasks.length
      (h₂ ++ .arrive (.post (some address) (some signature)) :: h₁))
    (hroom : HasRoom env crypto cidOf address s₁.tasks.length
      (arrived env crypto s₁ (.post (some address) (some signature))) h₂)
    {h h' : List ChallengeTurn} {op : Op}
    (heq : h₂ = h' ++ .move s₁.tasks.length t (some op) :: h)
    (hr : Run (ChallengeStep env crypto cidOf)
      (arrived env crypto s₁ (.post (some address) (some signature))) h s)
    {r : op.Reply} {store : Services} (hans : Answers False cidOf t s.world.store op r store) :
    Favourable env address c t op r := by
  cases op with
  | kvGet k =>
    obtain ⟨-, rfl | ⟨hf, -⟩⟩ := hans
    · cases k with
      | window p =>
        rintro rfl
        exact ⟨_, rfl, hroom.window h h' t s heq hr⟩
      | day p =>
        rintro rfl
        exact ⟨_, rfl, hroom.day h h' t s heq hr⟩
      -- the challenge is read after it was stored, and nobody touched it in between
      | challenge a =>
        rintro rfl
        obtain ⟨before, after, rfl⟩ := List.append_of_mem hstored
        obtain ⟨ht, hno⟩ := halone after
          (h ++ .arrive (.post (some a) (some signature)) :: before) h' t₁ t c
          (some CHALLENGE_TTL_SECONDS) (by simp [heq])
        have hall : Run (ChallengeStep env crypto cidOf)
            (arrived env crypto s₀ (.get (some a) clientIp))
            -- the whole run, from the start, as one list of turns
            ((h ++ .arrive (.post (some a) (some signature)) :: before) ++
              .move s₀.tasks.length t₁
                (some (.kvSet (.challenge a) c (some CHALLENGE_TTL_SECONDS))) :: after) s := by
          have := (Run.snoc hget .arrive).append hr
          rwa [List.append_assoc, List.cons_append]
        have hentry := entry_of_run hall hno
        have hget : s.world.store.kv.get t (.challenge a) = some c := by
          refine Expiring.get_eq_some.mpr ⟨_, hentry, ?_, rfl⟩
          intro d hd
          obtain rfl := Option.some.inj hd
          exact ht
        exact congrArg Except.ok hget
      | pinOwner _ => trivial
    · exact hf.elim
  | kvSet k v ex =>
    obtain ⟨rfl, -⟩ | ⟨hf, -⟩ := hans
    · rfl
    · exact hf.elim
  | kvDel k =>
    obtain ⟨rfl, -⟩ | ⟨hf, -⟩ := hans
    · rfl
    · exact hf.elim
  | randomBytes => trivial
  | pinata _ => trivial

/-- **The holder receives a token**: when the challenge that a `GET` was answered with is signed and
posted, nobody alters the stored challenge before it is read within its lifetime, and the bucket of
the address has room.  An answer always comes. -/
theorem token_of_leftAlone (hkv : env.isKvConfigured = true) {secret clientIp : String}
    (hsecret : env.jwtSecret = some secret) (hne : secret ≠ "")
    (hget : Run (ChallengeStep env crypto cidOf)
      (arrived env crypto s₀ (.get (some address) clientIp)) h₁ s₁)
    (hgot : s₁.result? s₀.tasks.length = some ⟨200, .challenge c⟩)
    (hsign : crypto.verifySignature address c signature = true)
    (hpost : Run (ChallengeStep env crypto cidOf)
      (arrived env crypto s₁ (.post (some address) (some signature))) h₂ s₂)
    (halone : LeftAlone address s₀.tasks.length s₁.tasks.length
      (h₂ ++ .arrive (.post (some address) (some signature)) :: h₁))
    (hroom : HasRoom env crypto cidOf address s₁.tasks.length
      (arrived env crypto s₁ (.post (some address) (some signature))) h₂) :
    (∀ r, s₂.result? s₁.tasks.length = some r → ∃ token, r = ⟨200, .token token⟩) ∧
      ∃ h s, Run (ChallengeStep env crypto cidOf) s₂ h s ∧
        (s.result? s₁.tasks.length).isSome := by
  obtain ⟨hG, hc, t₁, hstored⟩ := stored_of_get hkv hget hgot
  -- each call of the request is answered as `Favourable` says, so it ends with the token
  obtain ⟨q, hq, hyields⟩ := Pool.yields_of_run hpost tasks_arrived
    (yields_post hkv (Deployment.mem_signingSecret?.mpr ⟨hsecret, hne⟩) hG hc hsign)
    fun h h' t op s heq hr r store hans =>
      favourable_of_leftAlone hget hstored halone hroom heq hr hans
  constructor
  · intro r hr
    have htoken : ∃ token, r = ⟨200, .token token⟩ := Pool.result_of_yields hq hyields hr
    exact htoken
  · exact Pool.ends exists_answers s₂ hq

end

/-! ### A stranger's request in between -/

/-- A server that has had no requests. -/
def noRequests : ChallengePool := ⟨⟨0, {}, {}⟩, []⟩

/-- The operations of a check that counts up to `count` in a bucket, latest first. -/
def sampleCheck (i : ℕ) (p : BucketPrefix) (count : ℕ := 1) : List ChallengeTurn :=
  [.move i 0 (some (.kvSet (.day p) count (some DAY_EX))), .move i 0 (some (.kvGet (.day p))),
    .move i 0 (some (.kvSet (.window p) ⟨count, 0⟩ (some WINDOW_EX))),
    .move i 0 (some (.kvGet (.window p)))]

/-- A `GET`, latest label first. -/
def sampleGet (i : ℕ) (clientIp value : String) : List ChallengeTurn :=
  .move i 0 (some (.kvSet (.challenge "GALICE") value (some CHALLENGE_TTL_SECONDS))) ::
    .move i 0 (some .randomBytes) :: sampleCheck i (.challenge clientIp)

/-- The operations of a `POST` that counts up to `count` in the bucket of the address, latest label
first. -/
def samplePost (i : ℕ) (count : ℕ := 1) : List ChallengeTurn :=
  .move i 0 (some (.kvDel (.challenge "GALICE"))) ::
    .move i 0 (some (.kvGet (.challenge "GALICE"))) :: sampleCheck i (.action "GALICE") count

/-- **A login fails**: after the holder's `GET` a stranger's `GET` names the same
address, and the holder's signature is checked against the stranger's challenge. -/
theorem not_token_sampleReplaced : ∃ s₁ s₂,
    Run (ChallengeStep sampleDeployment plainCrypto fun _ => "")
      (arrived sampleDeployment plainCrypto noRequests (.get (some "GALICE") "10.0.0.1"))
      (sampleGet 0 "10.0.0.1" "c1") s₁ ∧
    s₁.result? 0 = some ⟨200, .challenge "c1"⟩ ∧
    plainCrypto.verifySignature "GALICE" "c1" "GALICE:c1" = true ∧
    Run (ChallengeStep sampleDeployment plainCrypto fun _ => "")
      (arrived sampleDeployment plainCrypto s₁ (.post (some "GALICE") (some "GALICE:c1")))
      (samplePost 1 ++ (sampleGet 2 "10.0.0.2" "c2" ++ [.arrive (.get (some "GALICE") "10.0.0.2")]))
      s₂ ∧
    s₂.result? 1 = some ⟨401, .error "Signature verification failed."⟩ :=
  -- the challenge of the wallet, a stranger's request for the same address, and the answer to the first
  ⟨_, _, .snoc (.snoc (.snoc (.snoc (.snoc (.snoc .nil
      (.perform (Nat.le_refl _) rfl rfl ⟨rfl, .inl rfl⟩))
      (.perform (Nat.le_refl _) rfl rfl (.inl ⟨rfl, rfl⟩)))
      (.perform (Nat.le_refl _) rfl rfl ⟨rfl, .inl rfl⟩))
      (.perform (Nat.le_refl _) rfl rfl (.inl ⟨rfl, rfl⟩)))
      (.perform (Nat.le_refl _) rfl rfl ⟨by decide, rfl⟩))
      (.perform (Nat.le_refl _) rfl rfl (.inl ⟨rfl, rfl⟩)),
    rfl, by decide,
    .snoc (.snoc (.snoc (.snoc (.snoc (.snoc (.snoc (.snoc (.snoc (.snoc (.snoc (.snoc (.snoc .nil
      .arrive)
      (.perform (Nat.le_refl _) rfl rfl ⟨rfl, .inl rfl⟩))
      (.perform (Nat.le_refl _) rfl rfl (.inl ⟨rfl, rfl⟩)))
      (.perform (Nat.le_refl _) rfl rfl ⟨rfl, .inl rfl⟩))
      (.perform (Nat.le_refl _) rfl rfl (.inl ⟨rfl, rfl⟩)))
      (.perform (Nat.le_refl _) rfl rfl ⟨by decide, rfl⟩))
      (.perform (Nat.le_refl _) rfl rfl (.inl ⟨rfl, rfl⟩)))
      (.perform (Nat.le_refl _) rfl rfl ⟨rfl, .inl rfl⟩))
      (.perform (Nat.le_refl _) rfl rfl (.inl ⟨rfl, rfl⟩)))
      (.perform (Nat.le_refl _) rfl rfl ⟨rfl, .inl rfl⟩))
      (.perform (Nat.le_refl _) rfl rfl (.inl ⟨rfl, rfl⟩)))
      (.perform (Nat.le_refl _) rfl rfl ⟨rfl, .inl rfl⟩))
      (.perform (Nat.le_refl _) rfl rfl (.inl ⟨rfl, rfl⟩)),
    rfl⟩

/-! ### A stranger's request that comes too late

A stranger posts a guess for the same address.  It takes a place in the address's bucket and reads the
challenge before the holder's `POST` does, and deletes it after that. -/

/-- What the stranger has done before the holder's turn, latest label first. -/
def sampleGuess : List ChallengeTurn :=
  .move 2 0 (some (.kvGet (.challenge "GALICE"))) ::
    (sampleCheck 2 (.action "GALICE") ++ [.arrive (.post (some "GALICE") (some "guess"))])

/-- The login after the arrival of the holder's `POST`, latest label first. -/
def sampleLogin : List ChallengeTurn :=
  .move 2 0 (some (.kvDel (.challenge "GALICE"))) :: .move 1 0 none :: (samplePost 1 2 ++ sampleGuess)

/-- A challenge, and the login with its signature. -/
theorem run_sampleLogin : ∃ s₁ s₂,
    Run (ChallengeStep sampleDeployment plainCrypto fun _ => "")
      (arrived sampleDeployment plainCrypto noRequests (.get (some "GALICE") "10.0.0.1"))
      (sampleGet 0 "10.0.0.1" "c1") s₁ ∧
    s₁.tasks.length = 1 ∧ s₁.result? 0 = some ⟨200, .challenge "c1"⟩ ∧
    Run (ChallengeStep sampleDeployment plainCrypto fun _ => "")
      (arrived sampleDeployment plainCrypto s₁ (.post (some "GALICE") (some "GALICE:c1")))
      sampleLogin s₂ ∧ (s₂.result? 1).isSome :=
  ⟨_, _, .snoc (.snoc (.snoc (.snoc (.snoc (.snoc .nil
      (.perform (Nat.le_refl _) rfl rfl ⟨rfl, .inl rfl⟩))
      (.perform (Nat.le_refl _) rfl rfl (.inl ⟨rfl, rfl⟩)))
      (.perform (Nat.le_refl _) rfl rfl ⟨rfl, .inl rfl⟩))
      (.perform (Nat.le_refl _) rfl rfl (.inl ⟨rfl, rfl⟩)))
      (.perform (Nat.le_refl _) rfl rfl ⟨by decide, rfl⟩))
      (.perform (Nat.le_refl _) rfl rfl (.inl ⟨rfl, rfl⟩)),
    rfl, rfl,
    -- the stranger's check and its read of the challenge
    .snoc (.snoc (.snoc (.snoc (.snoc (.snoc (.snoc (.snoc (.snoc (.snoc (.snoc (.snoc (.snoc (.snoc .nil
      .arrive)
      (.perform (Nat.le_refl _) rfl rfl ⟨rfl, .inl rfl⟩))
      (.perform (Nat.le_refl _) rfl rfl (.inl ⟨rfl, rfl⟩)))
      (.perform (Nat.le_refl _) rfl rfl ⟨rfl, .inl rfl⟩))
      (.perform (Nat.le_refl _) rfl rfl (.inl ⟨rfl, rfl⟩)))
      (.perform (Nat.le_refl _) rfl rfl ⟨rfl, .inl rfl⟩))
      -- the holder's `POST`
      (.perform (Nat.le_refl _) rfl rfl ⟨rfl, .inl rfl⟩))
      (.perform (Nat.le_refl _) rfl rfl (.inl ⟨rfl, rfl⟩)))
      (.perform (Nat.le_refl _) rfl rfl ⟨rfl, .inl rfl⟩))
      (.perform (Nat.le_refl _) rfl rfl (.inl ⟨rfl, rfl⟩)))
      (.perform (Nat.le_refl _) rfl rfl ⟨rfl, .inl rfl⟩))
      (.perform (Nat.le_refl _) rfl rfl (.inl ⟨rfl, rfl⟩)))
      (.finish (Nat.le_refl _) rfl rfl))
      -- the stranger's deletion
      (.perform (Nat.le_refl _) rfl rfl (.inl ⟨rfl, rfl⟩)),
    rfl⟩

/-- Another request between the two leaves the login alone. -/
theorem leftAlone_sampleLogin {r : ChallengeRequest} :
    LeftAlone "GALICE" 0 1 (sampleLogin ++ .arrive r :: sampleGet 0 "10.0.0.1" "c1") := by
  intro h₁ h₂ h₃ t₁ t₂ c ex heq
  -- the read and the write occur once each
  have hread : .move 1 t₂ (some (.kvGet (.challenge "GALICE"))) ∈
      sampleLogin ++ .arrive r :: sampleGet 0 "10.0.0.1" "c1" := by
    rw [heq]
    simp
  obtain rfl : t₂ = 0 := by
    simpa [sampleLogin, sampleGuess, samplePost, sampleGet, sampleCheck] using hread
  have hsplit : sampleLogin ++ .arrive r :: sampleGet 0 "10.0.0.1" "c1" =
      [.move 2 0 (some (.kvDel (.challenge "GALICE"))), .move 1 0 none,
          .move 1 0 (some (.kvDel (.challenge "GALICE")))] ++
        .move 1 0 (some (.kvGet (.challenge "GALICE"))) ::
          (sampleCheck 1 (.action "GALICE") 2 ++ (sampleGuess ++
            .arrive r :: sampleGet 0 "10.0.0.1" "c1")) := rfl
  rw [hsplit, List.append_cons_inj_of_notMem (by simp)
    (by simp [sampleGuess, sampleGet, sampleCheck])] at heq
  obtain ⟨-, -, htail⟩ := heq
  refine ⟨Nat.zero_le _, fun l hl => ?_⟩
  have hwrite : .move 0 t₁ (some (.kvSet (.challenge "GALICE") c ex)) ∈
      sampleCheck 1 (.action "GALICE") 2 ++ (sampleGuess ++
        .arrive r :: sampleGet 0 "10.0.0.1" "c1") := by
    rw [htail]
    simp
  obtain ⟨rfl, rfl, rfl⟩ : t₁ = 0 ∧ c = "c1" ∧ ex = some CHALLENGE_TTL_SECONDS := by
    simpa [sampleGuess, sampleGet, sampleCheck] using hwrite
  have hsplit : sampleCheck 1 (.action "GALICE") 2 ++ (sampleGuess ++
        .arrive r :: sampleGet 0 "10.0.0.1" "c1") =
      (sampleCheck 1 (.action "GALICE") 2 ++ (sampleGuess ++ [.arrive r])) ++
        .move 0 0 (some (.kvSet (.challenge "GALICE") "c1" (some CHALLENGE_TTL_SECONDS))) ::
          (.move 0 0 (some .randomBytes) :: sampleCheck 0 (.challenge "10.0.0.1")) := rfl
  rw [hsplit, List.append_cons_inj_of_notMem (by simp [sampleGuess, sampleCheck])
    (by simp [sampleCheck])] at htail
  obtain ⟨rfl, -, -⟩ := htail
  -- what the stranger does in between is a check and a read
  simp only [sampleGuess, sampleCheck, List.cons_append, List.nil_append, List.mem_cons,
    List.not_mem_nil, or_false] at hl
  rcases hl with rfl | rfl | rfl | rfl | rfl | rfl | rfl | rfl | rfl | rfl | rfl <;> simp [Alters]

/-- The login has room under the limits. -/
theorem hasRoom_sampleLogin {s : ChallengePool} :
    HasRoom sampleDeployment plainCrypto (fun _ => "") "GALICE" 1 s sampleLogin := by
  constructor
  · intro h₁ h₂ t s' heq hr
    have hread : .move 1 t (some (.kvGet (.window (.action "GALICE")))) ∈ sampleLogin := by
      rw [heq]
      simp
    obtain rfl : t = 0 := by simpa [sampleLogin, sampleGuess, samplePost, sampleCheck] using hread
    have hsplit : sampleLogin =
        [.move 2 0 (some (.kvDel (.challenge "GALICE"))), .move 1 0 none,
            .move 1 0 (some (.kvDel (.challenge "GALICE"))),
            .move 1 0 (some (.kvGet (.challenge "GALICE"))),
            .move 1 0 (some (.kvSet (.day (.action "GALICE")) 2 (some DAY_EX))),
            .move 1 0 (some (.kvGet (.day (.action "GALICE")))),
            .move 1 0 (some (.kvSet (.window (.action "GALICE")) ⟨2, 0⟩ (some WINDOW_EX)))] ++
          .move 1 0 (some (.kvGet (.window (.action "GALICE")))) :: sampleGuess := rfl
    rw [hsplit, List.append_cons_inj_of_notMem (by simp) (by simp [sampleGuess, sampleCheck])] at heq
    obtain ⟨-, -, rfl⟩ := heq
    -- the stranger has counted to one
    have hguess : Run (ChallengeStep sampleDeployment plainCrypto fun _ => "") s
        ([.move 2 0 (some (.kvGet (.challenge "GALICE"))),
            .move 2 0 (some (.kvSet (.day (.action "GALICE")) 1 (some DAY_EX))),
            .move 2 0 (some (.kvGet (.day (.action "GALICE"))))] ++
          .move 2 0 (some (.kvSet (.window (.action "GALICE")) ⟨1, 0⟩ (some WINDOW_EX))) :: _) s' := hr
    rw [Expiring.get, entry_of_run hguess (by simp [Alters])]
    decide
  · intro h₁ h₂ t s' heq hr
    have hread : .move 1 t (some (.kvGet (.day (.action "GALICE")))) ∈ sampleLogin := by
      rw [heq]
      simp
    obtain rfl : t = 0 := by simpa [sampleLogin, sampleGuess, samplePost, sampleCheck] using hread
    have hsplit : sampleLogin =
        [.move 2 0 (some (.kvDel (.challenge "GALICE"))), .move 1 0 none,
            .move 1 0 (some (.kvDel (.challenge "GALICE"))),
            .move 1 0 (some (.kvGet (.challenge "GALICE"))),
            .move 1 0 (some (.kvSet (.day (.action "GALICE")) 2 (some DAY_EX)))] ++
          .move 1 0 (some (.kvGet (.day (.action "GALICE")))) ::
            (.move 1 0 (some (.kvSet (.window (.action "GALICE")) ⟨2, 0⟩ (some WINDOW_EX))) ::
              .move 1 0 (some (.kvGet (.window (.action "GALICE")))) :: sampleGuess) := rfl
    rw [hsplit, List.append_cons_inj_of_notMem (by simp) (by simp [sampleGuess, sampleCheck])] at heq
    obtain ⟨-, -, rfl⟩ := heq
    have hguess : Run (ChallengeStep sampleDeployment plainCrypto fun _ => "") s
        ([.move 1 0 (some (.kvSet (.window (.action "GALICE")) ⟨2, 0⟩ (some WINDOW_EX))),
            .move 1 0 (some (.kvGet (.window (.action "GALICE")))),
            .move 2 0 (some (.kvGet (.challenge "GALICE")))] ++
          .move 2 0 (some (.kvSet (.day (.action "GALICE")) 1 (some DAY_EX))) :: _) s' := hr
    rw [Expiring.get, entry_of_run hguess (by simp [Alters])]
    decide

/-- A login that a stranger's request does not disturb. -/
theorem token_of_leftAlone_sampleLogin : ∃ s₁ s₂ : ChallengePool,
    s₁.result? 0 = some ⟨200, .challenge "c1"⟩ ∧
      ∃ token, s₂.result? s₁.tasks.length = some ⟨200, .token token⟩ := by
  obtain ⟨s₁, s₂, hget, hlength, hgot, hpost, hdone⟩ := run_sampleLogin
  refine ⟨s₁, s₂, hgot, ?_⟩
  obtain ⟨r, hr⟩ := Option.isSome_iff_exists.mp hdone
  rw [← hlength] at hr
  have halone : LeftAlone "GALICE" 0 s₁.tasks.length (sampleLogin ++
      .arrive (.post (some "GALICE") (some "GALICE:c1")) :: sampleGet 0 "10.0.0.1" "c1") := by
    rw [hlength]
    exact leftAlone_sampleLogin
  have hroom : HasRoom sampleDeployment plainCrypto (fun _ => "") "GALICE" s₁.tasks.length
      (arrived sampleDeployment plainCrypto s₁ (.post (some "GALICE") (some "GALICE:c1")))
      sampleLogin := by
    rw [hlength]
    exact hasRoom_sampleLogin
  have hsign : plainCrypto.verifySignature "GALICE" "c1" "GALICE:c1" = true := by decide
  obtain ⟨token, rfl⟩ := (token_of_leftAlone (by decide) rfl (by decide) hget hgot hsign hpost halone
    hroom).1 r hr
  exact ⟨token, hr⟩

end StellarForge.Server
