import StellarForge.Server.Challenge

/-!
# The challenge that is pending

`pending env w address t` is the challenge of an address in the store, as a read at the time `t`
finds it, whichever store the deployment has.  A request to the challenge route runs on its own;
any operation may fail.

* `runs_get`: what a `GET` does to the pending challenges;
* `runs_post`: what a `POST` does, and what its token says.
-/

namespace StellarForge.Server

open Collections Concurrency Process

/-- The pending challenge of the address. -/
def pending (env : Deployment) (w : ServerWorld) (address : String) (t : ℕ) : Option String :=
  if !env.isKvConfigured then
    (w.memory.challenges address).bind fun s => if s.Fresh t then some s.value else none
  else w.store.kv.get t (.challenge address)

/-- No challenge has become pending. -/
structure Fades (env : Deployment) (w w' : ServerWorld) : Prop where
  clock_le : w.clock ≤ w'.clock
  drawn : w'.store.drawn = w.store.drawn
  pending : ∀ {a t c}, pending env w' a t = some c → pending env w a t = some c

/-- At the time `T` the challenge of the address has been replaced by `value`. -/
structure Replaces (env : Deployment) (address value : String) (T : ℕ) (w w' : ServerWorld) :
    Prop where
  le_time : w.clock ≤ T
  time_le : T ≤ w'.clock
  drawn : w'.store.drawn = w.store.drawn
  pending_self : ∀ {t c}, pending env w' address t = some c → c = value ∧ t ≤ T + CHALLENGE_TTL_MS
  pending_ne : ∀ {a t c}, a ≠ address → pending env w' a t = some c → pending env w a t = some c

section

variable {env : Deployment} {crypto : Crypto} {cidOf : PinataRequest → String}
  {w w' w₁ : ServerWorld} {address value c : String} {t T : ℕ}

theorem pending_of_kv (hkv : env.isKvConfigured = true) :
    pending env w address t = w.store.kv.get t (.challenge address) := by
  rw [pending, hkv]
  rfl

theorem pending_of_memory (hkv : env.isKvConfigured = false) :
    pending env w address t =
      (w.memory.challenges address).bind fun s => if s.Fresh t then some s.value else none := by
  rw [pending, hkv]
  rfl

theorem Fades.trans (h : Fades env w w₁) (h' : Fades env w₁ w') : Fades env w w' where
  clock_le := Nat.le_trans h.clock_le h'.clock_le
  drawn := h'.drawn.trans h.drawn
  pending hc := h.pending (h'.pending hc)

theorem Fades.of_elapse (h : Elapse w w') : Fades env w w' := by
  obtain ⟨t, ht, rfl⟩ := h
  exact ⟨ht, rfl, id⟩

theorem Fades.of_bucketsOnly (h : BucketsOnly w w') : Fades env w w' where
  clock_le := h.clock_le
  drawn := h.drawn
  pending {a t c} hc := by
    have heq : Server.pending env w' a t = Server.pending env w a t := by
      rw [Server.pending, Server.pending, h.challenges, Expiring.get, Expiring.get, h.challenge]
    rwa [← heq]

/-- The replacement takes place after and before steps in which no challenge becomes pending. -/
theorem Replaces.mono {w₂ : ServerWorld} (h₁ : Fades env w w₁)
    (h : Replaces env address value T w₁ w₂) (h₂ : Fades env w₂ w') :
    Replaces env address value T w w' where
  le_time := Nat.le_trans h₁.clock_le h.le_time
  time_le := Nat.le_trans h.time_le h₂.clock_le
  drawn := h₂.drawn.trans (h.drawn.trans h₁.drawn)
  pending_self hc := h.pending_self (h₂.pending hc)
  pending_ne ha hc := h₁.pending (h.pending_ne ha (h₂.pending hc))

/-! ### The challenge store -/

/-- A write to the store replaces the challenge of the address. -/
theorem replaces_kvSet (hkv : env.isKvConfigured = true) :
    Replaces env address value w.clock w { w with store := { w.store with
      kv := w.store.kv.set w.clock (.challenge address) value
        ((some CHALLENGE_TTL_SECONDS).map (· * 1000)) } } where
  le_time := Nat.le_refl _
  time_le := Nat.le_refl _
  drawn := rfl
  pending_self {t c} hc := by
    rw [pending_of_kv hkv, Expiring.get_set_self] at hc
    split_ifs at hc with hlive
    exact ⟨(Option.some.inj hc).symm, hlive _ rfl⟩
  pending_ne {a t c} ha hc := by
    have hne : Key.challenge a ≠ .challenge address := fun h => ha (Key.challenge.inj h)
    rw [pending_of_kv hkv, Expiring.get_set_ne hne] at hc
    rw [pending_of_kv hkv, hc]

/-- A write to memory does, likewise. -/
theorem replaces_putInMemory (hkv : env.isKvConfigured = false) {m : Memory}
    (hm : m.challenges = Function.update (sweepExpired w.clock w.memory).challenges address
      (some ⟨value, w.clock⟩)) :
    Replaces env address value w.clock w { w with memory := m } where
  le_time := Nat.le_refl _
  time_le := Nat.le_refl _
  drawn := rfl
  pending_self {t c} hc := by
    rw [pending_of_memory hkv, hm, Function.update_self, Option.bind_some] at hc
    split_ifs at hc with hfresh
    have ht : t - w.clock ≤ CHALLENGE_TTL_MS := hfresh
    exact ⟨(Option.some.inj hc).symm, by omega⟩
  pending_ne {a t c} ha hc := by
    rw [pending_of_memory hkv, hm, Function.update_of_ne ha, Option.bind_eq_some_iff] at hc
    obtain ⟨s, hs, hc⟩ := hc
    -- the sweep has only removed challenges
    have hs' : w.memory.challenges a = some s := (Option.filter_eq_some_iff.mp hs).1
    rw [pending_of_memory hkv, hs', Option.bind_some, hc]

/-- A write that fails may have been carried out. -/
theorem runs_putChallenge {r : Except KvError Unit}
    (hr : Runs (Answers True cidOf) (putChallenge env address value).run w r w') :
    (∃ T, Replaces env address value T w w') ∨ (∃ e, r = .error e) ∧ Fades env w w' := by
  by_cases hkv : env.isKvConfigured = true
  · have hput : (putChallenge env address value).run =
        await (Op.kvSet (.challenge address) value (some CHALLENGE_TTL_SECONDS)) := by
      rw [putChallenge, hkv]
      rfl
    rw [hput, runs_await] at hr
    obtain ⟨w₁, s, h₁, hans, h₂⟩ := hr
    have hset : Replaces env address value w₁.clock w₁ _ := replaces_kvSet hkv
    obtain ⟨-, rfl⟩ | ⟨-, he, rfl | rfl⟩ := hans
    · exact .inl ⟨_, hset.mono (.of_elapse h₁) (.of_elapse h₂)⟩
    · exact .inr ⟨he, .of_elapse (h₁.trans h₂)⟩
    · exact .inl ⟨_, hset.mono (.of_elapse h₁) (.of_elapse h₂)⟩
  · have hkv : env.isKvConfigured = false := Bool.eq_false_iff.mpr hkv
    rw [putChallenge, hkv] at hr
    obtain ⟨_, -, hr⟩ := runs_lift.mp hr
    obtain ⟨w₁, h₁, -, h₂⟩ := runs_atOnce.mp hr
    exact .inl ⟨w₁.clock, .mono (.of_elapse h₁) (replaces_putInMemory hkv rfl) (.of_elapse h₂)⟩

theorem fades_update (hkv : env.isKvConfigured = false) :
    Fades env w { w with memory := { w.memory with
      challenges := Function.update w.memory.challenges address none } } where
  clock_le := Nat.le_refl _
  drawn := rfl
  pending {a t c} hc := by
    rw [pending_of_memory hkv] at hc ⊢
    dsimp only at hc
    by_cases ha : a = address
    · subst ha
      rw [Function.update_self] at hc
      cases hc
    · rwa [Function.update_of_ne ha] at hc

/-- An expired challenge may be removed. -/
theorem runs_getChallenge {r : Except KvError (Option String)}
    (hr : Runs (Answers True cidOf) (getChallenge env address).run w r w') :
    Fades env w w' ∧ ∀ c, r = .ok (some c) →
      ∃ T, w.clock ≤ T ∧ T ≤ w'.clock ∧ pending env w address T = some c := by
  -- over KV the answer is the stored value or an error, and time passes on both sides of it
  by_cases hkv : env.isKvConfigured = true
  · have hget : (getChallenge env address).run = await (Op.kvGet (.challenge address)) := by
      rw [getChallenge, hkv]
      rfl
    rw [hget, runs_await] at hr
    obtain ⟨w₁, s, h₁, ⟨rfl, hans⟩, h₂⟩ := hr
    refine ⟨.of_elapse (h₁.trans h₂), fun c hc => ?_⟩
    obtain ⟨t, ht, rfl⟩ := h₁
    obtain ⟨t', ht', rfl⟩ := h₂
    obtain rfl | ⟨-, e, rfl⟩ := hans
    · exact ⟨t, ht, ht', (pending_of_kv hkv).trans (Except.ok.inj hc)⟩
    · cases hc
  · have hkv : env.isKvConfigured = false := Bool.eq_false_iff.mpr hkv
    rw [getChallenge, hkv] at hr
    obtain ⟨found, rfl, hget⟩ := runs_lift.mp hr
    obtain ⟨w₁, h₁, hfound, h₂⟩ := runs_atOnce.mp hget
    rcases hs : w₁.memory.challenges address with _ | stored
    · simp only [hs] at hfound h₂
      subst hfound
      exact ⟨.of_elapse (h₁.trans h₂), fun c hc => by cases hc⟩
    · -- in memory an entry that is too old is deleted by the read itself
      by_cases hfresh : stored.Fresh w₁.clock
      · simp only [hs, if_pos hfresh] at hfound h₂
        subst hfound
        refine ⟨.of_elapse (h₁.trans h₂), fun c hc => ?_⟩
        obtain ⟨t, ht, rfl⟩ := h₁
        obtain ⟨t', ht', rfl⟩ := h₂
        have hpending : pending env w address t = some stored.value := by
          have hs' : w.memory.challenges address = some stored := hs
          rw [pending_of_memory hkv, hs', Option.bind_some, if_pos hfresh]
        exact ⟨t, ht, ht', hpending.trans (Except.ok.inj hc)⟩
      · simp only [hs, if_neg hfresh] at hfound h₂
        subst hfound
        refine ⟨.trans (.of_elapse h₁) (.trans (fades_update hkv) (.of_elapse h₂)), fun c hc => ?_⟩
        cases hc

/-- After a deletion that has not failed nothing is pending. -/
theorem runs_deleteChallenge {r : Except KvError Unit}
    (hr : Runs (Answers True cidOf) (deleteChallenge env address).run w r w') :
    Fades env w w' ∧ (r = .ok () → ∀ t, pending env w' address t = none) := by
  by_cases hkv : env.isKvConfigured = true
  · have hdel : (deleteChallenge env address).run = await (Op.kvDel (.challenge address)) := by
      rw [deleteChallenge, hkv]
      rfl
    rw [hdel, runs_await] at hr
    obtain ⟨w₁, s, h₁, hans, h₂⟩ := hr
    -- deleting one address leaves the others pending
    have hfades : Fades env w₁ { w₁ with store := { w₁.store with
        kv := w₁.store.kv.del (.challenge address) } } := by
      refine ⟨Nat.le_refl _, rfl, fun {a t c} hc => ?_⟩
      rw [pending_of_kv hkv] at hc ⊢
      by_cases ha : a = address
      · subst ha
        rw [Expiring.get_del_self] at hc
        cases hc
      · rwa [Expiring.get_del_ne fun h => ha (Key.challenge.inj h)] at hc
    -- a failed delete may have happened or not
    obtain ⟨rfl, rfl⟩ | ⟨-, ⟨e, rfl⟩, rfl | rfl⟩ := hans
    · refine ⟨.trans (.of_elapse h₁) (hfades.trans (.of_elapse h₂)), fun _ t => ?_⟩
      obtain ⟨t', -, rfl⟩ := h₂
      rw [pending_of_kv hkv, Expiring.get_del_self]
    · exact ⟨.of_elapse (h₁.trans h₂), fun h => by cases h⟩
    · exact ⟨.trans (.of_elapse h₁) (hfades.trans (.of_elapse h₂)), fun h => by cases h⟩
  · have hkv : env.isKvConfigured = false := Bool.eq_false_iff.mpr hkv
    rw [deleteChallenge, hkv] at hr
    obtain ⟨_, -, hr⟩ := runs_lift.mp hr
    obtain ⟨w₁, h₁, -, h₂⟩ := runs_atOnce.mp hr
    refine ⟨.trans (.of_elapse h₁) (.trans (fades_update hkv) (.of_elapse h₂)), fun _ t => ?_⟩
    obtain ⟨t', -, rfl⟩ := h₂
    rw [pending_of_memory hkv]
    dsimp only
    rw [Function.update_self, Option.bind_none]

/-! ### The requests -/

/-- The world after a value was drawn. -/
def drawing (value : String) (w : ServerWorld) : ServerWorld :=
  { w with store := { w.store with drawn := value :: w.store.drawn } }

theorem Fades.drawing (h : Fades env w w') : Fades env (drawing value w) (drawing value w') :=
  ⟨h.clock_le, congrArg (value :: ·) h.drawn, h.pending⟩

/-- What a `GET` of the route does: nothing, or it draws a value, which is stored or not; when it is
answered with a challenge, this is the value, and it is stored. -/
inductive GetOutcome (env : Deployment) (address : Option String) (w : ServerWorld)
    (r : ChallengeResponse) (w' : ServerWorld) : Prop
  | refused (hr : ∀ c, r.body ≠ .challenge c) (h : Fades env w w')
  | failed {value : String} (hr : ∀ c, r.body ≠ .challenge c)
    (h : Fades env (drawing value w) w')
  | stored {a value : String} {T : ℕ} (ha : address = some a)
    (hr : ∀ c, r.body = .challenge c → c = value)
    (h : Replaces env a value T (drawing value w) w')

theorem GetOutcome.mono {address : Option String} {r : ChallengeResponse} (h₁ : Fades env w w₁)
    (h : GetOutcome env address w₁ r w') : GetOutcome env address w r w' := by
  cases h with
  | refused hr h => exact .refused hr (h₁.trans h)
  | failed hr h => exact .failed hr (h₁.drawing.trans h)
  | stored ha hr h => exact .stored ha hr (h.mono h₁.drawing (.of_elapse (.refl w')))

/-- What a `GET` ends with. -/
theorem runs_issueChallenge {r : ChallengeResponse}
    (hr : Runs (Answers True cidOf) (issueChallenge env address) w r w') :
    GetOutcome env (some address) w r w' ∧ ∀ token, r.body ≠ .token token := by
  obtain ⟨value, w₁, hdraw, hr⟩ := runs_bind.mp hr
  obtain ⟨w₀, s, h₀, ⟨-, rfl⟩, h₁⟩ := runs_await.mp hdraw
  have hbefore : Fades env (drawing value w) w₁ :=
    .trans (Fades.of_elapse h₀).drawing (.of_elapse h₁)
  obtain ⟨stored, w₂, hput, hr⟩ := runs_bind.mp hr
  rcases stored with e | ⟨⟩
  · obtain ⟨rfl, h₂⟩ := runs_done.mp hr
    refine ⟨?_, fun token htoken => by cases htoken⟩
    rcases runs_putChallenge hput with ⟨T, h⟩ | ⟨-, h⟩
    · exact .stored rfl (fun c hc => by cases hc) (h.mono hbefore (.of_elapse h₂))
    · exact .failed (fun c hc => by cases hc) (hbefore.trans (h.trans (.of_elapse h₂)))
  · obtain ⟨rfl, h₂⟩ := runs_done.mp hr
    refine ⟨?_, fun token htoken => by cases htoken⟩
    rcases runs_putChallenge hput with ⟨T, h⟩ | ⟨⟨e, he⟩, -⟩
    · refine .stored rfl (fun c hc => ?_) (h.mono hbefore (.of_elapse h₂))
      exact (ChallengeBody.challenge.inj hc).symm
    · cases he

/-- **A `GET`.** -/
theorem runs_get {address : Option String} {clientIp : String} {r : ChallengeResponse}
    (hr : Runs (Answers True cidOf) (challengeRoute env crypto (.get address clientIp)) w r w') :
    GetOutcome env address w r w' ∧ ∀ token, r.body ≠ .token token := by
  -- every other answer is an error
  have herror : ∀ {status message w₁}, Fades env w w₁ → Elapse w₁ w' →
      GetOutcome env address w ⟨status, .error message⟩ w' ∧
        ∀ token, (⟨status, .error message⟩ : ChallengeResponse).body ≠ .token token := by
    intro status message w₁ h h'
    exact ⟨.refused (fun c hc => by cases hc) (h.trans (.of_elapse h')),
      fun token htoken => by cases htoken⟩
  simp only [challengeRoute, handleGetChallenge] at hr
  split at hr
  · obtain ⟨rfl, h⟩ := runs_done.mp hr
    exact herror (.of_elapse (.refl w)) h
  · next a =>
    split_ifs at hr
    · obtain ⟨limited, w₁, hlimit, hr⟩ := runs_bind.mp hr
      have h₁ : Fades env w w₁ := .of_bucketsOnly (bucketsOnly_of_runs hlimit)
      cases limited
      · have hr : Runs (Answers True cidOf) (issueChallenge env a) w₁ r w' := hr
        obtain ⟨houtcome, htoken⟩ := runs_issueChallenge hr
        exact ⟨houtcome.mono h₁, htoken⟩
      · obtain ⟨rfl, h⟩ := runs_done.mp hr
        exact herror h₁ h
    · obtain ⟨rfl, h⟩ := runs_done.mp hr
      exact herror (.of_elapse (.refl w)) h

/-- What the token of a `POST` says: the challenge of the address was pending when it was read, its
signature is verified, and nothing is pending for the address afterwards. -/
structure Redemption (env : Deployment) (crypto : Crypto) (address signature c : String)
    (token : Token) (T τ : ℕ) (w w' : ServerWorld) : Prop where
  le_read : w.clock ≤ T
  le_end : τ ≤ w'.clock
  pending : pending env w address T = some c
  verified : crypto.verifySignature address c signature = true
  consumed : ∀ t, Server.pending env w' address t = none
  issued : issueToken env crypto τ address TOKEN_EXPIRES_IN = .ok token

/-- What a `POST` of the route does: at most it consumes a challenge. -/
structure PostOutcome (env : Deployment) (crypto : Crypto) (address signature : Option String)
    (w : ServerWorld) (r : ChallengeResponse) (w' : ServerWorld) : Prop where
  fades : Fades env w w'
  not_challenge : ∀ c, r.body ≠ .challenge c
  redemption : ∀ token, r.body = .token token → ∃ a ∈ address, ∃ s ∈ signature, ∃ c T τ,
    Redemption env crypto a s c token T τ w w'

theorem PostOutcome.of_error {address signature : Option String} {status : ℕ} {message : String}
    (h : Fades env w w₁) (h' : Elapse w₁ w') :
    PostOutcome env crypto address signature w ⟨status, .error message⟩ w' where
  fades := h.trans (.of_elapse h')
  not_challenge _ hc := by cases hc
  redemption _ htoken := by cases htoken

/-- What a `POST` ends with. -/
theorem runs_verifyChallenge {signature : String} {r : ChallengeResponse}
    (hr : Runs (Answers True cidOf) (verifyChallenge env crypto address signature c) w₁ r w')
    (h₁ : Fades env w w₁) (hT : w.clock ≤ T) (hc : pending env w address T = some c) :
    PostOutcome env crypto (some address) (some signature) w r w' := by
  rw [verifyChallenge] at hr
  split_ifs at hr with hsign
  · obtain ⟨deleted, w₂, hdelete, hr⟩ := runs_bind.mp hr
    obtain ⟨hfades, hgone⟩ := runs_deleteChallenge hdelete
    rcases deleted with e | ⟨⟩
    · obtain ⟨rfl, h⟩ := runs_done.mp hr
      exact .of_error (h₁.trans hfades) h
    · obtain ⟨token, w₃, hissue, hr⟩ := runs_bind.mp hr
      obtain ⟨w₄, h₃, rfl, h₄⟩ := runs_atOnce.mp hissue
      have h₃ : Fades env w₂ w₃ := .of_elapse (h₃.trans h₄)
      have hall : Fades env w w₃ := h₁.trans (hfades.trans h₃)
      rcases htoken : issueToken env crypto w₄.clock address TOKEN_EXPIRES_IN with e | token
      · simp only [htoken] at hr
        obtain ⟨rfl, h⟩ := runs_done.mp hr
        exact .of_error hall h
      · simp only [htoken] at hr
        obtain ⟨rfl, h⟩ := runs_done.mp hr
        refine ⟨hall.trans (.of_elapse h), fun _ hc => (by cases hc), fun _ heq => ?_⟩
        obtain rfl := ChallengeBody.token.inj heq
        refine ⟨address, rfl, signature, rfl, c, T, w₄.clock, ?_⟩
        have hlate : Fades env w₃ w' := .of_elapse h
        refine ⟨hT, ?_, hc, hsign, fun t => ?_, htoken⟩
        · obtain ⟨t', ht', rfl⟩ := h₄
          exact Nat.le_trans ht' hlate.clock_le
        · -- what was pending at the end would have been so after the deletion
          rcases hp : pending env w' address t with _ | c'
          · rfl
          · have := (h₃.trans hlate).pending hp
            rw [hgone rfl] at this
            cases this
  · obtain ⟨deleted, w₂, hdelete, hr⟩ := runs_bind.mp hr
    obtain ⟨rfl, h⟩ := runs_done.mp hr
    exact .of_error (h₁.trans (runs_deleteChallenge hdelete).1) h

/-- **A `POST`.** -/
theorem runs_post {address signature : Option String} {r : ChallengeResponse}
    (hr : Runs (Answers True cidOf) (challengeRoute env crypto (.post address signature)) w r w') :
    PostOutcome env crypto address signature w r w' := by
  have hsame : Fades env w w := .of_elapse (.refl w)
  -- the checks in their order; an early answer leaves all as it was, apart from time
  simp only [challengeRoute, handleVerifyChallenge] at hr
  split at hr
  · obtain ⟨rfl, h⟩ := runs_done.mp hr
    exact .of_error hsame h
  next a =>
  split_ifs at hr
  · split at hr
    · obtain ⟨rfl, h⟩ := runs_done.mp hr
      exact .of_error hsame h
    next s =>
    split_ifs at hr
    · obtain ⟨rfl, h⟩ := runs_done.mp hr
      exact .of_error hsame h
    · obtain ⟨limited, w₁, hlimit, hr⟩ := runs_bind.mp hr
      have h₁ : Fades env w w₁ := .of_bucketsOnly (bucketsOnly_of_runs hlimit)
      -- past the limiter the challenge is read, and only then compared
      cases limited
      · have hr : Runs (Answers True cidOf) (checkChallenge env crypto a s) w₁ r w' := hr
        obtain ⟨found, w₂, hget, hr⟩ := runs_bind.mp hr
        obtain ⟨h₂, hfound⟩ := runs_getChallenge hget
        rcases found with e | _ | c
        · obtain ⟨rfl, h⟩ := runs_done.mp hr
          exact .of_error (h₁.trans h₂) h
        · obtain ⟨rfl, h⟩ := runs_done.mp hr
          exact .of_error (h₁.trans h₂) h
        · obtain ⟨T, hT, -, hpending⟩ := hfound c rfl
          -- an empty challenge counts as none
          by_cases hempty : c = ""
          · simp only [if_pos hempty] at hr
            obtain ⟨rfl, h⟩ := runs_done.mp hr
            exact .of_error (h₁.trans h₂) h
          · simp only [if_neg hempty] at hr
            exact runs_verifyChallenge hr (h₁.trans h₂) (Nat.le_trans h₁.clock_le hT)
              (h₁.pending hpending)
      · obtain ⟨rfl, h⟩ := runs_done.mp hr
        exact .of_error h₁ h
  · obtain ⟨rfl, h⟩ := runs_done.mp hr
    exact .of_error hsame h

end

end StellarForge.Server
