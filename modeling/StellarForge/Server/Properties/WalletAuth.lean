import Mathlib.Data.List.Infix
import StellarForge.Server.Properties.PendingChallenge
import StellarForge.Transition.Run

/-!
# Soundness of the wallet authentication

Requests to the challenge route, one after the other; any operation of any of them may fail.  The
cryptography is idealized by two hypotheses: `Unguessable`, a signature verifies over a drawn value
only after that was handed out, and `Unforgeable`, a token with a valid MAC has the header and the
payload of an issued one.

* `walletAuth_sound`: **an accepted token was issued** at most 5 minutes ago, to a `POST` with a
  signature over the challenge last issued for its address; and no two tokens redeem one challenge.
-/

namespace StellarForge.Server

open Collections Concurrency Process Transition

/-- A request with its response, from its arrival to its end. -/
structure Handled where
  request : ChallengeRequest
  arrival : ℕ
  finished : ℕ
  response : ChallengeResponse
  deriving DecidableEq, Repr

/-- The challenge that the request was answered with, for the address. -/
def Handled.issued? (e : Handled) (address : String) : Option String :=
  match e.request, e.response.body with
  | .get (some a) _, .challenge c => if a = address then some c else none
  | _, _ => none

/-- The address and the token that the request was answered with. -/
def Handled.token? (e : Handled) : Option (String × Token) :=
  match e.request, e.response.body with
  | .post (some a) _, .token token => some (a, token)
  | _, _ => none

/-- One request after the other. -/
def Handle (env : Deployment) (crypto : Crypto) (cidOf : PinataRequest → String)
    (w : ServerWorld) (e : Handled) (w' : ServerWorld) : Prop :=
  w.clock ≤ e.arrival ∧
    Runs (Answers True cidOf) (challengeRoute env crypto e.request) { w with clock := e.arrival }
      e.response w' ∧
    w'.clock = e.finished

/-- The challenge most recently issued for the address, with the end of the request that was answered
with it. -/
def lastIssued (address : String) (h : List Handled) : Option (String × ℕ) :=
  h.findSome? fun e => (e.issued? address).map (·, e.finished)

/-- The challenges that the tokens of the history redeem: for each token the challenge most recently
issued for its address. -/
def redeemed : List Handled → List (Option String)
  | [] => []
  | e :: h =>
    match e.token? with
    | some (a, _) => (lastIssued a h).map Prod.fst :: redeemed h
    | none => redeemed h

/-- A drawn value is known from the answer to a `GET` only: a signature that was posted verifies over
it only if it had been handed out. -/
def Unguessable (crypto : Crypto) (drawn : List String) (h : List Handled) : Prop :=
  ∀ e h₁ a s, e :: h₁ <:+ h → e.request = .post (some a) (some s) →
    ∀ v ∈ drawn, crypto.verifySignature a v s = true → ∃ e' ∈ h₁, ∃ a', e'.issued? a' = some v

/-- Only the server makes valid MACs. -/
def Unforgeable (env : Deployment) (crypto : Crypto) (h : List Handled) (token : Token) : Prop :=
  ∀ secret header payload signature, env.jwtSecret = some secret →
    token = [header, payload, signature] → MacValid crypto secret header payload signature →
    ∃ e ∈ h, ∃ a signature', e.token? = some (a, [header, payload, signature'])

/-- After the history `h`, the request is a `POST` with the address's signature over the challenge most
recently issued for it, at most `CHALLENGE_TTL_MS` old, and it is answered with the token, issued for
the address at the time `τ`. -/
def Redeems (env : Deployment) (crypto : Crypto) (h : List Handled) (e : Handled) (address : String)
    (token : Token) (τ : ℕ) : Prop :=
  ∃ signature c at', e.request = .post (some address) (some signature) ∧
    e.response.body = .token token ∧ lastIssued address h = some (c, at') ∧
    e.arrival ≤ at' + CHALLENGE_TTL_MS ∧ crypto.verifySignature address c signature = true ∧
    τ ≤ e.finished ∧ issueToken env crypto τ address TOKEN_EXPIRES_IN = .ok token

section

variable {env : Deployment} {crypto : Crypto} {cidOf : PinataRequest → String}
  {w w' w₀ : ServerWorld} {h h₁ : List Handled} {e : Handled} {a a' address c v : String} {t : ℕ}

/-! ### What the history says -/

/-- The value was handed out. -/
def Known (v : String) (h : List Handled) : Prop := ∃ e ∈ h, ∃ a, e.issued? a = some v

/-- The exchanges that issue a challenge. -/
theorem issued?_eq_some : e.issued? address = some c ↔
    (∃ ip, e.request = .get (some address) ip) ∧ e.response.body = .challenge c := by
  rw [Handled.issued?]
  constructor
  · intro hi
    split at hi
    · next a ip c' hreq hbody =>
      split_ifs at hi with ha
      subst ha
      obtain rfl := Option.some.inj hi
      exact ⟨⟨ip, hreq⟩, hbody⟩
    · cases hi
  · rintro ⟨⟨ip, hreq⟩, hbody⟩
    simp only [hreq, hbody, if_true]

/-- The exchanges that issue a token. -/
theorem token?_eq_some {token : Token} : e.token? = some (address, token) ↔
    (∃ s, e.request = .post (some address) s) ∧ e.response.body = .token token := by
  rw [Handled.token?]
  constructor
  · intro hi
    split at hi
    · next a s token' hreq hbody =>
      obtain ⟨rfl, rfl⟩ := Prod.mk.inj (Option.some.inj hi)
      exact ⟨⟨s, hreq⟩, hbody⟩
    · cases hi
  · rintro ⟨⟨s, hreq⟩, hbody⟩
    simp only [hreq, hbody]

theorem lastIssued_cons_none (he : e.issued? address = none) :
    lastIssued address (e :: h) = lastIssued address h := by
  rw [lastIssued, List.findSome?_cons, he]
  rfl

theorem lastIssued_cons_some (he : e.issued? address = some c) :
    lastIssued address (e :: h) = some (c, e.finished) := by
  rw [lastIssued, List.findSome?_cons, he]
  rfl

theorem known_of_lastIssued {at' : ℕ} (hl : lastIssued address h = some (c, at')) : Known c h := by
  obtain ⟨e, he, hc⟩ := List.exists_of_findSome?_eq_some hl
  obtain ⟨c', hc', heq⟩ := Option.map_eq_some_iff.mp hc
  obtain ⟨rfl, -⟩ := Prod.mk.inj heq
  exact ⟨e, he, address, hc'⟩

theorem redeemed_cons_none (he : e.token? = none) : redeemed (e :: h) = redeemed h := by
  rw [redeemed, he]

/-- A challenge that was redeemed had been issued. -/
theorem known_of_mem_redeemed (hv : some v ∈ redeemed h) : Known v h := by
  induction h with
  | nil => cases hv
  | cons e h ih =>
    have htail : Known v h → Known v (e :: h) := by
      rintro ⟨e', he', hk⟩
      exact ⟨e', List.mem_cons_of_mem _ he', hk⟩
    rw [redeemed] at hv
    split at hv
    · rcases List.mem_cons.mp hv with heq | hv
      · obtain ⟨⟨c, at'⟩, hl, rfl⟩ := Option.map_eq_some_iff.mp heq.symm
        exact htail (known_of_lastIssued hl)
      · exact htail (ih hv)
    · exact htail (ih hv)

/-! ### The invariant -/

/-- What is known of the pending challenges after the history `h`. -/
structure Tracked (env : Deployment) (w : ServerWorld) (h : List Handled) : Prop where
  drawn : ∀ {v}, Known v h → v ∈ w.store.drawn
  /-- A value is handed out for one address only. -/
  unique : ∀ {e e' a a' v}, e ∈ h → e' ∈ h → e.issued? a = some v → e'.issued? a' = some v → a = a'
  pending : ∀ {a t c}, pending env w a t = some c → c ∈ w.store.drawn ∧ some c ∉ redeemed h ∧
    (Known c h → ∃ at', lastIssued a h = some (c, at') ∧ t ≤ at' + CHALLENGE_TTL_MS)
  nodup : (redeemed h).Nodup

theorem known_cons : Known v (e :: h) ↔ (∃ a, e.issued? a = some v) ∨ Known v h := by
  simp only [Known, List.mem_cons, exists_eq_or_imp]

/-- A challenge was issued to one address. -/
theorem unique_of_lastIssued {at' at'' : ℕ} (hw : Tracked env w h)
    (hl : lastIssued a h = some (c, at')) (hl' : lastIssued a' h = some (c, at'')) : a = a' := by
  obtain ⟨e, he, hc⟩ := List.exists_of_findSome?_eq_some hl
  obtain ⟨e', he', hc'⟩ := List.exists_of_findSome?_eq_some hl'
  obtain ⟨_, hi, heq⟩ := Option.map_eq_some_iff.mp hc
  obtain ⟨_, hi', heq'⟩ := Option.map_eq_some_iff.mp hc'
  obtain ⟨rfl, -⟩ := Prod.mk.inj heq
  obtain ⟨rfl, -⟩ := Prod.mk.inj heq'
  exact hw.unique he he' hi hi'

/-- A request that is answered with neither a challenge nor a token, and may have drawn values. -/
theorem Tracked.of_fades (hw : Tracked env w h) (hi : ∀ a, e.issued? a = none) (ht : e.token? = none)
    (hdrawn : ∀ v ∈ w.store.drawn, v ∈ w'.store.drawn)
    (hpending : ∀ {a t c}, Server.pending env w' a t = some c → Server.pending env w a t = some c) :
    Tracked env w' (e :: h) := by
  -- the event neither issues nor redeems, so what is known was known before
  have hknown : ∀ {v}, Known v (e :: h) → Known v h := by
    intro v hv
    rcases known_cons.mp hv with ⟨a, ha⟩ | hv
    · rw [hi] at ha
      cases ha
    · exact hv
  have hold : ∀ {e' a v}, e' ∈ e :: h → e'.issued? a = some v → e' ∈ h := by
    intro e' a v he' hv
    rcases List.mem_cons.mp he' with rfl | he'
    · rw [hi] at hv
      cases hv
    · exact he'
  refine ⟨fun hv => hdrawn _ (hw.drawn (hknown hv)), fun he he' hv hv' => ?_, fun {a t c} hc => ?_, ?_⟩
  · exact hw.unique (hold he hv) (hold he' hv') hv hv'
  · obtain ⟨hd, hr, hk⟩ := hw.pending (hpending hc)
    refine ⟨hdrawn _ hd, ?_, fun hkc => ?_⟩
    · rwa [redeemed_cons_none ht]
    · rw [lastIssued_cons_none (hi a)]
      exact hk (hknown hkc)
  · rw [redeemed_cons_none ht]
    exact hw.nodup

/-- **A `GET` keeps the invariant**: a fresh value takes the place of what is pending. -/
theorem Tracked.get {address : Option String} {r : ChallengeResponse} {ip : String}
    {arrival finished : ℕ} (hw : Tracked env w h) (hg : GetOutcome env address w r w')
    (hfresh : w'.store.drawn.Nodup)
    (hend : w'.clock = finished) :
    Tracked env w' (⟨.get address ip, arrival, finished, r⟩ :: h) := by
  have ht : Handled.token? ⟨.get address ip, arrival, finished, r⟩ = none := rfl
  have hnone : (∀ c, r.body ≠ .challenge c) → ∀ a,
      Handled.issued? ⟨.get address ip, arrival, finished, r⟩ a = none := by
    intro hr a
    rcases hi : Handled.issued? ⟨.get address ip, arrival, finished, r⟩ a with _ | c
    · rfl
    · exact (hr c (issued?_eq_some.mp hi).2).elim
  cases hg with
  | refused hr hf => exact hw.of_fades (hnone hr) ht (fun v hv => hf.drawn ▸ hv) hf.pending
  | @failed value hr hf =>
    refine hw.of_fades (hnone hr) ht (fun v hv => ?_) hf.pending
    rw [hf.drawn]
    exact List.mem_cons_of_mem _ hv
  | @stored a value T ha hr hf =>
    subst ha
    have hdrawn : w'.store.drawn = value :: w.store.drawn := hf.drawn
    rw [hdrawn] at hfresh
    have hnew : value ∉ w.store.drawn := (List.nodup_cons.mp hfresh).1
    have hunknown : ¬ Known value h := fun hk => hnew (hw.drawn hk)
    -- whoever is answered with a challenge is answered with the new value, for this address
    have hissued : ∀ {a' v},
        Handled.issued? ⟨.get (some a) ip, arrival, finished, r⟩ a' = some v → v = value ∧ a' = a := by
      intro a' v hi
      obtain ⟨⟨ip', hreq⟩, hbody⟩ := issued?_eq_some.mp hi
      injection hreq with ha' _
      exact ⟨hr v hbody, (Option.some.inj ha').symm⟩
    refine ⟨fun {v} hv => ?_, fun {e e' b b' v} he he' hv hv' => ?_, fun {b t c} hc => ?_, ?_⟩
    · rw [hdrawn]
      rcases known_cons.mp hv with ⟨a', ha'⟩ | hv
      · obtain ⟨rfl, -⟩ := hissued ha'
        exact List.mem_cons_self ..
      · exact List.mem_cons_of_mem _ (hw.drawn hv)
    · rcases List.mem_cons.mp he with rfl | he <;> rcases List.mem_cons.mp he' with rfl | he'
      · rw [(hissued hv).2, (hissued hv').2]
      · obtain ⟨rfl, -⟩ := hissued hv
        exact (hunknown ⟨e', he', b', hv'⟩).elim
      · obtain ⟨rfl, -⟩ := hissued hv'
        exact (hunknown ⟨e, he, b, hv⟩).elim
      · exact hw.unique he he' hv hv'
    · rw [hdrawn, redeemed_cons_none ht]
      by_cases hb : b = a
      · subst hb
        obtain ⟨rfl, hT⟩ := hf.pending_self hc
        refine ⟨List.mem_cons_self .., fun hmem => hunknown (known_of_mem_redeemed hmem), fun hk => ?_⟩
        rcases known_cons.mp hk with ⟨a', ha'⟩ | hk
        · obtain ⟨-, rfl⟩ := hissued ha'
          refine ⟨finished, lastIssued_cons_some ha', ?_⟩
          have := hf.time_le
          omega
        · exact (hunknown hk).elim
      · obtain ⟨hd, hr', hk⟩ := hw.pending (hf.pending_ne hb hc)
        refine ⟨List.mem_cons_of_mem _ hd, hr', fun hkc => ?_⟩
        have hi : Handled.issued? ⟨.get (some a) ip, arrival, finished, r⟩ b = none := by
          rcases hi : Handled.issued? ⟨.get (some a) ip, arrival, finished, r⟩ b with _ | c'
          · rfl
          · exact (hb (hissued hi).2).elim
        rw [lastIssued_cons_none hi]
        rcases known_cons.mp hkc with ⟨a', ha'⟩ | hkc
        · obtain ⟨rfl, -⟩ := hissued ha'
          exact (hnew hd).elim
        · exact hk hkc
    · rw [redeemed_cons_none ht]
      exact hw.nodup

/-- A token that a `POST` was answered with redeems the challenge most recently issued. -/
theorem Tracked.redeems {address signature : Option String} {r : ChallengeResponse} {finished : ℕ}
    (hw : Tracked env w h) (hp : PostOutcome env crypto address signature w r w')
    (hguess : ∀ a s, address = some a → signature = some s → ∀ v ∈ w.store.drawn,
      crypto.verifySignature a v s = true → Known v h) (hend : w'.clock = finished)
    {token : Token} (htoken : r.body = .token token) :
    ∃ a c at', address = some a ∧ lastIssued a h = some (c, at') ∧ some c ∉ redeemed h ∧
      (∀ t, Server.pending env w' a t = none) ∧
      ∃ τ, Redeems env crypto h ⟨.post address signature, w.clock, finished, r⟩ a token τ := by
  obtain ⟨a, ha, s, hs, c, T, τ, hred⟩ := hp.redemption token htoken
  obtain ⟨hd, hnot, hissued⟩ := hw.pending hred.pending
  -- nobody signs a value that was not handed out
  obtain ⟨at', hlast, hT⟩ := hissued (hguess a s ha hs c hd hred.verified)
  obtain rfl := Option.mem_def.mp ha
  obtain rfl := Option.mem_def.mp hs
  refine ⟨a, c, at', rfl, hlast, hnot, hred.consumed, τ, s, c, at', rfl, htoken, hlast, ?_,
    hred.verified, hend ▸ hred.le_end, hred.issued⟩
  exact Nat.le_trans hred.le_read hT

/-- **A `POST` keeps the invariant.** -/
theorem Tracked.post {address signature : Option String} {r : ChallengeResponse} {finished : ℕ}
    (hw : Tracked env w h) (hp : PostOutcome env crypto address signature w r w')
    (hguess : ∀ a s, address = some a → signature = some s → ∀ v ∈ w.store.drawn,
      crypto.verifySignature a v s = true → Known v h) (hend : w'.clock = finished) :
    Tracked env w' (⟨.post address signature, w.clock, finished, r⟩ :: h) := by
  have hi : ∀ a, Handled.issued? ⟨.post address signature, w.clock, finished, r⟩ a = none := by
    intro a
    rcases hi : Handled.issued? ⟨.post address signature, w.clock, finished, r⟩ a with _ | c
    · rfl
    · obtain ⟨⟨ip, hreq⟩, -⟩ := issued?_eq_some.mp hi
      cases hreq
  have hdrawn : ∀ v ∈ w.store.drawn, v ∈ w'.store.drawn := fun v hv => hp.fades.drawn ▸ hv
  rcases ht : Handled.token? ⟨.post address signature, w.clock, finished, r⟩ with _ | ⟨a, token⟩
  · exact hw.of_fades hi ht hdrawn hp.fades.pending
  · obtain ⟨⟨s, hreq⟩, hbody⟩ := token?_eq_some.mp ht
    obtain ⟨a', c, at', ha', hlast, hnot, hgone, -⟩ := hw.redeems hp hguess hend hbody
    injection hreq with ha hs
    obtain rfl : a' = a := Option.some.inj (ha'.symm.trans ha)
    have hredeemed : redeemed (⟨.post address signature, w.clock, finished, r⟩ :: h) =
        some c :: redeemed h := by
      rw [redeemed, ht]
      simp only [hlast, Option.map_some]
    have hknown : ∀ {v}, Known v (⟨.post address signature, w.clock, finished, r⟩ :: h) →
        Known v h := by
      intro v hv
      rcases known_cons.mp hv with ⟨b, hb⟩ | hv
      · rw [hi] at hb
        cases hb
      · exact hv
    have hold : ∀ {e : Handled} {b v}, e ∈ ⟨.post address signature, w.clock, finished, r⟩ :: h →
        e.issued? b = some v → e ∈ h := by
      intro e b v he hv
      rcases List.mem_cons.mp he with rfl | he
      · rw [hi] at hv
        cases hv
      · exact he
    refine ⟨fun hv => hdrawn _ (hw.drawn (hknown hv)),
      fun he he' hv hv' => hw.unique (hold he hv) (hold he' hv') hv hv', fun {b t c'} hc => ?_, ?_⟩
    · have hb : b ≠ a' := by
        rintro rfl
        rw [hgone] at hc
        cases hc
      obtain ⟨hd, hnot', hk⟩ := hw.pending (hp.fades.pending hc)
      rw [hredeemed, lastIssued_cons_none (hi b)]
      refine ⟨hdrawn _ hd, fun hmem => ?_, fun hkc => hk (hknown hkc)⟩
      rcases List.mem_cons.mp hmem with heq | hmem
      · -- the redeemed value was issued for one address only
        obtain rfl := Option.some.inj heq
        obtain ⟨at'', hlast', -⟩ := hk (known_of_lastIssued hlast)
        exact hb (unique_of_lastIssued hw hlast' hlast)
      · exact hnot' hmem
    · rw [hredeemed]
      exact List.nodup_cons.mpr ⟨hnot, hw.nodup⟩

/-! ### Runs -/

theorem Tracked.at_clock (hw : Tracked env w h) : Tracked env { w with clock := t } h :=
  ⟨hw.drawn, hw.unique, hw.pending, hw.nodup⟩

theorem suffix_of_handle (hs : Handle env crypto cidOf w e w') : w.store.drawn <:+ w'.store.drawn := by
  obtain ⟨-, hr, -⟩ := hs
  rcases hreq : e.request with ⟨address, ip⟩ | ⟨address, signature⟩ | _ <;> rw [hreq] at hr
  · cases (runs_get hr).1 with
    | refused _ hf => exact hf.drawn ▸ List.suffix_refl _
    | failed _ hf => exact hf.drawn ▸ List.suffix_cons ..
    | stored _ _ hf => exact hf.drawn ▸ List.suffix_cons ..
  · exact (runs_post hr).fades.drawn ▸ List.suffix_refl _
  · obtain ⟨-, h⟩ := runs_done.mp hr
    obtain ⟨t, -, rfl⟩ := h
    exact List.suffix_refl _

theorem Unguessable.tail {drawn drawn' : List String} (hg : Unguessable crypto drawn' (e :: h))
    (hd : drawn <:+ drawn') : Unguessable crypto drawn h :=
  fun e' h₁ a s hsuffix hreq v hv =>
    hg e' h₁ a s (hsuffix.trans (List.suffix_cons ..)) hreq v (hd.subset hv)

/-- **The run lemma**: the invariant, and every token redeems a challenge. -/
theorem tracked_of_run (hr : Run (Handle env crypto cidOf) w₀ h w)
    (hstart : ∀ a t, pending env w₀ a t = none) (hfresh : w.store.drawn.Nodup)
    (hguess : Unguessable crypto w.store.drawn h) :
    Tracked env w h ∧ ∀ e h₁ a token, e :: h₁ <:+ h → e.token? = some (a, token) →
      ∃ c at' τ, lastIssued a h₁ = some (c, at') ∧ Redeems env crypto h₁ e a token τ := by
  induction hr with
  | nil =>
    constructor
    · constructor
      · rintro v ⟨e, he, -⟩
        cases he
      · intro e e' a a' v he
        cases he
      · intro a t c hc
        rw [hstart] at hc
        cases hc
      · exact List.nodup_nil
    · intro e h₁ a token hsuffix
      exact (List.cons_ne_nil _ _ (List.suffix_nil.mp hsuffix)).elim
  | @snoc h e w w' hr hs ih =>
    have hsuffix := suffix_of_handle hs
    obtain ⟨hw, hearlier⟩ := ih (hfresh.sublist hsuffix.sublist) (hguess.tail hsuffix)
    obtain ⟨request, arrival, finished, r⟩ := e
    obtain ⟨-, hrun, hend⟩ := hs
    -- one case per kind of request
    rcases request with ⟨address, ip⟩ | ⟨address, signature⟩ | _
    · refine ⟨hw.at_clock.get (runs_get hrun).1 hfresh hend, fun e h₁ a token hmem htoken => ?_⟩
      rcases List.suffix_cons_iff.mp hmem with heq | hmem
      · obtain ⟨rfl, rfl⟩ := List.cons.inj heq
        obtain ⟨⟨s, hreq⟩, -⟩ := token?_eq_some.mp htoken
        cases hreq
      · exact hearlier e h₁ a token hmem htoken
    · have hg : ∀ a s, address = some a → signature = some s → ∀ v ∈ w.store.drawn,
          crypto.verifySignature a v s = true → Known v h := by
        rintro a s rfl rfl v hv hverify
        exact hguess _ h a s (List.suffix_refl _) rfl v (hsuffix.subset hv) hverify
      have hpost := runs_post hrun
      refine ⟨hw.at_clock.post hpost hg hend, fun e h₁ a token hmem htoken => ?_⟩
      rcases List.suffix_cons_iff.mp hmem with heq | hmem
      · obtain ⟨rfl, rfl⟩ := List.cons.inj heq
        obtain ⟨⟨s, hreq⟩, hbody⟩ := token?_eq_some.mp htoken
        obtain ⟨a', c, at', ha', hlast, -, -, τ, hredeems⟩ := hw.at_clock.redeems hpost hg hend hbody
        injection hreq with ha hs
        obtain rfl : a' = a := Option.some.inj (ha'.symm.trans ha)
        exact ⟨c, at', τ, hlast, hredeems⟩
      · exact hearlier e h₁ a token hmem htoken
    · obtain ⟨rfl, helapse⟩ := runs_done.mp hrun
      have hfades : Fades env { w with clock := arrival } w' := .of_elapse helapse
      refine ⟨hw.of_fades (fun a => rfl) rfl (fun v hv => hsuffix.subset hv) hfades.pending,
        fun e h₁ a token hmem htoken => ?_⟩
      rcases List.suffix_cons_iff.mp hmem with heq | hmem
      · obtain ⟨rfl, rfl⟩ := List.cons.inj heq
        cases htoken
      · exact hearlier e h₁ a token hmem htoken

theorem none_notMem_redeemed
    (hall : ∀ e h₁ a token, e :: h₁ <:+ h → e.token? = some (a, token) →
      (lastIssued a h₁).isSome) : none ∉ redeemed h := by
  induction h with
  | nil => exact List.not_mem_nil
  | cons e h ih =>
    have htail := ih fun e h₁ a token hs => hall e h₁ a token (hs.trans (List.suffix_cons ..))
    rcases ht : e.token? with _ | ⟨a, token⟩
    · rwa [redeemed_cons_none ht]
    · have hsome := hall e h a token (List.suffix_refl _) ht
      rw [redeemed, ht]
      intro hmem
      rcases List.mem_cons.mp hmem with hnone | hmem
      · rw [Option.map_eq_none_iff.mp hnone.symm] at hsome
        cases hsome
      · exact htail hmem

/-- **Soundness of the wallet authentication.**  A token that is accepted at the time `t` has the
header and the payload of one that a `POST` was answered with, at most 5 minutes before `t`, the last
second included, for the address's signature over the challenge most recently issued for it; and no
challenge is redeemed by more than one token. -/
theorem walletAuth_sound (hr : Run (Handle env crypto cidOf) w₀ h w)
    (hstart : ∀ a t, pending env w₀ a t = none) (hfresh : w.store.drawn.Nodup)
    (hguess : Unguessable crypto w.store.drawn h) :
    (∀ t token p, Unforgeable env crypto h token → verifyToken env crypto t token = .ok p →
      ∃ e h₁ token' τ, e :: h₁ <:+ h ∧ Redeems env crypto h₁ e p.address token' τ ∧
        token'.take 2 = token.take 2 ∧ t / 1000 ≤ τ / 1000 + 300 ∧
        t / 1000 ≤ e.finished / 1000 + 300) ∧
      (redeemed h).Nodup ∧ none ∉ redeemed h := by
  obtain ⟨hw, hall⟩ := tracked_of_run hr hstart hfresh hguess
  refine ⟨fun t token p hforge hverify => ?_, hw.nodup, none_notMem_redeemed ?_⟩
  · obtain ⟨secret, hsecret, header, payload, signature, rfl, hmac, hdecode, hexp⟩ :=
      verifyToken_eq_ok.mp hverify
    obtain ⟨e, he, a, signature', htoken⟩ :=
      hforge secret header payload signature (Deployment.mem_signingSecret?.mp hsecret).1 rfl hmac
    obtain ⟨h₂, h₁, rfl⟩ := List.append_of_mem he
    have hsuffix : e :: h₁ <:+ h₂ ++ e :: h₁ := List.suffix_append ..
    obtain ⟨c, at', τ, -, hredeems⟩ := hall e h₁ a _ hsuffix htoken
    obtain ⟨s, c', at'', hreq, hbody, hlast, hat, hverified, hτ, hissue⟩ := id hredeems
    -- the payload is the one the server encoded
    obtain ⟨secret', -, hparts⟩ := issueToken_eq_ok.mp hissue
    have hpayload : payload = crypto.encodePayload ⟨a, τ / 1000, τ / 1000 + TOKEN_EXPIRES_IN / 1000⟩ := by
      simp only [List.cons.injEq] at hparts
      exact hparts.2.1
    rw [hpayload, crypto.decodePayload_encodePayload] at hdecode
    obtain rfl := Except.ok.inj hdecode
    have hexp : t / 1000 ≤ τ / 1000 + 300 := hexp
    refine ⟨e, h₁, _, τ, hsuffix, hredeems, rfl, hexp, ?_⟩
    have : τ / 1000 ≤ e.finished / 1000 := Nat.div_le_div_right hτ
    omega
  · intro e h₁ a token hsuffix htoken
    obtain ⟨c, at', τ, hlast, -⟩ := hall e h₁ a token hsuffix htoken
    rw [hlast]
    rfl

end

/-! ### A login -/

/-- The history of a login, latest first. -/
def sampleHistory (token : Token) : List Handled :=
  [⟨.post (some "GALICE") (some "GALICE:c1"), 0, 0, ⟨200, .token token⟩⟩,
    ⟨.get (some "GALICE") "10.0.0.1", 0, 0, ⟨200, .challenge "c1"⟩⟩]

theorem run_sampleHistory {token : Token}
    (htoken : issueToken sampleDeployment plainCrypto 0 "GALICE" TOKEN_EXPIRES_IN = .ok token) :
    ∃ w, w.store.drawn = ["c1"] ∧
      Run (Handle sampleDeployment plainCrypto fun _ => "") ⟨0, {}, {}⟩ (sampleHistory token) w := by
  have hanswer : ∀ w : ServerWorld, w.clock = 0 →
      Runs (Answers True fun _ => "") (answerToken sampleDeployment plainCrypto "GALICE") w
        ⟨200, .token token⟩ w := by
    intro w hw
    have hissue : .ok token =
        issueToken sampleDeployment plainCrypto w.clock "GALICE" TOKEN_EXPIRES_IN := by
      rw [hw, htoken]
    exact runs_bind.mpr ⟨.ok token, w, runs_atOnce.mpr ⟨w, .refl w, hissue, .refl w⟩, .done (.refl w)⟩
  exact ⟨_, rfl, .snoc (.snoc .nil ⟨Nat.le_refl _, .sync (.refl _) (.perform (.refl _)
      ⟨rfl, .inl rfl⟩ (.perform (.refl _) (.inl ⟨rfl, rfl⟩) (.perform (.refl _) ⟨rfl, .inl rfl⟩
        (.perform (.refl _) (.inl ⟨rfl, rfl⟩) (.perform (.refl _) ⟨by decide, rfl⟩
          (.perform (.refl _) (.inl ⟨rfl, rfl⟩) (.done (.refl _)))))))), rfl⟩)
    ⟨Nat.le_refl _, .sync (.refl _) (.perform (.refl _) ⟨rfl, .inl rfl⟩
      (.perform (.refl _) (.inl ⟨rfl, rfl⟩) (.perform (.refl _) ⟨rfl, .inl rfl⟩
        (.perform (.refl _) (.inl ⟨rfl, rfl⟩) (.perform (.refl _) ⟨rfl, .inl rfl⟩
          (.perform (.refl _) (.inl ⟨rfl, rfl⟩) (hanswer _ rfl))))))), rfl⟩⟩

/-- The wallet of the sample has signed its challenge. -/
theorem walletAuth_sound_sampleHistory : ∃ token e h₁ token' τ,
    verifyToken sampleDeployment plainCrypto 300999 token = .ok ⟨"GALICE", 0, 300⟩ ∧
      e :: h₁ <:+ sampleHistory token ∧
      Redeems sampleDeployment plainCrypto h₁ e "GALICE" token' τ ∧ 300999 / 1000 ≤ τ / 1000 + 300 ∧
      (redeemed (sampleHistory token)).Nodup := by
  obtain ⟨token, htoken⟩ : ∃ token,
      issueToken sampleDeployment plainCrypto 0 "GALICE" TOKEN_EXPIRES_IN = .ok token := ⟨_, rfl⟩
  obtain ⟨w, hdrawn, hr⟩ := run_sampleHistory htoken
  have hverify : verifyToken sampleDeployment plainCrypto 300999 token = .ok ⟨"GALICE", 0, 300⟩ :=
    verifyToken_issueToken htoken (by decide)
  have hfresh : w.store.drawn.Nodup := by
    rw [hdrawn]
    decide
  have hguess : Unguessable plainCrypto w.store.drawn (sampleHistory token) := by
    intro e h₁ a s hsuffix hreq v hv _
    rw [hdrawn, List.mem_singleton] at hv
    subst hv
    rcases List.suffix_cons_iff.mp hsuffix with heq | hsuffix
    · -- the POST comes after the GET
      obtain ⟨-, rfl⟩ := List.cons.inj heq
      exact ⟨_, List.mem_singleton_self _, "GALICE", rfl⟩
    · rcases List.suffix_cons_iff.mp hsuffix with heq | hsuffix
      · obtain ⟨rfl, -⟩ := List.cons.inj heq
        cases hreq
      · exact (List.cons_ne_nil _ _ (List.suffix_nil.mp hsuffix)).elim
  have hforge : Unforgeable sampleDeployment plainCrypto (sampleHistory token) token := by
    rintro secret header payload signature - rfl -
    exact ⟨_, List.mem_cons_self .., "GALICE", signature, rfl⟩
  obtain ⟨hall, hnodup, -⟩ := walletAuth_sound hr (fun a t => rfl) hfresh hguess
  obtain ⟨e, h₁, token', τ, hsuffix, hredeems, -, hτ, -⟩ := hall 300999 token _ hforge hverify
  exact ⟨token, e, h₁, token', τ, hverify, hsuffix, hredeems, hτ, hnodup⟩

end StellarForge.Server
