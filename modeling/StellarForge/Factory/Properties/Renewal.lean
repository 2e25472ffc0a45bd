import StellarForge.Factory.Lifetimes
import StellarForge.Factory.Properties.Creation

/-!
# Entries are renewed on access

What a call has read or written, and is still there, should have `MIN_TTL` ledgers left when the call
ends.  This is so of every entry but two: the whitelist entry that a creation looks up, and the
entry that `backfill_token_address` finds in place.

* `renewed_iff_readsFresh`: a call renews what it has accessed if and only if such an entry has enough
  ledgers left already;
* `renewedThroughout_iff`: **the runs in which every call renews what it accesses**;
* `not_renewed_sampleCreation`: a creation that leaves the creator's whitelist entry to expire.
-/

namespace StellarForge.Factory

open Soroban Contract Transition

/-! ### The property -/

/-- The call is a view. -/
def Call.isView : Call → Bool
  | .view _ => true
  | _ => false

/-- What the call has read or written, and is still there, has `MIN_TTL` ledgers left; a view leaves
the storage alone. -/
def Renewed (i : Invocation) (w w' : World) : Prop :=
  if i.call.isView then w'.storage = w.storage
  else ∀ k, Accesses (entryPart k) i.call.exec i.env w → Fresh i.env ((entryPart k).get w')

/-! ### The condition -/

/-- Only listed addresses may create tokens. -/
def World.enforcesWhitelist (w : World) : Bool := w.state?.any (·.whitelistEnabled)

/-- The entry that a call looks at without extending it. -/
def Call.bareRead (w : World) : Call → Option DataKey
  | .createToken creator _ _ => if w.enforcesWhitelist then some (.whitelist creator) else none
  | .createTokensBatch creator _ _ =>
    if w.enforcesWhitelist then some (.whitelist creator) else none
  | .backfillTokenAddress token => (w.storage.lookup (.tokenIndex token)).map .tokenAddress
  | _ => none

/-- That entry has `MIN_TTL` ledgers left already, if it exists. -/
def ReadsFresh (i : Invocation) (w : World) : Prop :=
  ∀ k, i.call.bareRead w = some k → Fresh i.env ((entryPart k).get w)

variable {may : Prop} {k : DataKey} {G : Env → Entry k → Prop} {env : Env} {w w' : World}
  {st : FactoryState} {creator token : Address} {p : BatchTokenParams} {feePayment : ℤ}
  {α : Type} {x : ContractM α} {a : α} {i : Invocation}

/-! ### The check of the whitelist -/

theorem tracks_requireWhitelisted (h : .whitelist creator ≠ k) :
    Tracks may k G (requireWhitelisted st creator) := by
  have hread : @Tracks may k G (no_index (Option (DataKey.whitelist creator).Val))
      (readAddrKeyed (.whitelist creator)) := by
    refine .read (fun w => inferInstance) fun i w => ?_
    rw [lookup_put_of_ne h]
  unfold requireWhitelisted whitelistContains
  infer_instance

/-- What is otherwise accessed is accounted for, and the creator passes the check of the whitelist. -/
structure Gated (creator : Address) (x : ContractM α) : Prop where
  accountsAt : ∀ {may k G} [CreationKeys may k G] {env w}, env.Detached →
    (∀ st, w.state? = some st → AccountsAt (entryPart k) may G (requireWhitelisted st creator) env w) →
    AccountsAt (entryPart k) may G x env w
  listed : ∀ {env w a w' st}, x.Returns env w a w' → w.state? = some st → Listed w creator st

/-- `create_token` is gated by the check of the whitelist. -/
theorem gated_createToken : Gated creator (createToken creator p feePayment) where
  accountsAt {may k G _ env w} he hlist := by
    unfold createToken
    -- the five checks before the whitelist read no entry that can expire
    refine (Accounts.accountsAt he).bind fun _ _ hpaused => ?_
    refine (Accounts.accountsAt he).bind fun _ _ hauth => ?_
    refine (Accounts.accountsAt he).bind fun st _ hload => ?_
    refine (Accounts.accountsAt he).bind fun _ _ hvalid => ?_
    refine (Accounts.accountsAt he).bind fun _ _ hfee => ?_
    rw [returns_requireNotPaused] at hpaused
    rw [returns_requireAuth] at hauth
    rw [returns_loadUnlockedState] at hload
    rw [returns_validateTokenParams] at hvalid
    rw [returns_throwIf] at hfee
    obtain ⟨-, rfl⟩ := hpaused
    obtain ⟨-, rfl⟩ := hauth
    obtain ⟨hst, -, rfl⟩ := hload
    obtain ⟨-, rfl⟩ := hvalid
    obtain ⟨-, rfl⟩ := hfee
    -- past the whitelist every read is an access that renews
    refine (hlist st hst).bind fun _ _ _ => ?_
    refine (Accounts.accountsAt he).bind fun _ _ _ => ?_
    refine (Accounts.accountsAt he).bind fun _ _ _ => ?_
    refine (Accounts.accountsAt he).bind fun o _ _ => ?_
    rcases o with e | ⟨address, st⟩
    · exact Accounts.accountsAt he
    · exact Accounts.accountsAt he
  listed h hst := by
    obtain ⟨st', _, _, _, hgates, -, hlisted, -⟩ := returns_createToken h
    obtain rfl := Option.some.inj (hgates.state.symm.trans hst)
    exact hlisted

/-- So is `create_tokens_batch`. -/
theorem gated_createTokensBatch {tokens : List BatchTokenParams} :
    Gated creator (createTokensBatch creator tokens feePayment) where
  accountsAt {may k G _ env w} he hlist := by
    unfold createTokensBatch
    -- nine checks before the whitelist, none of which reads an entry that can expire
    refine (Accounts.accountsAt he).bind fun _ _ hpaused => ?_
    refine (Accounts.accountsAt he).bind fun _ _ hauth => ?_
    refine (Accounts.accountsAt he).bind fun st _ hload => ?_
    refine (Accounts.accountsAt he).bind fun _ _ hempty => ?_
    refine (Accounts.accountsAt he).bind fun _ _ hlarge => ?_
    refine (Accounts.accountsAt he).bind fun _ _ hvalid => ?_
    refine (Accounts.accountsAt he).bind fun _ _ hroom => ?_
    refine (Accounts.accountsAt he).bind fun _ _ htotal => ?_
    refine (Accounts.accountsAt he).bind fun _ _ hfee => ?_
    rw [returns_requireNotPaused] at hpaused
    rw [returns_requireAuth] at hauth
    rw [returns_loadUnlockedState] at hload
    rw [returns_throwIf] at hempty hlarge hfee
    rw [returns_validateBatch] at hvalid
    rw [returns_okOr] at hroom htotal
    obtain ⟨-, rfl⟩ := hpaused
    obtain ⟨-, rfl⟩ := hauth
    obtain ⟨hst, -, rfl⟩ := hload
    obtain ⟨-, rfl⟩ := hempty
    obtain ⟨-, rfl⟩ := hlarge
    obtain ⟨-, rfl⟩ := hvalid
    obtain ⟨-, rfl⟩ := hroom
    obtain ⟨-, rfl⟩ := htotal
    obtain ⟨-, rfl⟩ := hfee
    refine (hlist st hst).bind fun _ _ _ => ?_
    exact Accounts.accountsAt he
  listed h hst := by
    obtain ⟨st', _, _, _, _, hst', -, -, -, -, -, hlisted, -⟩ := returns_createTokensBatch h
    obtain rfl := Option.some.inj (hst'.symm.trans hst)
    exact hlisted

theorem Gated.wrap {f : α → Ret} (hx : Gated creator x) : Gated creator (wrap f x) where
  accountsAt he hlist := (hx.accountsAt he hlist).bind fun _ _ _ => Accounts.accountsAt he
  listed h hst := by
    obtain ⟨_, h, -⟩ := returns_wrap.mp h
    exact hx.listed h hst

/-! ### Creations -/

theorem enforcesWhitelist_iff (hst : w.state? = some st) :
    w.enforcesWhitelist = true ↔ st.whitelistEnabled = true := by
  rw [World.enforcesWhitelist, hst, Option.any_some]

/-- A creation under an enforced whitelist has read the creator's entry. -/
theorem Gated.accesses (hx : Gated creator x) (h : x.Returns env w a w')
    (henforced : w.enforcesWhitelist = true) :
    Accesses (entryPart (.whitelist creator)) x env w := by
  intro hoverlooks
  rcases hst : w.state? with _ | st
  · rw [World.enforcesWhitelist, hst] at henforced
    cases henforced
  · -- with an entry that says no, the creation would end in the same way
    have hrun := hoverlooks (some false, 0)
    rw [h, Option.map_some] at hrun
    have hlisted := hx.listed (a := a) hrun hst ((enforcesWhitelist_iff hst).mp henforced)
    have hlookup : (w.storage.putEntry (.whitelist creator) (some false, 0)).lookup
        (.whitelist creator) = some false := by
      rw [Storage.lookup, Storage.persistent_putEntry_self]
      rfl
    have hstorage : ((entryPart (.whitelist creator)).put (some false, 0) w).storage.lookup
        (.whitelist creator) = some false := hlookup
    rw [hstorage] at hlisted
    cases hlisted

/-- The check of the whitelist changes nothing. -/
theorem leaves_requireWhitelisted {r : Except Error Unit}
    (h : requireWhitelisted st creator env w = some (r, w')) : w = w' := by
  have hread : @Moves Env World Error (no_index (Option (DataKey.whitelist creator).Val)) Eq
      (readAddrKeyed (.whitelist creator)) := by
    unfold readAddrKeyed
    infer_instance
  have hcheck : Moves Eq (requireWhitelisted st creator) := by
    unfold requireWhitelisted whitelistContains
    infer_instance
  exact hcheck.rel h

/-- The creator's whitelist entry stays as it is. -/
theorem Gated.get_eq (hx : Gated creator x) (he : env.Detached) (h : x.Returns env w a w') :
    (entryPart (.whitelist creator)).get w' = (entryPart (.whitelist creator)).get w := by
  -- the property that is accounted for is to be the entry at the start
  have haccounts : AccountsAt (entryPart (.whitelist creator)) True
      (fun _ i => i = (entryPart (.whitelist creator)).get w) x env w := by
    apply hx.accountsAt he
    intro st hst
    refine .inr ⟨trivial, fun r w' hrun => ?_⟩
    rw [leaves_requireWhitelisted hrun]
  exact haccounts.leaves rfl _ _ h

/-- Of any other entry, and without enforcement of any entry, a creation renews what it accesses. -/
theorem Gated.renews (hx : Gated creator x) (he : env.Detached) (h : x.Returns env w a w')
    (hk : w.enforcesWhitelist = true → .whitelist creator ≠ k)
    (haccesses : Accesses (entryPart k) x env w) : Fresh env ((entryPart k).get w') := by
  have haccounts : AccountsAt (entryPart k) True Fresh x env w := by
    apply hx.accountsAt he
    intro st hst
    by_cases hen : w.enforcesWhitelist = true
    · have hcheck : Tracks True k Fresh (requireWhitelisted st creator) :=
        tracks_requireWhitelisted (hk hen)
      exact hcheck.accountsAt he
    · rw [enforcesWhitelist_iff hst] at hen
      rw [requireWhitelisted, if_neg hen]
      exact Accounts.pure.accountsAt he
  exact haccounts.leaves_of_accesses haccesses _ _ h

/-- A creation renews what it accesses, up to the whitelist entry that it looks up. -/
theorem Gated.renewed_iff (hx : Gated creator x) (he : env.Detached) (h : x.Returns env w a w') :
    (∀ k, Accesses (entryPart k) x env w → Fresh env ((entryPart k).get w')) ↔
      (w.enforcesWhitelist = true → Fresh env ((entryPart (.whitelist creator)).get w)) := by
  constructor
  · intro hrenewed henforced
    rw [← hx.get_eq he h]
    exact hrenewed _ (hx.accesses h henforced)
  · intro hfresh k haccesses
    by_cases hk : w.enforcesWhitelist = true ∧ .whitelist creator = k
    · obtain ⟨henforced, rfl⟩ := hk
      rw [hx.get_eq he h]
      exact hfresh henforced
    · exact hx.renews he h (fun henforced heq => hk ⟨henforced, heq⟩) haccesses

/-! ### The back-fill of an address -/

theorem get_migrateAddrKeyed_of_ne {k' : DataKey} (h : k' ≠ k) :
    (entryPart k).get (w.migrateAddrKeyed env k') = (entryPart k).get w := by
  have hput : ((entryPart k).put ((entryPart k).get w) w).migrateAddrKeyed env k' = _ :=
    migrateAddrKeyed_put h _
  rw [(entryPart k).put_get] at hput
  rw [hput, (entryPart k).get_put]

/-- The back-fill leaves the entry of the index as it is, or writes it where it is missing. -/
theorem returns_backfillTokenAddress {n : ℕ}
    (h : (backfillTokenAddress token).Returns env w n w') :
    w.storage.lookup (.tokenIndex token) = some n ∧
      ((w.storage.persistent (.tokenAddress n)).isSome = true ∧
          (entryPart (.tokenAddress n)).get w' = (entryPart (.tokenAddress n)).get w ∨
        w.storage.persistent (.tokenAddress n) = none ∧
          ∃ w₁ : World, w₁.setPersistent env (.tokenAddress n) token = w') := by
  simp only [backfillTokenAddress, returns_bind, returns_migrateAddrKeyed, returns_okOr,
    returns_getPersistent, returns_ite, returns_pure, returns_setPersistent] at h
  obtain ⟨_, _, ⟨hlookup, rfl⟩, index, _, ⟨rfl, rfl⟩, present, _, ⟨hpresent, rfl⟩, h⟩ := h
  have hother : DataKey.tokenIndex token ≠ .tokenAddress index := by
    intro heq
    cases heq
  have hsame : (entryPart (.tokenAddress index)).get (w.migrateAddrKeyed env (.tokenIndex token)) =
      (entryPart (.tokenAddress index)).get w := get_migrateAddrKeyed_of_ne hother
  have hvalue : (w.migrateAddrKeyed env (.tokenIndex token)).storage.persistent
      (.tokenAddress index) = w.storage.persistent (.tokenAddress index) := congrArg Prod.fst hsame
  rw [hvalue] at hpresent
  rw [← hpresent] at h
  rcases h with ⟨hsome, rfl, rfl⟩ | ⟨hnone, _, _, rfl, rfl, rfl⟩
  · exact ⟨hlookup, .inl ⟨hsome, hsame⟩⟩
  · exact ⟨hlookup, .inr ⟨Option.not_isSome_iff_eq_none.mp hnone, _, rfl⟩⟩

/-- The back-fill has looked at the entry of the index. -/
theorem accesses_backfillTokenAddress {n : ℕ}
    (h : (backfillTokenAddress token).Returns env w n w') :
    Accesses (entryPart (.tokenAddress n)) (backfillTokenAddress token) env w := by
  intro hoverlooks
  -- without the entry it would be written
  have hrun := hoverlooks (none, 0)
  rw [h, Option.map_some] at hrun
  obtain ⟨-, ⟨hsome, -⟩ | ⟨-, w₁, hw₁⟩⟩ := returns_backfillTokenAddress (n := n) hrun
  · have habsent : ((entryPart (.tokenAddress n)).put (none, 0) w).storage.persistent
        (.tokenAddress n) = none := Storage.persistent_putEntry_self
    rw [habsent] at hsome
    cases hsome
  · have habsent : ((entryPart (.tokenAddress n)).put (none, 0) w').storage.persistent
        (.tokenAddress n) = none := Storage.persistent_putEntry_self
    have hwritten : (w₁.setPersistent env (.tokenAddress n) token).storage.persistent
        (.tokenAddress n) = some token := by
      rw [World.storage_setPersistent, Storage.persistent_extendTtl,
        Storage.persistent_setPersistent_self]
    rw [hw₁] at hwritten
    rw [hwritten] at habsent
    cases habsent

/-- Of any other entry, the back-fill renews what it accesses. -/
theorem renews_backfillTokenAddress {n : ℕ} (he : env.Detached)
    (h : (backfillTokenAddress token).Returns env w n w') (hk : .tokenAddress n ≠ k)
    (haccesses : Accesses (entryPart k) (backfillTokenAddress token) env w) :
    Fresh env ((entryPart k).get w') := by
  have haccounts : AccountsAt (entryPart k) True Fresh (backfillTokenAddress token) env w := by
    unfold backfillTokenAddress
    refine (Accounts.accountsAt he).bind fun o _ hmigrate => ?_
    refine (Accounts.accountsAt he).bind fun index _ hindex => ?_
    -- the index is the one that has been found
    rw [returns_migrateAddrKeyed] at hmigrate
    rw [returns_okOr] at hindex
    obtain ⟨hlookup, -⟩ := hmigrate
    obtain ⟨rfl, -⟩ := hindex
    obtain rfl := Option.some.inj (hlookup.symm.trans (returns_backfillTokenAddress h).1)
    refine ((tracks_getPersistent_of_ne hk).accountsAt he).bind fun present _ _ => ?_
    exact Accounts.accountsAt he
  exact haccounts.leaves_of_accesses haccesses _ _ h

/-- The back-fill of an address renews all that it looks at, but for an address that is there. -/
theorem renewed_backfillTokenAddress_iff {n : ℕ} (he : env.Detached)
    (h : (backfillTokenAddress token).Returns env w n w') :
    (∀ k, Accesses (entryPart k) (backfillTokenAddress token) env w →
        Fresh env ((entryPart k).get w')) ↔ Fresh env ((entryPart (.tokenAddress n)).get w) := by
  obtain ⟨-, hentry⟩ := returns_backfillTokenAddress h
  constructor
  · intro hrenewed hsome
    rcases hentry with ⟨-, hsame⟩ | ⟨habsent, -⟩
    · have hfresh := hrenewed _ (accesses_backfillTokenAddress h)
      rw [hsame] at hfresh
      exact hfresh hsome
    · exact fresh_of_eq_none habsent hsome
  · intro hfresh k haccesses
    by_cases hk : .tokenAddress n = k
    · subst hk
      rcases hentry with ⟨-, hsame⟩ | ⟨-, w₁, rfl⟩
      · rw [hsame]
        exact hfresh
      · exact fresh_setPersistent
    · exact renews_backfillTokenAddress he h hk haccesses

/-! ### Calls -/

/-- What is tracked for every entry renews what it accesses. -/
theorem renews_of_tracks (hx : ∀ k, Tracks True k Fresh x) (he : env.Detached)
    (h : x.Returns env w a w') (haccesses : Accesses (entryPart k) x env w) :
    Fresh env ((entryPart k).get w') :=
  ((hx k).accountsAt he).leaves_of_accesses haccesses _ _ h

theorem wrap_apply {f : α → Ret} :
    wrap f x env w = (x env w).map fun o => (o.1.map f, o.2) := by
  simp only [wrap, Bind.bind, Contract.bind]
  rcases x env w with _ | ⟨_ | a, w'⟩ <;> rfl

/-- A value that can be told from its wrapping. -/
theorem overlooks_wrap_iff {f : α → Ret} (hf : Function.Injective f) :
    Overlooks (entryPart k) (wrap f x) env w ↔ Overlooks (entryPart k) x env w := by
  -- the wrapper is one-to-one, so equal wrapped results are equal results
  have hmap : Function.Injective fun o : Except Error α × World => (o.1.map f, o.2) := by
    rintro ⟨r, v⟩ ⟨r', v'⟩ heq
    obtain ⟨hr, rfl⟩ := Prod.mk.inj heq
    rcases r with r | b <;> rcases r' with r' | b'
    · rw [Except.error.inj hr]
    · cases hr
    · cases hr
    · rw [hf (Except.ok.inj hr)]
  refine forall_congr' fun i => ?_
  rw [wrap_apply, wrap_apply, Option.map_map]
  constructor
  · intro heq
    apply Option.map_injective hmap
    rw [heq, Option.map_map]
    rfl
  · intro heq
    rw [heq, Option.map_map]
    rfl

theorem readsFresh_of_bareRead_eq_none (h : i.call.bareRead w = none) : ReadsFresh i w := by
  intro k hk
  rw [h] at hk
  cases hk

/-- The one entry that a call reads without renewing it. -/
theorem readsFresh_iff_of_bareRead_eq_some (h : i.call.bareRead w = some k) :
    ReadsFresh i w ↔ Fresh i.env ((entryPart k).get w) := by
  constructor
  · intro hfresh
    exact hfresh k h
  · intro hfresh k' hk'
    rw [h] at hk'
    obtain rfl := Option.some.inj hk'
    exact hfresh

theorem readsFresh_iff_of_gated
    (h : i.call.bareRead w = if w.enforcesWhitelist then some (.whitelist creator) else none) :
    ReadsFresh i w ↔
      (w.enforcesWhitelist = true → Fresh i.env ((entryPart (.whitelist creator)).get w)) := by
  by_cases henforced : w.enforcesWhitelist = true
  · rw [if_pos henforced] at h
    rw [readsFresh_iff_of_bareRead_eq_some h, forall_prop_of_true henforced]
  · rw [if_neg henforced] at h
    exact iff_of_true (readsFresh_of_bareRead_eq_none h) fun h => absurd h henforced

/-- **A call renews what it accesses if and only if what it looks at without extending it has enough
ledgers left.** -/
theorem renewed_iff_readsFresh (hs : Step w i w') (hprivate : i.env.StoragePrivate) :
    Renewed i w w' ↔ ReadsFresh i w := by
  obtain ⟨env, call, ret⟩ := i
  obtain ⟨hre, h⟩ := hs
  have he : env.Detached := ⟨hre, hprivate⟩
  -- three calls read an entry without renewing it; each reads a different one
  cases call with
  | view v =>
    have hsame : w'.storage = w.storage := by rw [View.returns_exec h]
    exact iff_of_true hsame (readsFresh_of_bareRead_eq_none rfl)
  | createToken creator p feePayment =>
    rw [readsFresh_iff_of_gated (i := ⟨env, .createToken creator p feePayment, ret⟩) rfl]
    exact gated_createToken.wrap.renewed_iff he h
  | createTokensBatch creator tokens feePayment =>
    rw [readsFresh_iff_of_gated (i := ⟨env, .createTokensBatch creator tokens feePayment, ret⟩) rfl]
    exact gated_createTokensBatch.wrap.renewed_iff he h
  | backfillTokenAddress token =>
    obtain ⟨n, h, -⟩ := returns_wrap.mp h
    have hlookup := (returns_backfillTokenAddress h).1
    have hread : (Call.backfillTokenAddress token).bareRead w = some (.tokenAddress n) := by
      rw [Call.bareRead, hlookup, Option.map_some]
    -- wrapping the number returned changes no access
    have hwrap : ∀ k, Accesses (entryPart k) (wrap .u32 (backfillTokenAddress token)) env w ↔
        Accesses (entryPart k) (backfillTokenAddress token) env w :=
      fun k => not_congr (overlooks_wrap_iff fun _ _ => Ret.u32.inj)
    show (∀ k, Accesses (entryPart k) (wrap .u32 (backfillTokenAddress token)) env w → _) ↔ _
    rw [readsFresh_iff_of_bareRead_eq_some hread, ← renewed_backfillTokenAddress_iff he h]
    exact forall_congr' fun k => imp_congr_left (hwrap k)
  | _ =>
    refine iff_of_true (fun k haccesses => renews_of_tracks (fun k => ?_) he h haccesses)
      (readsFresh_of_bareRead_eq_none rfl)
    unfold Call.exec
    infer_instance

/-! ### Runs -/

/-- A run of the contract, whose steps all have the property; no other contract sees the factory's
storage. -/
def ReachesBy (P : World → Invocation → World → Prop) (args : ConstructorArgs) (h : List Invocation)
    (w : World) : Prop :=
  ∃ env w₀, Constructed env args w₀ ∧
    Run (fun v i v' => (Step v i v' ∧ i.env.StoragePrivate) ∧ P v i v') w₀ h w

/-- **The runs in which every call renews what it accesses are those in which every entry that is looked
at without being extended has enough ledgers left.** -/
theorem renewedThroughout_iff (args : ConstructorArgs) (h : List Invocation) (w : World) :
    ReachesBy (fun v i v' => Renewed i v v') args h w ↔
      ReachesBy (fun v i _ => ReadsFresh i v) args h w := by
  refine exists_congr fun env => exists_congr fun w₀ => and_congr_right fun _ => ?_
  refine Run.congr (I := fun _ => True) (fun _ _ => trivial) (fun _ => ?_) trivial
  exact and_congr_right fun hs => renewed_iff_readsFresh hs.1 hs.2

/-! ### A listed creator -/

instance (sequence : ℕ) (caller : Address) : (permissiveEnv sequence caller).StoragePrivate where
  reply_eq := rfl

namespace SampleRenewal

/-- What the factory of the sample run is built with. -/
def constructorArgs : ConstructorArgs := ⟨⟨1⟩, ⟨2⟩, ⟨3⟩, 7, 100, 10⟩

/-- The token of the sample run. -/
def params : BatchTokenParams := ⟨50, [65], [66], 7, 600, some 1000⟩

/-- The creator `5` is listed, and the whitelist enforced. -/
def history : List Invocation :=
  [⟨permissiveEnv 20 ⟨1⟩, .setWhitelistEnabled ⟨1⟩ true, .unit⟩,
    ⟨permissiveEnv 10 ⟨1⟩, .addToWhitelist ⟨1⟩ ⟨5⟩, .unit⟩]

/-- The factory has been constructed. -/
def world₀ : World :=
  (factoryConstructor constructorArgs).commit (permissiveEnv 1 ⟨1⟩) World.genesis

/-- The creator has been listed. -/
def world₁ : World := (Call.addToWhitelist ⟨1⟩ ⟨5⟩).exec.commit (permissiveEnv 10 ⟨1⟩) world₀

/-- The whitelist is enforced. -/
def world₂ : World :=
  (Call.setWhitelistEnabled ⟨1⟩ true).exec.commit (permissiveEnv 20 ⟨1⟩) world₁

/-- A creation, when 35010 ledgers of the creator's entry are left. -/
def creation : Invocation :=
  ⟨permissiveEnv 500000 ⟨5⟩, .createToken ⟨5⟩ params 100, .address ⟨50⟩⟩

/-- The listed creator has created the token. -/
def world₃ : World := creation.call.exec.commit creation.env world₂

theorem reaches : Reaches constructorArgs history world₂ :=
  ((reaches_constructor rfl).step (step_commit inferInstance rfl)).step
    (step_commit inferInstance rfl)

theorem step : Step world₂ creation world₃ := step_commit inferInstance rfl

end SampleRenewal

/-- The creation succeeds, and leaves the creator's entry to expire. -/
theorem not_renewed_sampleCreation :
    Reaches SampleRenewal.constructorArgs SampleRenewal.history SampleRenewal.world₂ ∧
      Step SampleRenewal.world₂ SampleRenewal.creation SampleRenewal.world₃ ∧
      ¬ Renewed SampleRenewal.creation SampleRenewal.world₂ SampleRenewal.world₃ := by
  refine ⟨SampleRenewal.reaches, SampleRenewal.step, fun hrenewed => ?_⟩
  have hprivate : SampleRenewal.creation.env.StoragePrivate :=
    inferInstanceAs (permissiveEnv 500000 ⟨5⟩).StoragePrivate
  have hfresh := (renewed_iff_readsFresh SampleRenewal.step hprivate).mp hrenewed
  have hvalue : SampleRenewal.world₂.storage.liveUntil (.whitelist ⟨5⟩) = 535010 := by decide
  have hnow : SampleRenewal.creation.env.sequence = 500000 := rfl
  have hread : SampleRenewal.creation.call.bareRead SampleRenewal.world₂ =
      some (.whitelist ⟨5⟩) := by decide
  have hlisted : (SampleRenewal.world₂.storage.persistent (.whitelist ⟨5⟩)).isSome = true := by
    decide
  have hleft : SampleRenewal.creation.env.sequence + MIN_TTL ≤
      SampleRenewal.world₂.storage.liveUntil (.whitelist ⟨5⟩) :=
    fresh_get_iff.mp (hfresh _ hread) hlisted
  rw [hvalue, hnow] at hleft
  exact absurd hleft (by decide)

end StellarForge.Factory
