import StellarForge.Factory.Entrypoint
import StellarForge.Soroban.Access
import StellarForge.Soroban.Entries

/-!
# Access to the entries

Which parts of the contract look at a persistent entry, and what they leave of its lifetime.  `Tracks
may k G x` says of a part `x` of the contract that it overlooks the entry `k`, or, where it may, leaves
an entry with the property `G`.  `Renews may k G k'` is what this takes of a key `k'` that `x` uses:
when it is `k`, an entry that has been extended has the property.

The parts are tracked for every entry, but for two that read an entry without extending it:
`requireWhitelisted` the creator's whitelist entry, and `backfillTokenAddress` the entry that is
already there.
-/

namespace StellarForge.Factory

open Soroban Contract

/-! ### Entries -/

/-- The value of a persistent entry, if it exists, and its live-until ledger. -/
abbrev Entry (k : DataKey) := Option k.Val × ℕ

/-- One persistent entry, with the ledger that it lives until. -/
def entryPart (k : DataKey) : Part World (Entry k) where
  get w := (w.storage.persistent k, w.storage.liveUntil k)
  put i := World.mapStorage (Storage.putEntry k i)
  put_get w := by
    unfold World.mapStorage
    rw [Storage.putEntry_eq_self]
  get_put i w := by
    show (((w.storage.putEntry k i).persistent k, (w.storage.putEntry k i).liveUntil k) :
      Entry k) = i
    rw [Storage.persistent_putEntry_self, Storage.liveUntil_putEntry_self]

/-- If the entry exists, it has at least `MIN_TTL` ledgers left. -/
def Fresh {k : DataKey} (env : Env) (i : Entry k) : Prop :=
  i.1.isSome = true → env.sequence + MIN_TTL ≤ i.2

/-- The factory's storage is its own: what other contracts answer does not depend on it. -/
class Env.StoragePrivate (env : Env) : Prop where
  reply_eq : ∀ {w : World} {s : FactoryStorage} {c : ExtCall},
    (env.host { w with storage := s } c).map Prod.fst = (env.host w c).map Prod.fst

/-- Other contracts neither see nor change the factory's storage. -/
def Env.Detached (env : Env) : Prop := env.NoReentry ∧ env.StoragePrivate

/-- Every entry that has been extended has the property, if the key is `k`. -/
class Renews (may : Prop) (k : DataKey) (G : Env → Entry k → Prop) (k' : DataKey) : Prop where
  renews : k' = k → may ∧ ∀ env i, Fresh env i → G env i

/-- The property is that the entry has been extended. -/
instance {k k' : DataKey} : Renews True k Fresh k' := ⟨fun _ => ⟨trivial, fun _ _ h => h⟩⟩

/-- Whatever a program does to one entry, `G` holds of it afterwards. -/
abbrev Tracks (may : Prop) (k : DataKey) (G : Env → Entry k → Prop) {α : Type} (x : ContractM α) :
    Prop :=
  Accounts Env.Detached (entryPart k) may G x

variable {may : Prop} {k k' : DataKey} {G : Env → Entry k → Prop} {env : Env} {w : World}
  {α β : Type}

theorem fresh_get_iff : Fresh env ((entryPart k).get w) ↔
    ((w.storage.persistent k).isSome = true → env.sequence + MIN_TTL ≤ w.storage.liveUntil k) :=
  Iff.rfl

/-! ### Updates of an entry -/

theorem fresh_setPersistent {v : k.Val} : Fresh env ((entryPart k).get (w.setPersistent env k v)) :=
  fun _ => Storage.le_liveUntil_extendTtl (by decide)

theorem fresh_extendTtl : Fresh env ((entryPart k).get (w.extendTtl env k)) :=
  fun _ => Storage.le_liveUntil_extendTtl (by decide)

theorem fresh_of_eq_none (h : w.storage.persistent k = none) :
    Fresh env ((entryPart k).get w) := by
  intro hsome
  have hget : ((entryPart k).get w).1 = none := h
  rw [hget] at hsome
  cases hsome

theorem fresh_removePersistent : Fresh env ((entryPart k).get (w.removePersistent k)) :=
  fresh_of_eq_none Storage.persistent_removePersistent_self

/-- What has been migrated has been renewed. -/
theorem fresh_migrateAddrKeyed : Fresh env ((entryPart k).get (w.migrateAddrKeyed env k)) := by
  unfold World.migrateAddrKeyed
  rcases h : w.storage.persistent k with _ | v
  · rcases w.storage.inst k with _ | v
    · exact fresh_of_eq_none h
    · -- the instance tier has lost its copy, which is not the entry
      exact fresh_setPersistent
  · exact fresh_extendTtl

theorem setPersistent_put {v : k'.Val} (h : k' ≠ k) (i : Entry k) :
    ((entryPart k).put i w).setPersistent env k' v =
      (entryPart k).put i (w.setPersistent env k' v) := by
  show World.mapStorage _ (World.mapStorage _ w) = World.mapStorage _ (World.mapStorage _ w)
  unfold World.mapStorage
  dsimp only
  rw [Storage.setPersistent_putEntry h, Storage.extendTtl_putEntry h]

theorem extendTtl_put (h : k' ≠ k) (i : Entry k) :
    ((entryPart k).put i w).extendTtl env k' = (entryPart k).put i (w.extendTtl env k') := by
  show World.mapStorage _ (World.mapStorage _ w) = World.mapStorage _ (World.mapStorage _ w)
  unfold World.mapStorage
  dsimp only
  rw [Storage.extendTtl_putEntry h]

theorem removePersistent_put (h : k' ≠ k) (i : Entry k) :
    ((entryPart k).put i w).removePersistent k' = (entryPart k).put i (w.removePersistent k') := by
  show World.mapStorage _ (World.mapStorage _ w) = World.mapStorage _ (World.mapStorage _ w)
  unfold World.mapStorage
  dsimp only
  rw [Storage.removePersistent_putEntry h]

theorem persistent_put_of_ne (h : k' ≠ k) (i : Entry k) :
    ((entryPart k).put i w).storage.persistent k' = w.storage.persistent k' :=
  Storage.persistent_putEntry_of_ne h

theorem lookup_put_of_ne (h : k' ≠ k) (i : Entry k) :
    ((entryPart k).put i w).storage.lookup k' = w.storage.lookup k' :=
  Storage.lookup_putEntry_of_ne h

/-- Migrating one entry overlooks the others. -/
theorem migrateAddrKeyed_put (h : k' ≠ k) (i : Entry k) :
    ((entryPart k).put i w).migrateAddrKeyed env k' =
      (entryPart k).put i (w.migrateAddrKeyed env k') := by
  have hinst : ((entryPart k).put i w).storage.inst k' = w.storage.inst k' := rfl
  unfold World.migrateAddrKeyed
  rw [persistent_put_of_ne h, hinst]
  rcases w.storage.persistent k' with _ | v
  · rcases w.storage.inst k' with _ | v
    · rfl
    · dsimp only
      rw [setPersistent_put h]
      rfl
  · exact extendTtl_put h i

/-! ### Helpers -/

/-- An update that is about the entry of one key. -/
theorem tracks_update (k' : DataKey) [hk : Renews may k G k'] {g : Env → World → World}
    (hput : k' ≠ k → ∀ env w i, g env ((entryPart k).put i w) = (entryPart k).put i (g env w))
    (hfresh : k' = k → ∀ env w, Fresh env ((entryPart k).get (g env w))) :
    Tracks may k G (modifyWorld g) := by
  apply Accounts.modifyWorld
  intro env w
  by_cases h : k' = k
  · obtain ⟨hmay, hG⟩ := hk.renews h
    exact .inr ⟨hmay, hG _ _ (hfresh h env w)⟩
  · exact .inl (hput h env w)

instance {ev : Event} : Tracks may k G (publish ev) := .modifyWorld fun _ _ => .inl fun _ => rfl

instance {a : Address} : Tracks may k G (requireAuth a) := by
  unfold requireAuth
  infer_instance

-- as for the `simp` lemmas, the type of the value is left out of the index
instance : @Tracks may k G (no_index (Option k'.Val)) (getInst k') :=
  .read (fun _ => inferInstance) fun _ _ => rfl

instance {v : k'.Val} : Tracks may k G (setInst k' v) := .modifyWorld fun _ _ => .inl fun _ => rfl

instance : Tracks may k G (removeInst k') := .modifyWorld fun _ _ => .inl fun _ => rfl

instance : Tracks may k G extendInstTtl := .modifyWorld fun _ _ => .inl fun _ => rfl

instance : Tracks may k G loadState := by
  refine .read (fun w => ?_) fun _ _ => rfl
  split
  · infer_instance
  · split <;> infer_instance

instance : Tracks may k G loadUnlockedState := by
  unfold loadUnlockedState
  infer_instance

instance : Tracks may k G loadState? := by
  unfold loadState?
  refine .andThen inferInstance fun o => ?_
  split
  · infer_instance
  · split <;> infer_instance

instance {st : FactoryState} : Tracks may k G (saveState st) :=
  .modifyWorld fun _ _ => .inl fun _ => rfl

instance {st : FactoryState} {locked : Bool} : Tracks may k G (setLocked st locked) := by
  unfold setLocked
  infer_instance

instance [Renews may k G k'] {v : k'.Val} : Tracks may k G (setPersistent k' v) := by
  refine tracks_update k' (fun h _ _ i => setPersistent_put h i) ?_
  rintro rfl env w
  exact fresh_setPersistent

instance [hk : Renews may k G k'] :
    @Tracks may k G (no_index (Option k'.Val)) (migrateAddrKeyed k') := by
  have : Tracks may k G (modifyWorld fun env w => w.migrateAddrKeyed env k' : ContractM Unit) := by
    refine tracks_update k' (fun h _ _ i => migrateAddrKeyed_put h i) ?_
    rintro rfl env w
    exact fresh_migrateAddrKeyed
  by_cases h : k' = k
  · -- the value is read, and the entry extended
    subst h
    obtain ⟨hmay, hG⟩ := hk.renews rfl
    refine ⟨fun _ => .inr ⟨hmay, fun r w' hrun => ?_⟩⟩
    obtain ⟨-, rfl⟩ := Prod.mk.inj (Option.some.inj hrun)
    exact hG _ _ fresh_migrateAddrKeyed
  · refine .read (fun w => ?_) fun i w => ?_
    · infer_instance
    · rw [lookup_put_of_ne h]

/-! ### Reading an entry -/

/-- A look at another entry. -/
theorem tracks_getPersistent_of_ne (h : k' ≠ k) :
    @Tracks may k G (no_index (Option k'.Val)) (getPersistent k') := by
  refine .read (fun w => inferInstance) fun i w => ?_
  rw [persistent_put_of_ne h]

/-- A look at an entry, after which it is extended. -/
theorem tracks_getPersistent_bind [hk : Renews may k G k'] {f : Option k'.Val → ContractM β}
    (hf : ∀ o, Tracks may k G (f o))
    (hsome : k' = k → ∀ v env w, env.Detached → Leaves (entryPart k) G (f (some v)) env w) :
    Tracks may k G (getPersistent k' >>= f) := by
  by_cases h : k' = k
  · subst h
    obtain ⟨hmay, hG⟩ := hk.renews rfl
    refine ⟨fun {env w} he => .inr ⟨hmay, ?_⟩⟩
    show Leaves (entryPart k') G (fun env w => f (w.storage.persistent k') env w) env w
    rcases hp : w.storage.persistent k' with _ | v
    · -- an entry that is absent is as good as extended
      have hleaves := ((hf none).accountsAt (s := w) he).leaves (hG _ _ (fresh_of_eq_none hp))
      intro r w' hrun
      dsimp only at hrun
      rw [hp] at hrun
      exact hleaves r w' hrun
    · intro r w' hrun
      dsimp only at hrun
      rw [hp] at hrun
      exact hsome rfl v env w he r w' hrun
  · have : Tracks may k G (getPersistent k') := tracks_getPersistent_of_ne h
    exact .andThen this hf

/-! ### Calls to other contracts -/

instance {c : ExtCall} : @Tracks may k G (no_index (Option c.Reply)) (tryCall c) := by
  refine .ofOverlooks fun env w he i => ?_
  obtain ⟨hre, hprivate⟩ := he
  have hreply : (env.host ((entryPart k).put i w) c).map Prod.fst = (env.host w c).map Prod.fst :=
    hprivate.reply_eq
  unfold tryCall
  rcases h : env.host w c with _ | ⟨r, s⟩
  · rw [h, Option.map_none, Option.map_eq_none_iff] at hreply
    rw [hreply]
    rfl
  · rw [h, Option.map_some, Option.map_eq_some_iff] at hreply
    obtain ⟨⟨r', s'⟩, h', rfl⟩ := hreply
    obtain rfl := Env.NoReentry.storage_eq h
    obtain rfl := Env.NoReentry.storage_eq h'
    rw [h']
    rfl

instance {c : ExtCall} : @Tracks may k G (no_index c.Reply) (invoke c) := by
  unfold invoke
  refine .andThen inferInstance fun o => ?_
  split <;> infer_instance

instance {token admin : Address} {decimals : ℕ} {name symbol : Bytes} :
    Tracks may k G (initializeToken token admin decimals name symbol) := by
  unfold initializeToken
  infer_instance

instance {token recipient : Address} {amount : ℤ} :
    Tracks may k G (mintToken token recipient amount) := by
  unfold mintToken
  infer_instance

instance {token holder : Address} : Tracks may k G (balanceOfToken token holder) := by
  unfold balanceOfToken
  infer_instance

instance {token holder : Address} {amount : ℤ} : Tracks may k G (burnToken token holder amount) := by
  unfold burnToken
  infer_instance

instance {wasmHash : BytesN32} : Tracks may k G (updateCurrentContractWasm wasmHash) := by
  unfold updateCurrentContractWasm
  infer_instance

instance {token payer recipient : Address} {amount : ℤ} :
    Tracks may k G (tryTransfer token payer recipient amount) := by
  unfold tryTransfer
  infer_instance

instance {deployer : Address} {salt wasmHash : BytesN32} :
    Tracks may k G (deploy deployer salt wasmHash) := by
  have (a : Address) (hash : BytesN32) :
      Tracks may k G (modifyWorld fun _ w => w.addContract a hash : ContractM Unit) :=
    .modifyWorld fun _ _ => .inl fun _ => rfl
  unfold deploy
  refine .andThen inferInstance fun a => .read (fun w => inferInstance) fun _ _ => rfl

instance {feeToken payer : Address} {shares : List (Address × ℤ)} {extra : ℤ} :
    Tracks may k G (payShares feeToken payer shares extra) := by
  induction shares generalizing extra with
  | nil =>
    unfold payShares
    infer_instance
  | cons share shares ih =>
    unfold payShares
    infer_instance

instance {st : FactoryState} {payer : Address} {amount : ℤ} :
    Tracks may k G (payTreasury st payer amount) := by
  unfold payTreasury
  infer_instance

instance {st : FactoryState} {payer : Address} {amount : ℤ} :
    Tracks may k G (distributeFee st payer amount) := by
  unfold distributeFee
  refine .andThen inferInstance fun o => ?_
  split
  · unfold distributeSplit
    infer_instance
  · infer_instance

/-! ### Creation -/

/-- The keys of a new token and of its creator's list. -/
class CreationKeys (may : Prop) (k : DataKey) (G : Env → Entry k → Prop) : Prop where
  tokenInfo : ∀ index, Renews may k G (.tokenInfo index)
  page : ∀ creator p, Renews may k G (.creatorTokens creator p)
  count : ∀ creator, Renews may k G (.creatorTokenCount creator)
  tokenIndex : ∀ token, Renews may k G (.tokenIndex token)
  tokenAddress : ∀ index, Renews may k G (.tokenAddress index)
  owner : ∀ token, Renews may k G (.owner token)
  supply : ∀ token, Renews may k G (.supply token)

attribute [instance] CreationKeys.tokenInfo CreationKeys.page CreationKeys.count
  CreationKeys.tokenIndex CreationKeys.tokenAddress CreationKeys.owner CreationKeys.supply

instance {k : DataKey} : CreationKeys True k Fresh :=
  ⟨inferInstance, inferInstance, inferInstance, inferInstance, inferInstance, inferInstance,
    inferInstance⟩

/-- None of them is a whitelist key. -/
instance {a : Address} {G : Env → Entry (.whitelist a) → Prop} :
    CreationKeys may (.whitelist a) G :=
  ⟨fun _ => ⟨nofun⟩, fun _ _ => ⟨nofun⟩, fun _ => ⟨nofun⟩, fun _ => ⟨nofun⟩, fun _ => ⟨nofun⟩,
    fun _ => ⟨nofun⟩, fun _ => ⟨nofun⟩⟩

instance {p : BatchTokenParams} : Tracks may k G (validateTokenParams p) := by
  unfold validateTokenParams
  repeat refine .andThen inferInstance fun _ => ?_
  split <;> infer_instance

instance {ps : List BatchTokenParams} : Tracks may k G (validateBatch ps) := by
  induction ps with
  | nil =>
    unfold validateBatch
    infer_instance
  | cons p ps ih =>
    unfold validateBatch
    infer_instance

instance : Tracks may k G requireNotPaused := by
  unfold requireNotPaused
  infer_instance

instance {token creator : Address} {p : BatchTokenParams} :
    Tracks may k G (mintInitialSupply token creator p) := by
  unfold mintInitialSupply
  infer_instance

section

variable [CreationKeys may k G]

instance {creator : Address} {legacy : List ℕ} {migrated : ℕ} {bucket : List ℕ} :
    Tracks may k G (migrateLegacyPages creator legacy migrated bucket) := by
  induction legacy generalizing migrated bucket with
  | nil =>
    unfold migrateLegacyPages
    infer_instance
  | cons index legacy ih =>
    unfold migrateLegacyPages
    infer_instance

/-- What has just been written is fresh, and stays so. -/
theorem leaves_setPersistent_bind (may : Prop) [hk : Renews may k G k'] (h : k' = k) {v : k'.Val}
    {f : Unit → ContractM β} (hf : ∀ u, Tracks may k G (f u)) (he : env.Detached) :
    Leaves (entryPart k) G (setPersistent k' v >>= f) env w := by
  subst h
  refine Leaves.bind (fun r w' hrun => ?_) fun u w' _ hfresh => ((hf u).accountsAt he).leaves hfresh
  obtain ⟨-, rfl⟩ := Prod.mk.inj (Option.some.inj hrun)
  exact (hk.renews rfl).2 _ _ fresh_setPersistent

instance {creator : Address} : Tracks may k G (creatorTokenCount creator) := by
  have hextend : Tracks may k G
      (modifyWorld fun env w => w.extendTtl env (.creatorTokenCount creator) : ContractM Unit) := by
    refine tracks_update (.creatorTokenCount creator) (fun h _ _ i => extendTtl_put h i) ?_
    rintro rfl env w
    exact fresh_extendTtl
  unfold creatorTokenCount
  refine tracks_getPersistent_bind (fun o => ?_) ?_
  · split <;> infer_instance
  · rintro rfl count env w he
    have hk : Renews may (.creatorTokenCount creator) G (.creatorTokenCount creator) := inferInstance
    intro r w' hrun
    obtain ⟨-, rfl⟩ := Prod.mk.inj (Option.some.inj hrun)
    exact (hk.renews rfl).2 _ _ fresh_extendTtl

instance {creator : Address} {index : ℕ} : Tracks may k G (appendCreatorToken creator index) := by
  unfold appendCreatorToken
  refine .andThen inferInstance fun count => ?_
  refine tracks_getPersistent_bind (fun o => inferInstance) ?_
  intro h bucket env w he
  exact leaves_setPersistent_bind may h (fun _ => inferInstance) he

instance {token creator : Address} {index : ℕ} {info : TokenInfo} :
    Tracks may k G (registerToken token creator index info) := by
  unfold registerToken
  infer_instance

instance {token : Address} {p : BatchTokenParams} : Tracks may k G (seedSupply token p) := by
  unfold seedSupply
  infer_instance

instance {creator : Address} {p : BatchTokenParams} {st : FactoryState} :
    Tracks may k G (recordToken creator p st) := by
  unfold recordToken
  iterate 6 refine .andThen inferInstance fun _ => ?_
  infer_instance

instance {creator : Address} {ps : List BatchTokenParams} {addresses : List Address}
    {st : FactoryState} : Tracks may k G (recordTokens creator ps addresses st) := by
  induction ps generalizing addresses st with
  | nil =>
    unfold recordTokens
    infer_instance
  | cons p ps ih =>
    unfold recordTokens
    infer_instance

instance {creator : Address} {p : BatchTokenParams} {st : FactoryState} :
    Tracks may k G (createTokenInner creator p st) := by
  unfold createTokenInner
  infer_instance

end

/-! ### Entrypoints -/

section

-- the instances follow the functions statement by statement, so a long function needs many
set_option synthInstance.maxSize 512

variable [∀ k', Renews may k G k']

instance {token : Address} : Tracks may k G (tokenCreator token) := by
  unfold tokenCreator
  infer_instance

instance {token : Address} : Tracks may k G (registeredToken token) := by
  unfold registeredToken
  infer_instance

instance {token : Address} : Tracks may k G (metadataFrozen token) := by
  unfold metadataFrozen
  infer_instance

instance {entries : List (Address × ℕ)} {total : ℕ} : Tracks may k G (sumBps entries total) := by
  induction entries generalizing total with
  | nil =>
    unfold sumBps
    infer_instance
  | cons e entries ih =>
    unfold sumBps
    infer_instance

instance {admin address : Address} : Tracks may k G (addToWhitelist admin address) := by
  unfold addToWhitelist
  infer_instance

instance {admin address : Address} : Tracks may k G (removeFromWhitelist admin address) := by
  have : Tracks may k G
      (modifyWorld fun _ w => w.removePersistent (.whitelist address) : ContractM Unit) := by
    refine tracks_update (.whitelist address) (fun h _ _ i => removePersistent_put h i) ?_
    rintro rfl env w
    exact fresh_removePersistent
  unfold removeFromWhitelist
  infer_instance

instance {admin : Address} {enabled : Bool} :
    Tracks may k G (setWhitelistEnabled admin enabled) := by
  unfold setWhitelistEnabled
  infer_instance

instance {uri : Bytes} : Tracks may k G (validateMetadataUri uri) := by
  unfold validateMetadataUri
  infer_instance

instance {token admin : Address} {uri : Bytes} {feePayment : ℤ} :
    Tracks may k G (setMetadata token admin uri feePayment) := by
  unfold setMetadata
  iterate 12 refine .andThen inferInstance fun _ => ?_
  infer_instance

instance {token admin : Address} : Tracks may k G (freezeMetadata token admin) := by
  unfold freezeMetadata
  infer_instance

instance {token : Address} {maxSupply : Option ℤ} {amount : ℤ} :
    Tracks may k G (trackMint token maxSupply amount) := by
  unfold trackMint
  split <;> infer_instance

instance {token admin recipient : Address} {amount feePayment : ℤ} :
    Tracks may k G (mintTokens token admin recipient amount feePayment) := by
  unfold mintTokens
  iterate 8 refine .andThen inferInstance fun _ => ?_
  infer_instance

instance {token holder : Address} {amount : ℤ} : Tracks may k G (burn token holder amount) := by
  unfold burn
  iterate 6 refine .andThen inferInstance fun _ => ?_
  refine .andThen inferInstance fun o => ?_
  split <;> infer_instance

instance {token admin : Address} {enabled : Bool} :
    Tracks may k G (setBurnEnabled token admin enabled) := by
  unfold setBurnEnabled
  infer_instance

instance {admin : Address} : Tracks may k G (pause admin) := by
  unfold pause
  infer_instance

instance {admin : Address} : Tracks may k G (unpause admin) := by
  unfold unpause
  infer_instance

instance {admin : Address} {splits : FeeSplit} : Tracks may k G (setFeeSplit admin splits) := by
  unfold setFeeSplit
  iterate 3 refine .andThen inferInstance fun _ => ?_
  split <;> infer_instance

instance {current : ℤ} {fee : Option ℤ} : Tracks may k G (checkedFee current fee) := by
  unfold checkedFee
  split <;> infer_instance

instance {admin : Address} {baseFee metadataFee : Option ℤ} :
    Tracks may k G (updateFees admin baseFee metadataFee) := by
  unfold updateFees
  infer_instance

instance {admin : Address} {hash : BytesN32} : Tracks may k G (proposeUpgrade admin hash) := by
  unfold proposeUpgrade
  infer_instance

instance {admin : Address} {hash : BytesN32} : Tracks may k G (executeUpgrade admin hash) := by
  unfold executeUpgrade
  iterate 6 refine .andThen inferInstance fun _ => ?_
  infer_instance

instance {admin : Address} : Tracks may k G (cancelUpgrade admin) := by
  unfold cancelUpgrade
  iterate 3 refine .andThen inferInstance fun _ => ?_
  split <;> infer_instance

instance {currentAdmin newAdmin : Address} :
    Tracks may k G (proposeAdmin currentAdmin newAdmin) := by
  unfold proposeAdmin
  infer_instance

instance {newAdmin : Address} : Tracks may k G (acceptAdmin newAdmin) := by
  unfold acceptAdmin
  infer_instance

instance {admin : Address} : Tracks may k G (cancelAdminProposal admin) := by
  unfold cancelAdminProposal
  iterate 3 refine .andThen inferInstance fun _ => ?_
  split <;> infer_instance

instance {currentAdmin newAdmin : Address} {name : Symbol} :
    Tracks may k G (proposeAdminViaLegacyAlias currentAdmin newAdmin name) := by
  unfold proposeAdminViaLegacyAlias
  infer_instance

instance {admin newAdmin : Address} : Tracks may k G (transferAdmin admin newAdmin) := by
  unfold transferAdmin
  infer_instance

instance {currentAdmin newAdmin : Address} : Tracks may k G (updateAdmin currentAdmin newAdmin) := by
  unfold updateAdmin
  infer_instance

instance {admin token : Address} {verified : ℤ} :
    Tracks may k G (backfillCappedSupply admin token verified) := by
  unfold backfillCappedSupply
  iterate 8 refine .andThen inferInstance fun _ => ?_
  infer_instance

/-! ### Schema migration -/

instance {version : ℕ} {update : FactoryState → FactoryState} :
    Tracks may k G (completeSchemaStep version update) := by
  unfold completeSchemaStep
  infer_instance

instance {version : ℕ} : Tracks may k G (migrateV4V5 version) := by
  unfold migrateV4V5
  infer_instance

instance {index n : ℕ} : Tracks may k G (moveTokenInfos index n) := by
  induction n generalizing index with
  | zero =>
    unfold moveTokenInfos
    infer_instance
  | succ n ih =>
    unfold moveTokenInfos
    refine .andThen inferInstance fun o => ?_
    split <;> infer_instance

instance {tokenCount version : ℕ} : Tracks may k G (migrateV3 tokenCount version) := by
  unfold migrateV3
  infer_instance

instance {admin : Address} : Tracks may k G (migrate admin) := by
  unfold migrate
  iterate 4 refine .andThen inferInstance fun _ => ?_
  -- each conditional step stands before a copy of the rest of the function
  dsimp only
  split_ifs <;>
  · refine .andThen inferInstance fun _ => ?_
    split_ifs <;> infer_instance

end

instance {f : α → Ret} {x : ContractM α} [Tracks may k G x] : Tracks may k G (wrap f x) := by
  unfold wrap
  infer_instance

end StellarForge.Factory
