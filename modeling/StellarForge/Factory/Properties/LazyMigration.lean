import StellarForge.Factory.Properties.Layouts
import StellarForge.Factory.Properties.Views

/-!
# Lazy migration is invisible, but for one view

* `Walking.exec`: **a call ends the same over a storage with entries of an older binary as over the migrated
  storage**, and leaves storages that are alike again, unless it hides a list;
* `getTokensByCreator_of_unmigrated`: the view of a creator's list does not see a list of the older form;
* `migration_invisible_iff`: **the runs that do not tell the two storages apart**.
-/

namespace StellarForge.Factory

open Soroban Contract Storage Collections Transition

variable {env : Env} {w v w' v' : World} {k : DataKey} {c : Address} {l : List ℕ} {i n : ℕ}
  {st : FactoryState}

/-! ### The registry -/

section

variable {token creator : Address} {index : ℕ} {info : TokenInfo}

instance : Lockstep env Older (registerToken token creator index info) := by
  unfold registerToken
  infer_instance

instance : Lockstep env Older (tokenCreator token) := by
  unfold tokenCreator
  infer_instance

instance : Lockstep env Older (registeredToken token) := by
  unfold registeredToken
  infer_instance

instance : Lockstep env Older (metadataFrozen token) := by
  unfold metadataFrozen
  infer_instance

instance : Lockstep env Older (whitelistContains c) := by
  unfold whitelistContains
  infer_instance

instance : Lockstep env Older (requireWhitelisted st creator) := by
  unfold requireWhitelisted
  infer_instance

instance {entries : List (Address × ℕ)} {total : ℕ} : Lockstep env Older (sumBps entries total) := by
  induction entries generalizing total with
  | nil =>
    unfold sumBps
    infer_instance
  | cons e entries ih =>
    unfold sumBps
    infer_instance

end

/-! ### Parts of the entrypoints -/

section

variable {p : BatchTokenParams} {token : Address}

instance : Lockstep env Older requireNotPaused := by
  unfold requireNotPaused
  infer_instance

instance : Lockstep env Older (validateTokenParams p) := by
  unfold validateTokenParams
  repeat refine .andThen inferInstance fun _ => ?_
  split <;> infer_instance

instance {ps : List BatchTokenParams} : Lockstep env Older (validateBatch ps) := by
  induction ps with
  | nil =>
    unfold validateBatch
    infer_instance
  | cons p ps ih =>
    unfold validateBatch
    infer_instance

instance : Lockstep env Older (seedSupply token p) := by
  unfold seedSupply
  infer_instance

instance {uri : Bytes} : Lockstep env Older (validateMetadataUri uri) := by
  unfold validateMetadataUri
  infer_instance

instance {maxSupply : Option ℤ} {amount : ℤ} : Lockstep env Older (trackMint token maxSupply amount) := by
  unfold trackMint
  split <;> infer_instance

instance {current : ℤ} {fee : Option ℤ} : Lockstep env Older (checkedFee current fee) := by
  unfold checkedFee
  split <;> infer_instance

end

/-! ### Calls to other contracts -/

section

variable [env.NoReentry] [env.Isolated] {x : ExtCall} {token payer recipient holder creator : Address}
  {amount : ℤ} {p : BatchTokenParams} {salt wasmHash : BytesN32}

instance : @Lockstep Env World Error (no_index (Option x.Reply)) env Older (tryCall x) := by
  refine ⟨fun w v h => ?_⟩
  have hreply : (env.host w x).map Prod.fst = (env.host v x).map Prod.fst :=
    Env.Isolated.reply_eq h.contracts h.calls h.events
  have hlog (ok : Bool) : Older (w.logCall x ok) (v.logCall x ok) := by
    refine h.of_storage rfl rfl h.contracts ?_ h.events
    rw [World.calls_logCall, World.calls_logCall, h.calls]
  unfold tryCall
  rcases hw : env.host w x with _ | ⟨r, s⟩ <;> rcases hv : env.host v x with _ | ⟨r', s'⟩ <;>
    rw [hw, hv] at hreply
  · exact ⟨rfl, hlog false⟩
  · cases hreply
  · cases hreply
  · obtain rfl := Env.NoReentry.storage_eq hw
    obtain rfl := Env.NoReentry.storage_eq hv
    obtain rfl := Option.some.inj hreply
    exact ⟨rfl, hlog true⟩

instance : @Lockstep Env World Error (no_index x.Reply) env Older (invoke x) := by
  unfold invoke
  refine .andThen inferInstance fun o => ?_
  split <;> infer_instance

instance {decimals : ℕ} {name symbol : Bytes} :
    Lockstep env Older (initializeToken token payer decimals name symbol) := by
  unfold initializeToken
  infer_instance

instance : Lockstep env Older (mintToken token recipient amount) := by
  unfold mintToken
  infer_instance

instance : Lockstep env Older (balanceOfToken token holder) := by
  unfold balanceOfToken
  infer_instance

instance : Lockstep env Older (burnToken token holder amount) := by
  unfold burnToken
  infer_instance

instance : Lockstep env Older (updateCurrentContractWasm wasmHash) := by
  unfold updateCurrentContractWasm
  infer_instance

instance : Lockstep env Older (tryTransfer token payer recipient amount) := by
  unfold tryTransfer
  infer_instance

instance : Lockstep env Older (deploy creator salt wasmHash) := by
  have hadd (a : Address) : Lockstep env Older
      (modifyWorld fun _ w => w.addContract a wasmHash : ContractM Unit) := by
    refine .modifyWorld fun {w v} h => h.of_storage rfl rfl ?_ h.calls h.events
    rw [World.contracts_addContract, World.contracts_addContract, h.contracts]
  unfold deploy
  refine .andThen inferInstance fun a => .getWorld (fun h => ?_) fun w => inferInstance
  rw [h.contracts]

instance {shares : List (Address × ℤ)} {extra : ℤ} :
    Lockstep env Older (payShares token payer shares extra) := by
  induction shares generalizing extra with
  | nil =>
    unfold payShares
    infer_instance
  | cons share shares ih =>
    unfold payShares
    infer_instance

instance : Lockstep env Older (payTreasury st payer amount) := by
  unfold payTreasury
  infer_instance

instance : Lockstep env Older (distributeFee st payer amount) := by
  unfold distributeFee
  refine .andThen inferInstance fun o => ?_
  split
  · unfold distributeSplit
    infer_instance
  · infer_instance

instance : Lockstep env Older (mintInitialSupply token creator p) := by
  unfold mintInitialSupply
  infer_instance

instance : Lockstep env Older (recordToken creator p st) := by
  unfold recordToken
  iterate 6 refine .andThen inferInstance fun _ => ?_
  infer_instance

instance {ps : List BatchTokenParams} {addresses : List Address} :
    Lockstep env Older (recordTokens creator ps addresses st) := by
  induction ps generalizing addresses st with
  | nil =>
    unfold recordTokens
    infer_instance
  | cons p ps ih =>
    unfold recordTokens
    infer_instance

instance : Lockstep env Older (createTokenInner creator p st) := by
  unfold createTokenInner
  infer_instance

end

/-! ### Entrypoints -/

-- the instances follow the functions statement by statement, so a long function needs many
set_option synthInstance.maxSize 512

section

variable {admin newAdmin address token : Address} {hash : BytesN32} {enabled : Bool} {amount : ℤ}

instance : Lockstep env Older (addToWhitelist admin address) := by
  unfold addToWhitelist
  infer_instance

/-- The persistent entries of `k` are gone, and what an older binary has left of it may still be there. -/
def Cleared (k : DataKey) (w v : World) : Prop :=
  ∃ w₀ v₀, Older w₀ v₀ ∧ OnlyEntry k w₀ w ∧ OnlyEntry k v₀ v ∧ w.storage.persistent k = none ∧
    v.storage.persistent k = none ∧ v.storage.inst k = none

/-- The removal of an entry from both tiers, one after the other. -/
theorem couples_removePersistent [hk : k.Entry] : Couples env Older
    (modifyWorld fun _ w => w.removePersistent k : ContractM Unit) (Cleared k) := by
  intro w v h
  refine ⟨rfl, w, v, h, .removePersistent, .removePersistent, ?_, ?_, ?_⟩
  · rw [World.storage_removePersistent, persistent_removePersistent_self]
  · rw [World.storage_removePersistent, persistent_removePersistent_self]
  · rw [World.storage_removePersistent, inst_removePersistent]
    exact (h.entry k hk.isLazy hk.isList).2

theorem couples_removeInst [k.Entry] : Couples env (Cleared k) (removeInst k) Older := by
  rintro w v ⟨w₀, v₀, h, hw, hv, hpersistent, hpersistent', -⟩
  refine ⟨rfl, h.update (hw.trans .removeInst) (hv.trans .removeInst) ?_ ?_ fun _ => ?_⟩
  · rw [World.storage_removeInst, World.storage_removeInst, lookup_of_inst_none inst_removeInst_self,
      persistent_removeInst, persistent_removeInst, hpersistent, hpersistent']
  · rw [World.storage_removeInst, inst_removeInst_self]
  · rw [World.storage_removeInst, inst_removeInst_self]

instance : Lockstep env Older (removeFromWhitelist admin address) := by
  have hremove : Lockstep env Older (do
      modifyWorld fun _ w => w.removePersistent (.whitelist address)
      removeInst (.whitelist address)
      publish (.wlRm address) : ContractM Unit) := by
    refine ⟨couples_removePersistent.bind fun _ => couples_removeInst.bind fun _ => ?_⟩
    exact Lockstep.couples
  unfold removeFromWhitelist
  refine .andThen inferInstance fun _ => .andThen inferInstance fun _ => ?_
  exact .andThen inferInstance fun _ => hremove

instance : Lockstep env Older (freezeMetadata token admin) := by
  unfold freezeMetadata
  infer_instance

instance {splits : FeeSplit} : Lockstep env Older (setFeeSplit admin splits) := by
  unfold setFeeSplit
  iterate 3 refine .andThen inferInstance fun _ => ?_
  split <;> infer_instance

instance : Lockstep env Older (backfillCappedSupply admin token amount) := by
  unfold backfillCappedSupply
  iterate 8 refine .andThen inferInstance fun _ => ?_
  infer_instance

instance : Lockstep env Older (backfillTokenAddress token) := by
  unfold backfillTokenAddress
  infer_instance

instance : Lockstep env Older (setWhitelistEnabled admin enabled) := by
  unfold setWhitelistEnabled
  infer_instance

instance : Lockstep env Older (pause admin) := by
  unfold pause
  infer_instance

instance : Lockstep env Older (unpause admin) := by
  unfold unpause
  infer_instance

instance {baseFee metadataFee : Option ℤ} : Lockstep env Older (updateFees admin baseFee metadataFee) := by
  unfold updateFees
  infer_instance

instance : Lockstep env Older (proposeUpgrade admin hash) := by
  unfold proposeUpgrade
  infer_instance

instance : Lockstep env Older (cancelUpgrade admin) := by
  unfold cancelUpgrade
  iterate 3 refine .andThen inferInstance fun _ => ?_
  split <;> infer_instance

instance : Lockstep env Older (proposeAdmin admin newAdmin) := by
  unfold proposeAdmin
  infer_instance

instance : Lockstep env Older (acceptAdmin newAdmin) := by
  unfold acceptAdmin
  infer_instance

instance : Lockstep env Older (cancelAdminProposal admin) := by
  unfold cancelAdminProposal
  iterate 3 refine .andThen inferInstance fun _ => ?_
  split <;> infer_instance

instance {name : Symbol} : Lockstep env Older (proposeAdminViaLegacyAlias admin newAdmin name) := by
  unfold proposeAdminViaLegacyAlias
  infer_instance

instance : Lockstep env Older (transferAdmin admin newAdmin) := by
  unfold transferAdmin
  infer_instance

instance : Lockstep env Older (updateAdmin admin newAdmin) := by
  unfold updateAdmin
  infer_instance

instance : Lockstep env Older (setBurnEnabled token admin enabled) := by
  unfold setBurnEnabled
  infer_instance

instance {α : Type} {f : α → Ret} {x : ContractM α} [Lockstep env Older x] :
    Lockstep env Older (wrap f x) := by
  unfold wrap
  infer_instance

section

variable [env.NoReentry] [env.Isolated] {recipient holder creator : Address} {feePayment : ℤ} {uri : Bytes}

instance : Lockstep env Older (executeUpgrade admin hash) := by
  unfold executeUpgrade
  iterate 6 refine .andThen inferInstance fun _ => ?_
  infer_instance

instance : Lockstep env Older (burn token holder amount) := by
  unfold burn
  iterate 6 refine .andThen inferInstance fun _ => ?_
  refine .andThen inferInstance fun o => ?_
  split <;> infer_instance

instance : Lockstep env Older (setMetadata token admin uri feePayment) := by
  unfold setMetadata
  iterate 12 refine .andThen inferInstance fun _ => ?_
  infer_instance

instance : Lockstep env Older (mintTokens token admin recipient amount feePayment) := by
  unfold mintTokens
  iterate 8 refine .andThen inferInstance fun _ => ?_
  infer_instance

/-- An error of a creation is handed on, whatever it has left behind. -/
instance {p : BatchTokenParams} : Lockstep env Older (createToken creator p feePayment) := by
  unfold createToken
  iterate 7 refine .andThen inferInstance fun _ => ?_
  refine .andThen inferInstance fun st => ?_
  refine ⟨Couples.attempt Lockstep.couples (fun a => Lockstep.couples) fun r => ?_⟩
  exact .of_throws (r := r) fun w => ⟨w.saveState env { st with locked := false }, rfl⟩

instance {tokens : List BatchTokenParams} :
    Lockstep env Older (createTokensBatch creator tokens feePayment) := by
  unfold createTokensBatch
  iterate 8 refine .andThen inferInstance fun _ => ?_
  infer_instance

end

end

/-! ### The walk of `migrate` -/

/-- No `TokenInfo` of the older storage lies in both tiers. -/
def Walking (w v : World) : Prop := Older w v ∧ ∀ i, Single (.tokenInfo i) w.storage

section

variable {admin : Address} {version : ℕ} {update : FactoryState → FactoryState}

instance [hk : k.Plain] :
    @Lockstep Env World Error (no_index (Option k.Val)) env Walking (getInst k) :=
  .read fun h => h.1.plain k hk.eq

instance [hk : k.Plain] {x : k.Val} : Lockstep env Walking (setInst k x) := by
  refine .modifyWorld fun {w v} h => ⟨h.1.setInst x, fun i => ?_⟩
  have hne : .tokenInfo i ≠ k := DataKey.Plain.ne rfl
  exact (settles_setInst hne).single (h.2 i)

instance : Lockstep env Walking (saveState st) := by
  refine .modifyWorld fun {w v} h => ⟨h.1.saveState, fun i => ?_⟩
  have hset : Settles (.tokenInfo i) w.storage (w.setInst .state st.encode).storage :=
    settles_setInst (by simp)
  exact (hset.trans settles_extendInstTtl).single (h.2 i)

instance : Lockstep env Walking loadState := by
  unfold loadState
  refine .getWorld (fun h => ?_) fun w => ?_
  · rw [h.1.plain .state rfl]
  · split
    · infer_instance
    · split <;> infer_instance

instance : Lockstep env Walking (requireAuth c) := by
  unfold requireAuth
  infer_instance

instance : Lockstep env Walking (completeSchemaStep version update) := by
  unfold completeSchemaStep
  infer_instance

instance : Lockstep env Walking (migrateV4V5 version) := by
  unfold migrateV4V5
  infer_instance

/-- One round of the walk: the entry of the older storage moves if it has to. -/
theorem Walking.moveUp (h : Walking w v) : Walking (w.moveUp env (.tokenInfo i)) v := by
  obtain ⟨hlookup, hnone⟩ := h.1.entry (.tokenInfo i) rfl rfl
  have hsettled (j : ℕ) : Settles (.tokenInfo j) w.storage (w.moveUp env (.tokenInfo i)).storage :=
    settles_moveUp fun _ => h.2 j
  refine ⟨h.1.update (k := .tokenInfo i) .moveUp (.refl v) ?_ hnone fun _ => ?_, fun j => ?_⟩
  · rw [(hsettled i).lookup_eq, hlookup]
  · exact inst_moveUp_self
  · exact (hsettled j).single (h.2 j)

/-- **The walk**, which has nothing to do in the migrated storage. -/
theorem Walking.walk (env : Env) (h : Walking w v) (n i : ℕ) :
    ∃ w', (moveTokenInfos i n).Returns env w () w' ∧ (moveTokenInfos i n).Returns env v () v ∧
      Walking w' v := by
  induction n generalizing i w with
  | zero =>
    have hdone (s : World) : (moveTokenInfos i 0).Returns env s () s := by
      rw [moveTokenInfos]
      exact returns_pure.mpr ⟨rfl, rfl⟩
    exact ⟨w, hdone w, hdone v, h⟩
  | succ n ih =>
    have hnone : v.storage.inst (.tokenInfo i) = none := (h.1.entry _ rfl rfl).2
    have hstay : v.moveUp env (.tokenInfo i) = v := by
      rw [World.moveUp, World.mapStorage, moveUp_of_none hnone]
    obtain ⟨w', hw', hv', h'⟩ := ih h.moveUp (i + 1)
    refine ⟨w', returns_moveTokenInfos_succ.mpr hw', ?_, h'⟩
    rw [returns_moveTokenInfos_succ, hstay]
    exact hv'

instance : Lockstep env Walking (moveTokenInfos i n) := by
  refine ⟨fun w v h => ?_⟩
  obtain ⟨w', hw', hv', h'⟩ := h.walk env n i
  rw [show moveTokenInfos i n env w = some (.ok (), w') from hw',
    show moveTokenInfos i n env v = some (.ok (), v) from hv']
  exact ⟨rfl, h'⟩

instance {tokenCount : ℕ} : Lockstep env Walking (migrateV3 tokenCount version) := by
  unfold migrateV3
  infer_instance

instance : Lockstep env Walking (migrate admin) := by
  unfold migrate
  iterate 4 refine .andThen inferInstance fun _ => ?_
  -- each conditional step stands before a copy of the rest of the function
  dsimp only
  split_ifs <;>
  · refine .andThen inferInstance fun _ => ?_
    split_ifs <;> infer_instance

end

/-! ### Views -/

/-- The view asks for a slice of a list that is not empty but still has its older form. -/
def Call.Hides (w : World) : Call → Prop
  | .view (.getTokensByCreator creator offset limit) => ∃ legacy, Unmigrated w creator legacy ∧
      (legacy.drop offset).take (min limit MAX_TOKENS_BY_CREATOR_PAGE) ≠ []
  | _ => False

variable {offset limit : ℕ} {call : Call}

/-- **A list of the older form is not seen.** -/
theorem getTokensByCreator_of_unmigrated (env : Env) (h : Unmigrated w c l)
    (hcount : w.storage.inst (.creatorTokenCount c) = none) (offset limit : ℕ) :
    (getTokensByCreator c offset limit).Returns env w [] w := by
  have htotal : w.storage.lookup (.creatorTokenCount c) = none := by
    rw [lookup_of_inst_none hcount, h.count]
  unfold getTokensByCreator
  split_ifs with hlimit
  · exact returns_pure.mpr ⟨rfl, rfl⟩
  · refine returns_bind.mpr ⟨none, w, returns_readAddrKeyed.mpr ⟨htotal, rfl⟩, ?_⟩
    have hpast : offset ≥ (none : Option ℕ).getD 0 := Nat.zero_le offset
    dsimp only
    rw [if_pos hpast]
    exact returns_pure.mpr ⟨rfl, rfl⟩

/-- In the migrated storage the view is a slice of the list. -/
theorem getTokensByCreator_of_hasPages (env : Env) (h : HasPages v c l)
    (hcount : v.storage.inst (.creatorTokenCount c) = none) (offset limit : ℕ) :
    (getTokensByCreator c offset limit).Returns env v
      ((l.drop offset).take (min limit MAX_TOKENS_BY_CREATOR_PAGE)) v := by
  cases h with
  | none h =>
    rw [List.drop_nil, List.take_nil]
    exact getTokensByCreator_of_unmigrated env h hcount offset limit
  | paged h => exact h.returns_getTokensByCreator env offset limit

/-- A slice that is hidden is shown in the migrated storage. -/
theorem Older.exec_of_hides (env : Env) (h : Older w v) (hhides : call.Hides w) :
    ∃ slice, slice ≠ [] ∧ call.exec.Returns env w (.indices []) w ∧
      call.exec.Returns env v (.indices slice) v := by
  cases call <;> try exact hhides.elim
  rename_i view
  cases view <;> try exact hhides.elim
  rename_i c offset limit
  obtain ⟨legacy, hlegacy, hslice⟩ := hhides
  obtain ⟨l, hl, hl'⟩ := h.list c
  -- the list that is hidden is the list that the migrated world shows
  have hsame : legacy = l := by
    cases hl with
    | old hold _ => exact hlegacy.list.symm.trans hold.list
    | paged hpaged =>
      have hcount := hpaged.count
      rw [hlegacy.count] at hcount
      cases hcount
  subst hsame
  exact ⟨_, hslice,
    returns_wrap.mpr ⟨_, getTokensByCreator_of_unmigrated env hlegacy (h.counts c).1 offset limit, rfl⟩,
    returns_wrap.mpr ⟨_, getTokensByCreator_of_hasPages env hl' (h.counts c).2 offset limit, rfl⟩⟩

/-- What is not hidden is the same in both storages. -/
theorem Older.getTokensByCreator (env : Env) (h : Older w v)
    (hshown : ¬ (Call.view (.getTokensByCreator c offset limit)).Hides w) :
    ∃ slice, (getTokensByCreator c offset limit).Returns env w slice w ∧
      (getTokensByCreator c offset limit).Returns env v slice v := by
  obtain ⟨l, hl, hl'⟩ := h.list c
  refine ⟨_, ?_, getTokensByCreator_of_hasPages env hl' (h.counts c).2 offset limit⟩
  cases hl with
  | old hold _ =>
    have hempty : (l.drop offset).take (min limit MAX_TOKENS_BY_CREATOR_PAGE) = [] := by
      by_contra hne
      exact hshown ⟨l, hold, hne⟩
    rw [hempty]
    exact getTokensByCreator_of_unmigrated env hold (h.counts c).1 offset limit
  | paged hpaged => exact hpaged.returns_getTokensByCreator env offset limit

/-- The other views read entries, or the state. -/
theorem lockstep_view {view : View} (h : ∀ c offset limit, view ≠ .getTokensByCreator c offset limit) :
    Lockstep env Older view.exec := by
  cases view with
  | getTokensByCreator c offset limit => exact absurd rfl (h c offset limit)
  | _ =>
    unfold View.exec
    simp only [Factory.isWhitelisted, Factory.isMetadataFrozen, Factory.getMetadataVersion,
      Factory.getFeeSplit, Factory.getState, Factory.getBaseFee, Factory.getMetadataFee,
      Factory.getTokenInfo, Factory.getTokenIndex, Factory.getTokenAddress,
      Factory.getTokenInfoByAddress, Factory.getMetadata]
    infer_instance

/-- The calls that are neither a view nor `migrate`. -/
theorem lockstep_exec [env.NoReentry] [env.Isolated] (hmigrate : ∀ admin, call ≠ .migrate admin)
    (hview : ∀ view, call ≠ .view view) : Lockstep env Older call.exec := by
  cases call with
  | migrate admin => exact absurd rfl (hmigrate admin)
  | view view => exact absurd rfl (hview view)
  | _ =>
    unfold Call.exec
    infer_instance

theorem couples_migrate {admin : Address} : Couples env Walking (Call.migrate admin).exec Older := by
  have hmigrate : Lockstep env Walking (migrate admin) := inferInstance
  exact (hmigrate.couples.mono (fun _ _ h => h) fun _ _ h => h.1).bind fun _ => Lockstep.couples

/-- **Every call that hides nothing ends the same in both storages.** -/
theorem Walking.exec (env : Env) [env.NoReentry] [env.Isolated] (h : Walking w v) (hshown : ¬ call.Hides w) :
    Matches Older (call.exec env w) (call.exec env v) := by
  -- three kinds of calls are read apart: the listing, the migration and the other views
  by_cases hlisting : ∃ c offset limit, call = .view (.getTokensByCreator c offset limit)
  · obtain ⟨c, offset, limit, rfl⟩ := hlisting
    obtain ⟨slice, hslice, hslice'⟩ := h.1.getTokensByCreator env hshown
    have hw : (Call.view (.getTokensByCreator c offset limit)).exec.Returns env w (.indices slice) w :=
      returns_wrap.mpr ⟨slice, hslice, rfl⟩
    have hv : (Call.view (.getTokensByCreator c offset limit)).exec.Returns env v (.indices slice) v :=
      returns_wrap.mpr ⟨slice, hslice', rfl⟩
    rw [show Call.exec _ env w = some (.ok _, w) from hw, show Call.exec _ env v = some (.ok _, v) from hv]
    exact ⟨rfl, h.1⟩
  · by_cases hmigrate : ∃ admin, call = .migrate admin
    · obtain ⟨admin, rfl⟩ := hmigrate
      exact couples_migrate w v h
    · by_cases hview : ∃ view, call = .view view
      · obtain ⟨view, rfl⟩ := hview
        refine (lockstep_view fun c offset limit heq => hlisting ⟨c, offset, limit, ?_⟩).couples w v h.1
        rw [heq]
      · exact (lockstep_exec (fun admin heq => hmigrate ⟨admin, heq⟩)
          fun view heq => hview ⟨view, heq⟩).couples w v h.1

/-! ### Runs -/

variable {w₀ v₀ : World} {st₀ : FactoryState} {h : List Invocation}

theorem Walking.of_migrating (hsame : Older w v) (hw : ∃ st, Migrating w st) : Walking w v := by
  obtain ⟨st, hw⟩ := hw
  exact ⟨hsame, hw.tiered.single⟩

theorem exists_migrating (hw : Migrating w₀ st₀) (hr : Run Step w₀ h w) : ∃ st, Migrating w st := by
  refine hr.invariant (I := fun w => ∃ st, Migrating w st) ?_ ⟨st₀, hw⟩
  rintro w i w' ⟨st, hw⟩ hs
  obtain ⟨st', hw', -⟩ := hw.step hs
  exact ⟨st', hw'⟩

/-- A run that hides nothing is a run of the migrated storage. -/
theorem exists_run_of_shown (hstart : Older w₀ v₀) (hw₀ : Migrating w₀ st₀)
    (hr : Guarded Step (fun _ w i => ¬ i.call.Hides w) w₀ h w) (henv : ∀ i ∈ h, i.env.Isolated) :
    ∃ v, Run Step v₀ h v ∧ Older w v ∧ Run Step w₀ h w := by
  induction hr with
  | nil => exact ⟨v₀, .nil, hstart, .nil⟩
  | @snoc h i w w' _ hshown hs ih =>
    obtain ⟨v, hrv, hsame, hrw⟩ := ih fun i hi => henv i (List.mem_cons_of_mem _ hi)
    have hre : i.env.NoReentry := hs.1
    have hisolated : i.env.Isolated := henv i List.mem_cons_self
    have hwalking : Walking w v := .of_migrating hsame (exists_migrating hw₀ hrw)
    have hmatches := hwalking.exec i.env hshown
    rw [show i.call.exec i.env w = some (.ok i.ret, w') from hs.2] at hmatches
    obtain ⟨v', hv', hsame'⟩ := hmatches.exists_returns
    exact ⟨v', hrv.snoc ⟨hre, hv'⟩, hsame', hrw.snoc hs⟩

/-- A run of both storages hides nothing, and leaves them alike. -/
theorem shown_of_run (hstart : Older w₀ v₀) (hw₀ : Migrating w₀ st₀) (hrw : Run Step w₀ h w)
    (hrv : Run Step v₀ h v) (henv : ∀ i ∈ h, i.env.Isolated) :
    Guarded Step (fun _ w i => ¬ i.call.Hides w) w₀ h w ∧ Older w v := by
  induction hrw generalizing v with
  | nil =>
    obtain rfl := Run.nil_iff.mp hrv
    exact ⟨.nil, hstart⟩
  | @snoc h i w w' hrw hs ih =>
    -- by induction on the run of the older world; the migrated one follows call by call
    obtain ⟨v₁, hrv, hsv⟩ := Run.cons_iff.mp hrv
    obtain ⟨hguarded, hsame⟩ := ih hrv fun i hi => henv i (List.mem_cons_of_mem _ hi)
    have hre : i.env.NoReentry := hs.1
    have hisolated : i.env.Isolated := henv i List.mem_cons_self
    have hwalking : Walking w v₁ := .of_migrating hsame (exists_migrating hw₀ hrw)
    -- a view that hides something would return different indices in the two worlds
    have hshown : ¬ i.call.Hides w := by
      intro hhides
      obtain ⟨slice, hne, hhidden, hslice⟩ := hsame.exec_of_hides i.env hhides
      obtain ⟨hret, -⟩ := hhidden.unique hs.2
      obtain ⟨hret', -⟩ := hslice.unique hsv.2
      exact hne (Ret.indices.inj (hret'.trans hret.symm))
    have hmatches := hwalking.exec i.env hshown
    rw [show i.call.exec i.env w = some (.ok i.ret, w') from hs.2] at hmatches
    obtain ⟨v', hv', hsame'⟩ := hmatches.exists_returns
    obtain ⟨-, rfl⟩ := Returns.unique hsv.2 hv'
    exact ⟨hguarded.snoc hshown hs, hsame'⟩

/-- **Lazy migration is invisible, but for one view.**  `w₀` is a storage of an older binary and `v₀` the
migrated storage with the same records.  A run over `w₀` is a run over `v₀`, with the same results of every
call, if and only if no call of `get_tokens_by_creator` in it asks for a slice of a list that still has its
older form and is not empty.  Then the storages reached have the same records, and every further call that
hides nothing ends the same in both. -/
theorem migration_invisible_iff (hstart : Older w₀ v₀) (hw₀ : Migrating w₀ st₀) (hr : Run Step w₀ h w)
    (henv : ∀ i ∈ h, i.env.Isolated) :
    (Guarded Step (fun _ w i => ¬ i.call.Hides w) w₀ h w ↔ ∃ v, Run Step v₀ h v) ∧
      ∀ v, Run Step v₀ h v → Older w v ∧ ∀ (env : Env) (call : Call), env.NoReentry → env.Isolated →
        ¬ call.Hides w → (call.exec env w).map Prod.fst = (call.exec env v).map Prod.fst := by
  refine ⟨⟨fun hshown => ?_, fun ⟨v, hrv⟩ => (shown_of_run hstart hw₀ hr hrv henv).1⟩, fun v hrv => ?_⟩
  · obtain ⟨v, hrv, -⟩ := exists_run_of_shown hstart hw₀ hshown henv
    exact ⟨v, hrv⟩
  · obtain ⟨-, hsame⟩ := shown_of_run hstart hw₀ hr hrv henv
    refine ⟨hsame, fun env call hre hisolated hshown => ?_⟩
    have hwalking : Walking w v := .of_migrating hsame (exists_migrating hw₀ hr)
    exact (hwalking.exec env hshown).outcome_eq

namespace SampleLayouts

/-- Token `50` of `5`, all of whose entries are in the instance tier, with the list of `5` in one value. -/
def older : World := SampleWalk.world₀.setInst (.legacyCreatorTokens ⟨5⟩) [1]

/-- The same records in the persistent tier, with the list of `5` in pages. -/
def migrated : World :=
  (((((((World.genesis.setInst .state SampleWalk.state.encode).setInst .sv (2 : ℕ)).setPersistent
    (permissiveEnv 10 ⟨5⟩) (.tokenInfo 1) SampleWalk.tokenInfo).setPersistent
    (permissiveEnv 10 ⟨5⟩) (.tokenIndex ⟨50⟩) (1 : ℕ)).setPersistent
    (permissiveEnv 10 ⟨5⟩) (.owner ⟨50⟩) (⟨5⟩ : Address)).setPersistent
    (permissiveEnv 10 ⟨5⟩) (.creatorTokens ⟨5⟩ 0) [1]).setPersistent
    (permissiveEnv 10 ⟨5⟩) (.creatorTokenCount ⟨5⟩) (1 : ℕ))

theorem inst_older {i : ℕ} (hi : i ≠ 1) : older.storage.inst (.tokenInfo i) = none := by
  rw [older, World.storage_setInst, inst_setInst_of_ne (by simp)]
  exact SampleWalk.inst_world₀ hi

theorem migrating : Migrating older SampleWalk.state where
  state := rfl
  tiered := by
    refine ⟨fun i v _ => rfl, fun i v hv => ?_, by decide⟩
    by_cases hi : i = 1
    · rw [hi]
      decide
    · rw [inst_older hi] at hv
      cases hv
  complete i h₁ h₂ := by
    obtain rfl : i = 1 := le_antisymm h₂ h₁
    rfl
  version h := absurd h (by decide)

/-- The list of an address, in both storages. -/
theorem list (c : Address) : ∃ l, HasList older c l ∧ HasPages migrated c l := by
  by_cases hc : c = ⟨5⟩
  · subst hc
    refine ⟨[1], .old ⟨rfl, rfl, fun p => rfl⟩ (by decide), .paged ⟨rfl, fun p => ?_, by decide⟩⟩
    cases p with
    | zero => rfl
    | succ p =>
      simp [migrated, World.genesis, page, MAX_TOKENS_BY_CREATOR_PAGE]
  · refine ⟨[], .old ⟨?_, rfl, fun p => rfl⟩ (by decide), .none ⟨rfl, ?_, fun p => ?_⟩⟩
    · simp [older, SampleWalk.world₀, World.genesis, hc]
    · simp [migrated, World.genesis, hc]
    · simp [migrated, World.genesis, hc]

/-- The migrated world has the same entries. -/
theorem same : Older older migrated where
  plain k hk := by
    cases k <;> first | rfl | cases hk
  -- one token, so each map has one key where the layouts could differ
  entry k hlazy hlist := by
    cases k with
    | tokenInfo i =>
      refine ⟨?_, rfl⟩
      by_cases hi : i = 1
      · rw [hi]
        rfl
      · simp [older, migrated, SampleWalk.world₀, World.genesis, Storage.lookup, hi]
    | tokenIndex a =>
      refine ⟨?_, rfl⟩
      by_cases ha : a = ⟨50⟩
      · rw [ha]
        rfl
      · simp [older, migrated, SampleWalk.world₀, World.genesis, Storage.lookup, ha]
    | owner a =>
      refine ⟨?_, rfl⟩
      by_cases ha : a = ⟨50⟩
      · rw [ha]
        rfl
      · simp [older, migrated, SampleWalk.world₀, World.genesis, Storage.lookup, ha]
    | creatorTokens c p => cases hlist
    | creatorTokenCount c => cases hlist
    | legacyCreatorTokens c => cases hlist
    | _ => first | exact ⟨rfl, rfl⟩ | cases hlazy
  address _ := rfl
  list := list
  pages _ _ := ⟨rfl, rfl⟩
  counts _ := ⟨rfl, rfl⟩
  contracts := rfl
  calls := rfl
  events := rfl

/-- The creator stops burning. -/
def burnStopped : Invocation := ⟨permissiveEnv 20 ⟨5⟩, .setBurnEnabled ⟨50⟩ ⟨5⟩ false, .unit⟩

/-- A request for the list of the creator. -/
def listed : Invocation := ⟨permissiveEnv 21 ⟨9⟩, .view (.getTokensByCreator ⟨5⟩ 0 10), .indices []⟩

/-- The older world after burns have been stopped. -/
def older₁ : World := burnStopped.call.exec.commit burnStopped.env older

/-- The older world after the creator's tokens have been listed too. -/
def older₂ : World := listed.call.exec.commit listed.env older₁

theorem step₁ : Step older burnStopped older₁ := step_commit inferInstance rfl

theorem step₂ : Step older₁ listed older₂ := step_commit inferInstance rfl

end SampleLayouts

/-- The request is answered with the empty list, which is no answer of the migrated storage. -/
theorem migration_invisible_iff_sampleLayouts :
    (∃ v, Run Step SampleLayouts.migrated [SampleLayouts.burnStopped] v) ∧
      ¬ ∃ v, Run Step SampleLayouts.migrated [SampleLayouts.listed, SampleLayouts.burnStopped] v := by
  have henv : ∀ i ∈ [SampleLayouts.listed, SampleLayouts.burnStopped], i.env.Isolated := by
    simp only [List.forall_mem_cons]
    exact ⟨inferInstanceAs (permissiveEnv 21 ⟨9⟩).Isolated,
      inferInstanceAs (permissiveEnv 20 ⟨5⟩).Isolated, by simp⟩
  have hr : Run Step SampleLayouts.older [SampleLayouts.burnStopped] SampleLayouts.older₁ :=
    .snoc .nil SampleLayouts.step₁
  obtain ⟨hshown, -⟩ := migration_invisible_iff SampleLayouts.same SampleLayouts.migrating hr
    fun i hi => henv i (List.mem_cons_of_mem _ hi)
  obtain ⟨hhidden, -⟩ := migration_invisible_iff SampleLayouts.same SampleLayouts.migrating
    (hr.snoc SampleLayouts.step₂) henv
  refine ⟨hshown.mp (.snoc .nil (by rintro ⟨⟩) SampleLayouts.step₁), fun h => ?_⟩
  have hguarded := hhidden.mpr h
  cases hguarded with
  | snoc hrest hne _ =>
    cases hrest with
    | snoc hnil _ hs =>
      cases hnil
      obtain ⟨-, rfl⟩ := SampleLayouts.step₁.2.unique hs.2
      exact hne ⟨[1], ⟨rfl, rfl, fun p => rfl⟩, by decide⟩

end StellarForge.Factory
