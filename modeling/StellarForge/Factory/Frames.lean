import StellarForge.Soroban.Frame
import StellarForge.Factory.Entrypoint

/-!
# Frame rules for the parts of the contract

`Moves R x` for every part `x` of the contract, for a preorder `R` on worlds that has the moves `x` is
made of.  `HelperFrame R` has the moves that write no entry: events, lifetimes, and the move of an
entry between the two tiers; `MinorFrame R` leaves out the events that tell of a new token or of
metadata, `BaseFrame R` also the move of the entries that are never moved, and `MayPublish R ev` has
the event `ev`.  `MayWrite R k` has the writes of the key `k`, and
`MayCall E R c` the call `c` to another contract in the environments `E`.

`Own` is the smallest frame that is used: no calls to other contracts, and the stored state stays.
-/

namespace StellarForge.Factory

open Soroban Contract

/-! ### Frames -/

/-- A preorder that has the moves which write no entry. -/
class HelperFrame (R : World → World → Prop) : Prop extends Std.Refl R, IsTrans World R where
  publish : ∀ {w : World} (ev : Event), R w (w.publish ev)
  addContract : ∀ {w : World} (a : Address) (h : BytesN32), R w (w.addContract a h)
  extendTtl : ∀ {w : World} (env : Env) (k : DataKey), R w (w.extendTtl env k)
  extendInstTtl : ∀ {w : World} (env : Env), R w (w.extendInstTtl env)
  migrateAddrKeyed : ∀ {w : World} (env : Env) {k : DataKey}, .state ≠ k →
    R w (w.migrateAddrKeyed env k)

/-- The event tells neither of a new token nor of metadata. -/
def Event.isMinor : Event → Bool
  | .created .. | .metaSet .. => false
  | _ => true

/-- The event is a minor one, as an instance. -/
class Event.Minor (ev : Event) : Prop where
  eq : ev.isMinor = true

/-- The same preorders, except that of the events only the minor ones are needed. -/
class MinorFrame (R : World → World → Prop) : Prop extends Std.Refl R, IsTrans World R where
  publish : ∀ {w : World} (ev : Event), ev.isMinor = true → R w (w.publish ev)
  addContract : ∀ {w : World} (a : Address) (h : BytesN32), R w (w.addContract a h)
  extendTtl : ∀ {w : World} (env : Env) (k : DataKey), R w (w.extendTtl env k)
  extendInstTtl : ∀ {w : World} (env : Env), R w (w.extendInstTtl env)
  migrateAddrKeyed : ∀ {w : World} (env : Env) {k : DataKey}, .state ≠ k →
    R w (w.migrateAddrKeyed env k)

/-- A key whose entry an older binary may have left in the instance tier. -/
def DataKey.isLazy : DataKey → Bool
  | .state | .split | .sv | .mig3cur => false
  | _ => true

/-- The key is migrated when it is read, as an instance. -/
class DataKey.Lazy (k : DataKey) : Prop where
  eq : k.isLazy = true

/-- The same preorders, except that of the entries only those are moved that may have to be. -/
class BaseFrame (R : World → World → Prop) : Prop extends Std.Refl R, IsTrans World R where
  publish : ∀ {w : World} (ev : Event), ev.isMinor = true → R w (w.publish ev)
  addContract : ∀ {w : World} (a : Address) (h : BytesN32), R w (w.addContract a h)
  extendTtl : ∀ {w : World} (env : Env) (k : DataKey), R w (w.extendTtl env k)
  extendInstTtl : ∀ {w : World} (env : Env), R w (w.extendInstTtl env)
  migrateAddrKeyed : ∀ {w : World} (env : Env) {k : DataKey}, k.isLazy = true →
    R w (w.migrateAddrKeyed env k)

/-- `R` has the event `ev`. -/
class MayPublish (R : World → World → Prop) (ev : Event) : Prop where
  publish : ∀ {w : World}, R w (w.publish ev)

/-- `R` has the events of new tokens. -/
class CreatedFrame (R : World → World → Prop) : Prop where
  created : ∀ token creator name symbol, MayPublish R (.created token creator name symbol)

/-- `R` has the events of metadata. -/
class MetaFrame (R : World → World → Prop) : Prop where
  metaSet : ∀ token uri version, MayPublish R (.metaSet token uri version)

attribute [instance] CreatedFrame.created MetaFrame.metaSet

/-- `R` has the writes of the key `k`. -/
class MayWrite (R : World → World → Prop) (k : DataKey) : Prop where
  setPersistent : ∀ {w : World} (env : Env) (v : k.Val), R w (w.setPersistent env k v)
  removePersistent : ∀ {w : World}, R w (w.removePersistent k)
  setInst : ∀ {w : World} (v : k.Val), R w (w.setInst k v)
  removeInst : ∀ {w : World}, R w (w.removeInst k)

/-- `R` has the writes of a creator's token list. -/
class ListFrame (R : World → World → Prop) : Prop where
  page : ∀ creator p, MayWrite R (.creatorTokens creator p)
  count : ∀ creator, MayWrite R (.creatorTokenCount creator)
  legacy : ∀ creator, MayWrite R (.legacyCreatorTokens creator)

attribute [instance] ListFrame.page ListFrame.count ListFrame.legacy

/-- `R` has the writes of the other entries of a new token. -/
class TokenFrame (R : World → World → Prop) : Prop where
  info : ∀ index, MayWrite R (.tokenInfo index)
  index : ∀ token, MayWrite R (.tokenIndex token)

attribute [instance] TokenFrame.info TokenFrame.index

/-- `R` has the writes of the entries that belong to one address. -/
class EntryFrame (R : World → World → Prop) : Prop where
  tokenAddress : ∀ index, MayWrite R (.tokenAddress index)
  metadata : ∀ token, MayWrite R (.metadata token)
  metadataVersion : ∀ token, MayWrite R (.metadataVersion token)
  metadataFrozen : ∀ token, MayWrite R (.metadataFrozen token)
  owner : ∀ token, MayWrite R (.owner token)
  supply : ∀ token, MayWrite R (.supply token)
  backfilled : ∀ token, MayWrite R (.backfilled token)
  whitelist : ∀ address, MayWrite R (.whitelist address)
  split : MayWrite R .split

attribute [instance] EntryFrame.tokenAddress EntryFrame.metadata EntryFrame.metadataVersion
  EntryFrame.metadataFrozen EntryFrame.owner EntryFrame.supply EntryFrame.backfilled
  EntryFrame.whitelist EntryFrame.split

/-- `R` has the call `c` to another contract in the environments `E`. -/
class MayCall (E : Env → Prop) (R : World → World → Prop) (c : ExtCall) : Prop where
  tryCall : @MovesIn Env World Error (Option c.Reply) E R (tryCall c)

/-- `R` has the calls that pay a fee. -/
class PaymentFrame (E : Env → Prop) (R : World → World → Prop) : Prop where
  tryTransfer : ∀ token payer recipient amount,
    MayCall E R (.tryTransfer token payer recipient amount)

/-- `R` has the calls that make a token. -/
class CreationFrame (E : Env → Prop) (R : World → World → Prop) : Prop where
  deploy : ∀ deployer salt wasmHash, MayCall E R (.deploy deployer salt wasmHash)
  initToken : ∀ token admin decimals name symbol,
    MayCall E R (.initToken token admin decimals name symbol)
  mint : ∀ token recipient amount, MayCall E R (.mint token recipient amount)

/-- `R` has the calls that `burn` makes. -/
class BurnFrame (E : Env → Prop) (R : World → World → Prop) : Prop where
  balance : ∀ token holder, MayCall E R (.balance token holder)
  burn : ∀ token holder amount, MayCall E R (.burn token holder amount)

attribute [instance] PaymentFrame.tryTransfer CreationFrame.deploy CreationFrame.initToken
  CreationFrame.mint BurnFrame.balance BurnFrame.burn

section

variable {R : World → World → Prop} {E : Env → Prop} {w w' w₃ : World} {env : Env} {k : DataKey}

/-! ### Own moves -/

/-- No calls to other contracts, and the stored state stays. -/
def Own (w w' : World) : Prop := w'.calls = w.calls ∧ w'.state? = w.state?

/-- A preorder that has every move within `Own`. -/
class OwnFrame (R : World → World → Prop) : Prop extends Std.Refl R, IsTrans World R where
  own : ∀ {w w' : World}, Own w w' → R w w'

theorem Own.refl (w : World) : Own w w := ⟨rfl, rfl⟩

theorem Own.trans (h : Own w w') (h' : Own w' w₃) : Own w w₃ :=
  ⟨h'.1.trans h.1, h'.2.trans h.2⟩

instance : OwnFrame Own where
  refl := Own.refl
  trans _ _ _ := Own.trans
  own h := h

/-- Not the key of the factory state. -/
class DataKey.Other (k : DataKey) : Prop where
  ne : .state ≠ k

instance {i : ℕ} : DataKey.Other (.tokenInfo i) := ⟨nofun⟩

instance {a : Address} : DataKey.Other (.tokenIndex a) := ⟨nofun⟩

instance {a : Address} : DataKey.Other (.metadataVersion a) := ⟨nofun⟩

instance {a : Address} : DataKey.Other (.metadataFrozen a) := ⟨nofun⟩

instance {c : Address} : DataKey.Other (.legacyCreatorTokens c) := ⟨nofun⟩

instance {a : Address} : DataKey.Other (.owner a) := ⟨nofun⟩

instance {a : Address} : DataKey.Other (.supply a) := ⟨nofun⟩

instance {a : Address} : DataKey.Other (.backfilled a) := ⟨nofun⟩

instance {a : Address} : DataKey.Other (.whitelist a) := ⟨nofun⟩

instance {c : Address} {p : ℕ} : DataKey.Other (.creatorTokens c p) := ⟨nofun⟩

instance {c : Address} : DataKey.Other (.creatorTokenCount c) := ⟨nofun⟩

instance {i : ℕ} : DataKey.Other (.tokenAddress i) := ⟨nofun⟩

instance {a : Address} : DataKey.Other (.metadata a) := ⟨nofun⟩

instance : DataKey.Other .split := ⟨nofun⟩

instance : DataKey.Other .sv := ⟨nofun⟩

instance : DataKey.Other .mig3cur := ⟨nofun⟩

instance {i : ℕ} : DataKey.Lazy (.tokenInfo i) := ⟨rfl⟩

instance {a : Address} : DataKey.Lazy (.tokenIndex a) := ⟨rfl⟩

instance {a : Address} : DataKey.Lazy (.metadataVersion a) := ⟨rfl⟩

instance {a : Address} : DataKey.Lazy (.metadataFrozen a) := ⟨rfl⟩

instance {a : Address} : DataKey.Lazy (.owner a) := ⟨rfl⟩

instance {a : Address} : DataKey.Lazy (.supply a) := ⟨rfl⟩

instance {a : Address} : DataKey.Lazy (.backfilled a) := ⟨rfl⟩

/-- An entry that moves between the tiers is none of the state's. -/
theorem Own.migrateAddrKeyed (hk : .state ≠ k) : Own w (w.migrateAddrKeyed env k) := by
  unfold World.migrateAddrKeyed
  split
  · exact ⟨World.calls_extendTtl, rfl⟩
  · split
    · refine ⟨by rw [World.calls_removeInst, World.calls_setPersistent], ?_⟩
      rw [World.state?_removeInst_of_ne hk, World.state?_setPersistent]
    · exact .refl w

instance [OwnFrame R] : HelperFrame R where
  publish _ := OwnFrame.own ⟨rfl, rfl⟩
  addContract _ _ := OwnFrame.own ⟨rfl, rfl⟩
  extendTtl _ _ := OwnFrame.own ⟨World.calls_extendTtl, World.state?_extendTtl⟩
  extendInstTtl _ := OwnFrame.own ⟨World.calls_extendInstTtl, World.state?_extendInstTtl⟩
  migrateAddrKeyed _ _ hk := OwnFrame.own (.migrateAddrKeyed hk)

instance [OwnFrame R] [hk : k.Other] : MayWrite R k where
  setPersistent _ _ := OwnFrame.own ⟨World.calls_setPersistent, World.state?_setPersistent⟩
  removePersistent := OwnFrame.own ⟨World.calls_removePersistent, World.state?_removePersistent⟩
  setInst _ := OwnFrame.own ⟨World.calls_setInst, World.state?_setInst_of_ne hk.ne⟩
  removeInst := OwnFrame.own ⟨World.calls_removeInst, World.state?_removeInst_of_ne hk.ne⟩

instance [OwnFrame R] : ListFrame R := ⟨inferInstance, inferInstance, inferInstance⟩

instance [OwnFrame R] : TokenFrame R := ⟨inferInstance, inferInstance⟩

instance [OwnFrame R] : EntryFrame R :=
  ⟨inferInstance, inferInstance, inferInstance, inferInstance, inferInstance, inferInstance,
    inferInstance, inferInstance, inferInstance⟩

/-! ### Events -/

instance [HelperFrame R] : MinorFrame R where
  publish ev _ := HelperFrame.publish ev
  addContract := HelperFrame.addContract
  extendTtl := HelperFrame.extendTtl
  extendInstTtl := HelperFrame.extendInstTtl
  migrateAddrKeyed := HelperFrame.migrateAddrKeyed

instance [MinorFrame R] : BaseFrame R where
  publish := MinorFrame.publish
  addContract := MinorFrame.addContract
  extendTtl := MinorFrame.extendTtl
  extendInstTtl := MinorFrame.extendInstTtl
  migrateAddrKeyed env k hk := by
    refine MinorFrame.migrateAddrKeyed env ?_
    rintro rfl
    cases hk

instance [HelperFrame R] : CreatedFrame R := ⟨fun _ _ _ _ => ⟨HelperFrame.publish _⟩⟩

instance [HelperFrame R] : MetaFrame R := ⟨fun _ _ _ => ⟨HelperFrame.publish _⟩⟩

instance [BaseFrame R] {ev : Event} [hev : ev.Minor] : MayPublish R ev :=
  ⟨BaseFrame.publish ev hev.eq⟩

instance {a : Address} : Event.Minor (.init a) := ⟨rfl⟩

instance {a : Address} : Event.Minor (.wlAdd a) := ⟨rfl⟩

instance {a : Address} : Event.Minor (.wlRm a) := ⟨rfl⟩

instance {enabled : Bool} : Event.Minor (.wlTog enabled) := ⟨rfl⟩

instance {token a : Address} : Event.Minor (.metaFrz token a) := ⟨rfl⟩

instance {token a : Address} {amount : ℤ} : Event.Minor (.mint token a amount) := ⟨rfl⟩

instance {token a : Address} {amount : ℤ} : Event.Minor (.burn token a amount) := ⟨rfl⟩

instance {a : Address} : Event.Minor (.pause a) := ⟨rfl⟩

instance {a : Address} : Event.Minor (.unpause a) := ⟨rfl⟩

instance {a : Address} : Event.Minor (.splitClr a) := ⟨rfl⟩

instance {a : Address} {splits : List (Address × ℕ)} : Event.Minor (.splitSet a splits) := ⟨rfl⟩

instance {baseFee metadataFee : Option ℤ} : Event.Minor (.fees baseFee metadataFee) := ⟨rfl⟩

instance {a : Address} {share : ℤ} : Event.Minor (.feeRedir a share) := ⟨rfl⟩

instance {a : Address} {hash : BytesN32} {n : ℕ} : Event.Minor (.upgProp a hash n) := ⟨rfl⟩

instance {a : Address} {hash : BytesN32} : Event.Minor (.upgExec a hash) := ⟨rfl⟩

instance {a : Address} {hash : BytesN32} : Event.Minor (.upgCan a hash) := ⟨rfl⟩

instance {a b : Address} {n : ℕ} : Event.Minor (.admProp a b n) := ⟨rfl⟩

instance {a b : Address} : Event.Minor (.admAcc a b) := ⟨rfl⟩

instance {a b : Address} : Event.Minor (.admCan a b) := ⟨rfl⟩

instance {a b : Address} {n : ℕ} {name : Symbol} : Event.Minor (.admDep a b n name) := ⟨rfl⟩

instance {ev : Event} [MayPublish R ev] : Moves R (publish ev) :=
  .modifyWorld fun _ _ => MayPublish.publish

/-! ### Helpers -/

section

variable [BaseFrame R]

instance {a : Address} : Moves R (requireAuth a) := by
  unfold requireAuth
  infer_instance

-- as for the `simp` lemmas, the type of the value is left out of the index
instance : @Moves Env World Error (no_index (Option k.Val)) R (getInst k) := by
  unfold getInst
  infer_instance

instance : @Moves Env World Error (no_index (Option k.Val)) R (getPersistent k) := by
  unfold getPersistent
  infer_instance

instance [MayWrite R k] {v : k.Val} : Moves R (setInst k v) :=
  .modifyWorld fun _ _ => MayWrite.setInst v

instance [MayWrite R k] : Moves R (removeInst k) := .modifyWorld fun _ _ => MayWrite.removeInst

instance : Moves R extendInstTtl := .modifyWorld fun env _ => BaseFrame.extendInstTtl env

instance [MayWrite R k] {v : k.Val} : Moves R (setPersistent k v) :=
  .modifyWorld fun env _ => MayWrite.setPersistent env v

instance : Moves R loadState := by
  unfold loadState
  refine .andThen inferInstance fun w => ?_
  split
  · infer_instance
  · split <;> infer_instance

instance : Moves R loadUnlockedState := by
  unfold loadUnlockedState
  infer_instance

instance : Moves R loadState? := by
  unfold loadState?
  refine .andThen inferInstance fun o => ?_
  split
  · infer_instance
  · split <;> infer_instance

instance [MayWrite R .state] {st : FactoryState} : Moves R (saveState st) :=
  .modifyWorld fun env w => IsTrans.trans _ (w.setInst .state st.encode) _
    (MayWrite.setInst (k := .state) st.encode) (BaseFrame.extendInstTtl env)

instance [MayWrite R .state] {st : FactoryState} {locked : Bool} :
    Moves R (setLocked st locked) := by
  unfold setLocked
  infer_instance

instance : @Moves Env World Error (no_index (Option k.Val)) R (readAddrKeyed k) := by
  unfold readAddrKeyed
  infer_instance

instance [hk : k.Lazy] :
    @Moves Env World Error (no_index (Option k.Val)) R (migrateAddrKeyed k) := by
  have : Moves R (modifyWorld fun env w => w.migrateAddrKeyed env k : ContractM Unit) :=
    .modifyWorld fun env _ => BaseFrame.migrateAddrKeyed env hk.eq
  unfold migrateAddrKeyed
  infer_instance

/-! ### The registry -/

instance [ListFrame R] {creator : Address} {legacy : List ℕ} {migrated : ℕ} {bucket : List ℕ} :
    Moves R (migrateLegacyPages creator legacy migrated bucket) := by
  induction legacy generalizing migrated bucket with
  | nil =>
    unfold migrateLegacyPages
    infer_instance
  | cons index legacy ih =>
    unfold migrateLegacyPages
    infer_instance

instance [ListFrame R] {creator : Address} : Moves R (creatorTokenCount creator) := by
  have : Moves R
      (modifyWorld fun env w => w.extendTtl env (.creatorTokenCount creator) : ContractM Unit) :=
    .modifyWorld fun env _ => BaseFrame.extendTtl env _
  unfold creatorTokenCount
  refine .andThen inferInstance fun o => ?_
  split <;> infer_instance

instance [ListFrame R] {creator : Address} {index : ℕ} :
    Moves R (appendCreatorToken creator index) := by
  unfold appendCreatorToken
  infer_instance

instance [ListFrame R] [TokenFrame R] [EntryFrame R] {token creator : Address} {index : ℕ}
    {info : TokenInfo} : Moves R (registerToken token creator index info) := by
  unfold registerToken
  refine .andThen inferInstance fun _ => ?_
  infer_instance

instance {token : Address} : Moves R (tokenCreator token) := by
  unfold tokenCreator
  infer_instance

instance {token : Address} : Moves R (registeredToken token) := by
  unfold registeredToken
  infer_instance

instance {token : Address} : Moves R (metadataFrozen token) := by
  unfold metadataFrozen
  infer_instance

instance {address : Address} : Moves R (whitelistContains address) := by
  unfold whitelistContains
  infer_instance

instance {st : FactoryState} {creator : Address} : Moves R (requireWhitelisted st creator) := by
  unfold requireWhitelisted
  infer_instance

instance {entries : List (Address × ℕ)} {total : ℕ} : Moves R (sumBps entries total) := by
  induction entries generalizing total with
  | nil =>
    unfold sumBps
    infer_instance
  | cons e entries ih =>
    unfold sumBps
    infer_instance

/-! ### Tokens -/

instance : Moves R requireNotPaused := by
  unfold requireNotPaused
  infer_instance

instance {p : BatchTokenParams} : Moves R (validateTokenParams p) := by
  unfold validateTokenParams
  repeat refine .andThen inferInstance fun _ => ?_
  split <;> infer_instance

instance {ps : List BatchTokenParams} : Moves R (validateBatch ps) := by
  induction ps with
  | nil =>
    unfold validateBatch
    infer_instance
  | cons p ps ih =>
    unfold validateBatch
    infer_instance

instance [EntryFrame R] {token : Address} {p : BatchTokenParams} : Moves R (seedSupply token p) := by
  unfold seedSupply
  infer_instance

instance {uri : Bytes} : Moves R (validateMetadataUri uri) := by
  unfold validateMetadataUri
  infer_instance

instance [EntryFrame R] {token : Address} {maxSupply : Option ℤ} {amount : ℤ} :
    Moves R (trackMint token maxSupply amount) := by
  unfold trackMint
  split <;> infer_instance

instance {current : ℤ} {fee : Option ℤ} : Moves R (checkedFee current fee) := by
  unfold checkedFee
  split <;> infer_instance

/-! ### Views -/

instance {creator : Address} {n i : ℕ} : Moves R (creatorTokensFrom creator n i) := by
  induction n generalizing i with
  | zero =>
    unfold creatorTokensFrom
    infer_instance
  | succ n ih =>
    unfold creatorTokensFrom
    refine .andThen inferInstance fun o => ?_
    split <;> infer_instance

instance {α : Type} {f : α → Ret} {x : ContractM α} [Moves R x] : Moves R (wrap f x) := by
  unfold wrap
  infer_instance

instance {v : View} : Moves R v.exec := by
  cases v with
  | getTokensByCreator creator offset limit =>
    unfold View.exec getTokensByCreator
    infer_instance
  | _ =>
    unfold View.exec
    simp only [Factory.isWhitelisted, Factory.isMetadataFrozen, Factory.getMetadataVersion,
      Factory.getFeeSplit, Factory.getState, Factory.getBaseFee, Factory.getMetadataFee,
      Factory.getTokenInfo, Factory.getTokenIndex, Factory.getTokenAddress,
      Factory.getTokenInfoByAddress, Factory.getMetadata]
    infer_instance

/-! ### Calls to other contracts -/

instance {c : ExtCall} [MayCall E R c] :
    @MovesIn Env World Error (no_index (Option c.Reply)) E R (tryCall c) :=
  MayCall.tryCall

instance {c : ExtCall} [MayCall E R c] :
    @MovesIn Env World Error (no_index c.Reply) E R (invoke c) := by
  unfold invoke
  refine .andThen inferInstance fun o => ?_
  split <;> infer_instance

instance [CreationFrame E R] {token admin : Address} {decimals : ℕ} {name symbol : Bytes} :
    MovesIn E R (initializeToken token admin decimals name symbol) := by
  unfold initializeToken
  infer_instance

instance {token recipient : Address} {amount : ℤ} [MayCall E R (.mint token recipient amount)] :
    MovesIn E R (mintToken token recipient amount) := by
  unfold mintToken
  infer_instance

instance [BurnFrame E R] {token holder : Address} :
    MovesIn E R (balanceOfToken token holder) := by
  unfold balanceOfToken
  infer_instance

instance [BurnFrame E R] {token holder : Address} {amount : ℤ} :
    MovesIn E R (burnToken token holder amount) := by
  unfold burnToken
  infer_instance

instance {wasmHash : BytesN32} [MayCall E R (.updateCurrentContractWasm wasmHash)] :
    MovesIn E R (updateCurrentContractWasm wasmHash) := by
  unfold updateCurrentContractWasm
  infer_instance

instance [PaymentFrame E R] {token payer recipient : Address} {amount : ℤ} :
    MovesIn E R (tryTransfer token payer recipient amount) := by
  unfold tryTransfer
  infer_instance

instance [CreationFrame E R] {deployer : Address} {salt wasmHash : BytesN32} :
    MovesIn E R (deploy deployer salt wasmHash) := by
  have (a : Address) (hash : BytesN32) :
      Moves R (modifyWorld fun _ w => w.addContract a hash : ContractM Unit) :=
    .modifyWorld fun _ _ => BaseFrame.addContract a hash
  unfold deploy
  infer_instance

instance [PaymentFrame E R] {feeToken payer : Address} {shares : List (Address × ℤ)}
    {extra : ℤ} : MovesIn E R (payShares feeToken payer shares extra) := by
  induction shares generalizing extra with
  | nil =>
    unfold payShares
    infer_instance
  | cons share shares ih =>
    unfold payShares
    infer_instance

instance [PaymentFrame E R] {st : FactoryState} {payer : Address} {amount : ℤ} :
    MovesIn E R (payTreasury st payer amount) := by
  unfold payTreasury
  infer_instance

instance [PaymentFrame E R] {st : FactoryState} {payer : Address} {amount : ℤ} :
    MovesIn E R (distributeFee st payer amount) := by
  unfold distributeFee
  refine .andThen inferInstance fun o => ?_
  split
  · unfold distributeSplit
    infer_instance
  · infer_instance

instance [CreationFrame E R] {token creator : Address} {p : BatchTokenParams} :
    MovesIn E R (mintInitialSupply token creator p) := by
  unfold mintInitialSupply
  infer_instance

section

variable [CreationFrame E R] [CreatedFrame R] [ListFrame R] [TokenFrame R] [EntryFrame R]

instance {creator : Address} {p : BatchTokenParams} {st : FactoryState} :
    MovesIn E R (recordToken creator p st) := by
  unfold recordToken
  iterate 6 refine .andThen inferInstance fun _ => ?_
  infer_instance

instance {creator : Address} {ps : List BatchTokenParams} {addresses : List Address}
    {st : FactoryState} : MovesIn E R (recordTokens creator ps addresses st) := by
  induction ps generalizing addresses st with
  | nil =>
    unfold recordTokens
    infer_instance
  | cons p ps ih =>
    unfold recordTokens
    infer_instance

instance [PaymentFrame E R] {creator : Address} {p : BatchTokenParams} {st : FactoryState} :
    MovesIn E R (createTokenInner creator p st) := by
  unfold createTokenInner
  infer_instance

end

end

/-! ### Entrypoints -/

section

variable [BaseFrame R]

-- the instances follow the functions statement by statement, so a long function needs many
set_option synthInstance.maxSize 512

section

variable [EntryFrame R]

instance {admin address : Address} : Moves R (addToWhitelist admin address) := by
  unfold addToWhitelist
  infer_instance

instance {admin address : Address} : Moves R (removeFromWhitelist admin address) := by
  have : Moves R
      (modifyWorld fun _ w => w.removePersistent (.whitelist address) : ContractM Unit) :=
    .modifyWorld fun _ _ => MayWrite.removePersistent
  unfold removeFromWhitelist
  infer_instance

instance {token admin : Address} : Moves R (freezeMetadata token admin) := by
  unfold freezeMetadata
  infer_instance

instance {admin : Address} {splits : FeeSplit} : Moves R (setFeeSplit admin splits) := by
  unfold setFeeSplit
  iterate 3 refine .andThen inferInstance fun _ => ?_
  split <;> infer_instance

instance {admin token : Address} {verified : ℤ} :
    Moves R (backfillCappedSupply admin token verified) := by
  unfold backfillCappedSupply
  iterate 8 refine .andThen inferInstance fun _ => ?_
  infer_instance

instance {token : Address} : Moves R (backfillTokenAddress token) := by
  unfold backfillTokenAddress
  infer_instance

end

section

variable [MayWrite R .state]

instance {admin : Address} {enabled : Bool} : Moves R (setWhitelistEnabled admin enabled) := by
  unfold setWhitelistEnabled
  infer_instance

instance {admin : Address} : Moves R (pause admin) := by
  unfold pause
  infer_instance

instance {admin : Address} : Moves R (unpause admin) := by
  unfold unpause
  infer_instance

instance {admin : Address} {baseFee metadataFee : Option ℤ} :
    Moves R (updateFees admin baseFee metadataFee) := by
  unfold updateFees
  infer_instance

instance {admin : Address} {hash : BytesN32} : Moves R (proposeUpgrade admin hash) := by
  unfold proposeUpgrade
  infer_instance

instance {admin : Address} : Moves R (cancelUpgrade admin) := by
  unfold cancelUpgrade
  iterate 3 refine .andThen inferInstance fun _ => ?_
  split <;> infer_instance

instance {currentAdmin newAdmin : Address} : Moves R (proposeAdmin currentAdmin newAdmin) := by
  unfold proposeAdmin
  infer_instance

instance {newAdmin : Address} : Moves R (acceptAdmin newAdmin) := by
  unfold acceptAdmin
  infer_instance

instance {admin : Address} : Moves R (cancelAdminProposal admin) := by
  unfold cancelAdminProposal
  iterate 3 refine .andThen inferInstance fun _ => ?_
  split <;> infer_instance

instance {currentAdmin newAdmin : Address} {name : Symbol} :
    Moves R (proposeAdminViaLegacyAlias currentAdmin newAdmin name) := by
  unfold proposeAdminViaLegacyAlias
  infer_instance

instance {admin newAdmin : Address} : Moves R (transferAdmin admin newAdmin) := by
  unfold transferAdmin
  infer_instance

instance {currentAdmin newAdmin : Address} : Moves R (updateAdmin currentAdmin newAdmin) := by
  unfold updateAdmin
  infer_instance

end

section

variable [MayWrite R .state]

instance {α : Type} {f : α → Ret} {x : ContractM α} [MovesIn E R x] : MovesIn E R (wrap f x) := by
  unfold wrap
  infer_instance

instance {admin : Address} {hash : BytesN32} [MayCall E R (.updateCurrentContractWasm hash)] :
    MovesIn E R (executeUpgrade admin hash) := by
  unfold executeUpgrade
  iterate 6 refine .andThen inferInstance fun _ => ?_
  infer_instance

instance [BurnFrame E R] {token holder : Address} {amount : ℤ} :
    MovesIn E R (burn token holder amount) := by
  unfold burn
  iterate 6 refine .andThen inferInstance fun _ => ?_
  refine .andThen inferInstance fun o => ?_
  split <;> infer_instance

instance [EntryFrame R] [MetaFrame R] [PaymentFrame E R] {token admin : Address} {uri : Bytes}
    {feePayment : ℤ} : MovesIn E R (setMetadata token admin uri feePayment) := by
  unfold setMetadata
  iterate 12 refine .andThen inferInstance fun _ => ?_
  infer_instance

instance [EntryFrame R] [PaymentFrame E R] {token admin recipient : Address}
    {amount feePayment : ℤ} [MayCall E R (.mint token recipient amount)] :
    MovesIn E R (mintTokens token admin recipient amount feePayment) := by
  unfold mintTokens
  iterate 8 refine .andThen inferInstance fun _ => ?_
  infer_instance

section

variable [PaymentFrame E R] [CreationFrame E R] [CreatedFrame R] [ListFrame R] [TokenFrame R]
  [EntryFrame R]

instance {creator : Address} {p : BatchTokenParams} {feePayment : ℤ} :
    MovesIn E R (createToken creator p feePayment) := by
  unfold createToken
  iterate 8 refine .andThen inferInstance fun _ => ?_
  refine .andThen inferInstance fun o => ?_
  rcases o with e | ⟨a, st⟩ <;> infer_instance

instance {creator : Address} {tokens : List BatchTokenParams} {feePayment : ℤ} :
    MovesIn E R (createTokensBatch creator tokens feePayment) := by
  unfold createTokensBatch
  iterate 8 refine .andThen inferInstance fun _ => ?_
  infer_instance

end

end

/-! ### Schema migration -/

section

variable [MayWrite R .state] [MayWrite R .sv]

instance {version : ℕ} {update : FactoryState → FactoryState} :
    Moves R (completeSchemaStep version update) := by
  unfold completeSchemaStep
  infer_instance

instance {version : ℕ} : Moves R (migrateV4V5 version) := by
  unfold migrateV4V5
  infer_instance

end

section

variable [∀ index, MayWrite R (.tokenInfo index)]

instance {index n : ℕ} : Moves R (moveTokenInfos index n) := by
  induction n generalizing index with
  | zero =>
    unfold moveTokenInfos
    infer_instance
  | succ n ih =>
    unfold moveTokenInfos
    refine .andThen inferInstance fun o => ?_
    split <;> infer_instance

variable [MayWrite R .state] [MayWrite R .sv] [MayWrite R .mig3cur]

instance {tokenCount version : ℕ} : Moves R (migrateV3 tokenCount version) := by
  unfold migrateV3
  infer_instance

instance {admin : Address} : Moves R (migrate admin) := by
  unfold migrate
  iterate 4 refine .andThen inferInstance fun _ => ?_
  -- each conditional step stands before a copy of the rest of the function
  dsimp only
  split_ifs <;>
  · refine .andThen inferInstance fun _ => ?_
    split_ifs <;> infer_instance

end

end

end

end StellarForge.Factory
