import StellarForge.Factory.World

/-!
# Storage helpers, the reentrancy lock and calls to other contracts

The private helpers that every entrypoint is built from, each with the lemma that says what it has
done when it returns.
-/

namespace StellarForge.Factory

open Soroban Contract

/-! ### Definitions -/

/-- `address.require_auth()`: the host traps when the invocation does not carry the address's
authorization. -/
def requireAuth (address : Address) : ContractM Unit := do
  let env ← getEnv
  trapUnless (env.authorized address = true)

/-- `env.events().publish(..)` -/
def publish (ev : Event) : ContractM Unit := modifyWorld fun _ w => w.publish ev

/-- `env.storage().instance().get(key)`; `FactoryState` is read through `loadState`. -/
def getInst (k : DataKey) : ContractM (Option k.Val) := do
  let w ← getWorld
  pure (w.storage.inst k)

/-- `env.storage().persistent().get(key)` -/
def getPersistent (k : DataKey) : ContractM (Option k.Val) := do
  let w ← getWorld
  pure (w.storage.persistent k)

/-- `env.storage().instance().set(key, val)` -/
def setInst (k : DataKey) (v : k.Val) : ContractM Unit := modifyWorld fun _ w => w.setInst k v

/-- `env.storage().instance().remove(key)` -/
def removeInst (k : DataKey) : ContractM Unit := modifyWorld fun _ w => w.removeInst k

/-- `env.storage().instance().extend_ttl(MIN_TTL, MAX_TTL)` -/
def extendInstTtl : ContractM Unit := modifyWorld fun env w => w.extendInstTtl env

/-- Read the factory state; a stored entry that does not decode is a host error. -/
def loadState : ContractM FactoryState := do
  let w ← getWorld
  match w.storage.inst .state with
  | none => fail .stateNotFound
  | some m =>
    match FactoryState.decode m with
    | none => trap
    | some st => pure st

/-- Write the factory state. -/
def saveState (st : FactoryState) : ContractM Unit := modifyWorld fun env w => w.saveState env st

/-- Load the state, rejecting the call when another factory operation holds the lock. -/
def loadUnlockedState : ContractM FactoryState := do
  let state ← loadState
  throwIf (state.locked = true) .reentrancy
  pure state

/-- Acquire or release the lock and persist it; the result is the caller's `state` afterwards. -/
def setLocked (state : FactoryState) (locked : Bool) : ContractM FactoryState := do
  let state := { state with locked }
  saveState state
  pure state

/-- Write a persistent entry. -/
def setPersistent (k : DataKey) (v : k.Val) : ContractM Unit :=
  modifyWorld fun env w => w.setPersistent env k v

/-- Persistent first, then the legacy instance copy; never writes. -/
def readAddrKeyed (k : DataKey) : ContractM (Option k.Val) := do
  let w ← getWorld
  pure (w.storage.lookup k)

/-- The world after `migrate_addr_keyed`: the lifetime of a persistent entry is extended, a legacy
instance copy is moved to the persistent tier. -/
def World.migrateAddrKeyed (env : Env) (k : DataKey) (w : World) : World :=
  match w.storage.persistent k with
  | some _ => w.extendTtl env k
  | none =>
    match w.storage.inst k with
    | some v => (w.setPersistent env k v).removeInst k
    | none => w

/-- Like `readAddrKeyed`, but a value found only in instance storage is moved. -/
def migrateAddrKeyed (k : DataKey) : ContractM (Option k.Val) := do
  let w ← getWorld
  modifyWorld fun env w => w.migrateAddrKeyed env k
  pure (w.storage.lookup k)

/-- Call another contract: `some` of its reply, or `none` when the call failed.  The failure of a
`try_` call is handed to the caller, and what the callee did is rolled back. -/
def tryCall (c : ExtCall) : ContractM (Option c.Reply) := fun env w =>
  match env.host w c with
  | some (r, storage) => some (.ok (some r), { w with storage }.logCall c true)
  | none => some (.ok none, w.logCall c false)

/-- Call another contract; a failure of the callee traps. -/
def invoke (c : ExtCall) : ContractM c.Reply := do
  match ← tryCall c with
  | some r => pure r
  | none => trap

/-- `TokenInitClient::initialize` -/
def initializeToken (token admin : Address) (decimals : ℕ) (name symbol : Bytes) :
    ContractM Unit :=
  invoke (.initToken token admin decimals name symbol)

/-- `StellarAssetClient::mint` -/
def mintToken (token recipient : Address) (amount : ℤ) : ContractM Unit :=
  invoke (.mint token recipient amount)

/-- `TokenClient::balance` -/
def balanceOfToken (token holder : Address) : ContractM ℤ := invoke (.balance token holder)

/-- `TokenClient::burn` -/
def burnToken (token holder : Address) (amount : ℤ) : ContractM Unit :=
  invoke (.burn token holder amount)

/-- `env.deployer().update_current_contract_wasm(wasm_hash)` -/
def updateCurrentContractWasm (wasmHash : BytesN32) : ContractM Unit :=
  invoke (.updateCurrentContractWasm wasmHash)

/-- `TokenClient::try_transfer`: whether the transfer succeeded. -/
def tryTransfer (token payer recipient : Address) (amount : ℤ) : ContractM Bool := do
  let reply ← tryCall (.tryTransfer token payer recipient amount)
  pure reply.isSome

/-- `env.deployer().with_address(deployer, salt).deploy(wasm_hash)`: the host refuses an address
that already has a contract. -/
def deploy (deployer : Address) (salt wasmHash : BytesN32) : ContractM Address := do
  let address ← invoke (.deploy deployer salt wasmHash)
  let w ← getWorld
  trapUnless (w.contracts address = none)
  modifyWorld fun _ w => w.addContract address wasmHash
  pure address

/-! ### What the helpers have done -/

variable {env : Env} {w w' : World} {st st' : FactoryState} {k : DataKey} {a : Address} {u : Unit}

@[simp] theorem returns_requireAuth :
    (requireAuth a).Returns env w u w' ↔ env.authorized a = true ∧ w = w' := by
  simp [requireAuth, and_comm]

@[simp] theorem throws_requireAuth {r : Error} : ¬ (requireAuth a).Throws env w r w' := by
  simp [requireAuth]

@[simp] theorem returns_publish {ev : Event} :
    (publish ev).Returns env w u w' ↔ w.publish ev = w' := by
  simp [publish]

@[simp] theorem traps_requireAuth : (requireAuth a).Traps env w ↔ env.authorized a = false := by
  simp [requireAuth]

@[simp] theorem throws_publish {ev : Event} {r : Error} :
    ¬ (publish ev).Throws env w r w' := by
  simp [publish]

-- the type of the value is left out of the simp index, which knows it only for a concrete key
@[simp] theorem returns_getInst {o : Option k.Val} :
    @Returns Env World Error (no_index (Option k.Val)) (getInst k) env w o w' ↔
      w.storage.inst k = o ∧ w = w' := by
  simp [getInst, and_comm]

@[simp] theorem throws_getInst {r : Error} :
    ¬ @Throws Env World Error (no_index (Option k.Val)) (getInst k) env w r w' := by
  simp [getInst]

@[simp] theorem returns_getPersistent {o : Option k.Val} :
    @Returns Env World Error (no_index (Option k.Val)) (getPersistent k) env w o w' ↔
      w.storage.persistent k = o ∧ w = w' := by
  simp [getPersistent, and_comm]

@[simp] theorem returns_setInst {v : k.Val} :
    (setInst k v).Returns env w u w' ↔ w.setInst k v = w' := by
  simp [setInst]

@[simp] theorem returns_removeInst :
    (removeInst k).Returns env w u w' ↔ w.removeInst k = w' := by
  simp [removeInst]

@[simp] theorem returns_extendInstTtl :
    extendInstTtl.Returns env w u w' ↔ w.extendInstTtl env = w' := by
  simp [extendInstTtl]

@[simp] theorem returns_loadState :
    loadState.Returns env w st w' ↔ w.state? = some st ∧ w = w' := by
  simp only [loadState, returns_bind, returns_getWorld, World.state?]
  rcases hm : w.storage.inst .state with _ | m
  · simp [hm]
  · rcases hd : FactoryState.decode m with _ | st₀ <;> simp [hm, hd]

/-- A stored state that does not decode is a host error. -/
@[simp] theorem traps_loadState : loadState.Traps env w ↔
    ∃ m, w.storage.inst .state = some m ∧ FactoryState.decode m = none := by
  simp only [loadState, traps_bind, returns_getWorld, traps_getWorld, false_or]
  rcases hm : w.storage.inst .state with _ | m
  · simp [hm]
  · rcases hd : FactoryState.decode m with _ | st₀ <;> simp [hm, hd]

@[simp] theorem returns_saveState :
    (saveState st).Returns env w u w' ↔ w.saveState env st = w' := by
  simp [saveState]

@[simp] theorem returns_loadUnlockedState :
    loadUnlockedState.Returns env w st w' ↔ w.state? = some st ∧ st.locked = false ∧ w = w' := by
  simp only [loadUnlockedState, returns_bind, returns_loadState, returns_throwIf, returns_pure,
    Bool.not_eq_true]
  grind

@[simp] theorem returns_setLocked {locked : Bool} :
    (setLocked st locked).Returns env w st' w' ↔
      { st with locked } = st' ∧ w.saveState env { st with locked } = w' := by
  simp [setLocked, and_comm]

@[simp] theorem returns_setPersistent {v : k.Val} :
    (setPersistent k v).Returns env w u w' ↔ w.setPersistent env k v = w' := by
  simp [setPersistent]

@[simp] theorem returns_readAddrKeyed {o : Option k.Val} :
    @Returns Env World Error (no_index (Option k.Val)) (readAddrKeyed k) env w o w' ↔
      w.storage.lookup k = o ∧ w = w' := by
  simp [readAddrKeyed, and_comm]

@[simp] theorem returns_migrateAddrKeyed {o : Option k.Val} :
    @Returns Env World Error (no_index (Option k.Val)) (migrateAddrKeyed k) env w o w' ↔
      w.storage.lookup k = o ∧ w.migrateAddrKeyed env k = w' := by
  simp [migrateAddrKeyed, and_comm]

/-! ### Calls to other contracts under a host that refuses re-entry -/

/-- A call that returns nothing says only whether it succeeded. -/
theorem map_fst_eq_some {α : Type} {o : Option (Unit × α)} :
    o.map Prod.fst = some u ↔ o.isSome = true := by
  cases o <;> simp

section

variable [env.NoReentry] {c : ExtCall}

theorem returns_tryCall {o : Option c.Reply} : (tryCall c).Returns env w o w' ↔
    (env.host w c).map Prod.fst = o ∧ w.logCall c (env.host w c).isSome = w' := by
  unfold tryCall
  rcases h : env.host w c with _ | ⟨r, s⟩
  · simp [Returns, h]
  · obtain rfl := Env.NoReentry.storage_eq h
    simp [Returns, h]

omit [env.NoReentry] in
theorem throws_tryCall {r : Error} : ¬ (tryCall c).Throws env w r w' := by
  unfold Throws tryCall
  rcases h : env.host w c with _ | ⟨_, _⟩ <;> simp

theorem returns_invoke {r : c.Reply} : (invoke c).Returns env w r w' ↔
    (env.host w c).map Prod.fst = some r ∧ w.logCall c true = w' := by
  simp only [invoke, returns_bind, returns_tryCall]
  rcases h : env.host w c with _ | ⟨r, s⟩ <;> simp

@[simp] theorem returns_initializeToken {token admin : Address} {decimals : ℕ}
    {name symbol : Bytes} :
    (initializeToken token admin decimals name symbol).Returns env w u w' ↔
      (env.host w (.initToken token admin decimals name symbol)).isSome = true ∧
      w.logCall (.initToken token admin decimals name symbol) true = w' := by
  rw [initializeToken, returns_invoke, map_fst_eq_some]

@[simp] theorem returns_mintToken {token recipient : Address} {amount : ℤ} :
    (mintToken token recipient amount).Returns env w u w' ↔
      (env.host w (.mint token recipient amount)).isSome = true ∧
      w.logCall (.mint token recipient amount) true = w' := by
  rw [mintToken, returns_invoke, map_fst_eq_some]

@[simp] theorem returns_balanceOfToken {token holder : Address} {balance : ℤ} :
    (balanceOfToken token holder).Returns env w balance w' ↔
      (env.host w (.balance token holder)).map Prod.fst = some balance ∧
      w.logCall (.balance token holder) true = w' := by
  rw [balanceOfToken, returns_invoke]

@[simp] theorem returns_burnToken {token holder : Address} {amount : ℤ} :
    (burnToken token holder amount).Returns env w u w' ↔
      (env.host w (.burn token holder amount)).isSome = true ∧
      w.logCall (.burn token holder amount) true = w' := by
  rw [burnToken, returns_invoke, map_fst_eq_some]

@[simp] theorem returns_updateCurrentContractWasm {wasmHash : BytesN32} :
    (updateCurrentContractWasm wasmHash).Returns env w u w' ↔
      (env.host w (.updateCurrentContractWasm wasmHash)).isSome = true ∧
      w.logCall (.updateCurrentContractWasm wasmHash) true = w' := by
  rw [updateCurrentContractWasm, returns_invoke, map_fst_eq_some]

/-- A transfer returns whether it has succeeded, and is logged. -/
@[simp] theorem returns_tryTransfer {token payer recipient : Address} {amount : ℤ} {ok : Bool} :
    (tryTransfer token payer recipient amount).Returns env w ok w' ↔
      (env.host w (.tryTransfer token payer recipient amount)).isSome = ok ∧
      w.logCall (.tryTransfer token payer recipient amount) ok = w' := by
  simp only [tryTransfer, returns_bind, returns_pure]
  constructor
  · rintro ⟨_, _, hc, rfl, rfl⟩
    obtain ⟨rfl, rfl⟩ := returns_tryCall.mp hc
    exact ⟨Option.isSome_map.symm, by rw [Option.isSome_map]⟩
  · rintro ⟨rfl, rfl⟩
    exact ⟨_, _, returns_tryCall.mpr ⟨rfl, rfl⟩, Option.isSome_map, rfl⟩

omit [env.NoReentry] in
@[simp] theorem throws_tryTransfer {token payer recipient : Address} {amount : ℤ} {r : Error} :
    ¬ (tryTransfer token payer recipient amount).Throws env w r w' := by
  simp only [tryTransfer, throws_bind, throws_pure, and_false, exists_false, or_false]
  exact throws_tryCall

/-- A deployment returns an address that had no contract. -/
@[simp] theorem returns_deploy {deployer : Address} {salt wasmHash : BytesN32} :
    (deploy deployer salt wasmHash).Returns env w a w' ↔
      (env.host w (.deploy deployer salt wasmHash)).map Prod.fst = some a ∧
      w.contracts a = none ∧
      (w.logCall (.deploy deployer salt wasmHash) true).addContract a wasmHash = w' := by
  simp only [deploy, returns_bind, returns_getWorld, returns_trapUnless, returns_modifyWorld,
    returns_pure]
  constructor
  · rintro ⟨_, _, h, _, _, ⟨rfl, rfl⟩, _, _, ⟨hc, rfl⟩, _, _, rfl, rfl, rfl⟩
    obtain ⟨h', rfl⟩ := returns_invoke.mp h
    exact ⟨h', hc, rfl⟩
  · rintro ⟨h, hc, rfl⟩
    exact ⟨_, _, returns_invoke.mpr ⟨h, rfl⟩, _, _, ⟨rfl, rfl⟩, (), _, ⟨hc, rfl⟩, (), _, rfl, rfl,
      rfl⟩

end

end StellarForge.Factory
