import StellarForge.Soroban.Contract
import StellarForge.Soroban.Storage
import StellarForge.Soroban.Checked
import StellarForge.Factory.Types

/-!
# The world a factory call runs in

The storage keys of the factory with the type of each value, the calls it makes to other contracts,
the events it publishes, and the environment of a call: the ledger, who has authorized it, and the
host, which answers the calls to other contracts.

The host may hand back a changed storage of the factory: that is a contract which calls back into
the factory before it returns.  Today's Soroban host refuses such re-entry (`Env.NoReentry`).
-/

namespace StellarForge.Factory

open Soroban

/-! ### Storage -/

/-- The storage keys: `DataKey`, `LegacyDataKey` and the keys built from symbols. -/
inductive DataKey
  | state
  | tokenInfo (index : ℕ)
  | creatorTokens (creator : Address) (page : ℕ)
  | creatorTokenCount (creator : Address)
  | tokenIndex (token : Address)
  | tokenAddress (index : ℕ)
  | metadata (token : Address)
  | metadataVersion (token : Address)
  | metadataFrozen (token : Address)
  /-- `LegacyDataKey::CreatorTokens(creator)`: the unpaginated list of older binaries. -/
  | legacyCreatorTokens (creator : Address)
  /-- `(token, "owner")` -/
  | owner (token : Address)
  /-- `(token, "supply")` -/
  | supply (token : Address)
  /-- `(token, "bkfld")` -/
  | backfilled (token : Address)
  /-- `("wl", address)` -/
  | whitelist (address : Address)
  /-- `"split"` -/
  | split
  /-- `"sv"` -/
  | sv
  /-- `"mig3cur"` -/
  | mig3cur
  deriving DecidableEq

/-- The type of the value stored under a key. -/
abbrev DataKey.Val : DataKey → Type
  | .state => StateMap
  | .tokenInfo _ => TokenInfo
  | .creatorTokens _ _ => List ℕ
  | .creatorTokenCount _ => ℕ
  | .tokenIndex _ => ℕ
  | .tokenAddress _ => Address
  | .metadata _ => Bytes
  | .metadataVersion _ => ℕ
  | .metadataFrozen _ => Bool
  | .legacyCreatorTokens _ => List ℕ
  | .owner _ => Address
  | .supply _ => ℤ
  | .backfilled _ => Bool
  | .whitelist _ => Bool
  | .split => FeeSplit
  | .sv => ℕ
  | .mig3cur => ℕ

/-- The storage of the factory. -/
abbrev FactoryStorage := Storage DataKey DataKey.Val

/-! ### Calls to other contracts -/

/-- A call that the factory makes to another contract or to the host's deployer. -/
inductive ExtCall
  /-- `try_transfer` on a token contract. -/
  | tryTransfer (token payer recipient : Address) (amount : ℤ)
  /-- Deploy the code `wasmHash` for `deployer`. -/
  | deploy (deployer : Address) (salt wasmHash : BytesN32)
  | initToken (token admin : Address) (decimals : ℕ) (name symbol : Bytes)
  | mint (token recipient : Address) (amount : ℤ)
  | balance (token holder : Address)
  | burn (token holder : Address) (amount : ℤ)
  /-- `update_current_contract_wasm` -/
  | updateCurrentContractWasm (wasmHash : BytesN32)
  deriving DecidableEq, Repr

/-- What a successful call returns. -/
abbrev ExtCall.Reply : ExtCall → Type
  | .deploy .. => Address
  | .balance .. => ℤ
  | _ => Unit

/-! ### Events -/

/-- A published event: its second topic names the constructor, its payload is the arguments. -/
inductive Event
  | init (admin : Address)
  | wlAdd (address : Address)
  | wlRm (address : Address)
  | wlTog (enabled : Bool)
  | created (token creator : Address) (name symbol : Bytes)
  /-- `meta` -/
  | metaSet (token : Address) (uri : Bytes) (version : ℕ)
  | metaFrz (token admin : Address)
  | mint (token recipient : Address) (amount : ℤ)
  | burn (token holder : Address) (amount : ℤ)
  | pause (admin : Address)
  | unpause (admin : Address)
  | splitClr (admin : Address)
  | splitSet (admin : Address) (splits : List (Address × ℕ))
  | fees (baseFee metadataFee : Option ℤ)
  | feeRedir (recipient : Address) (share : ℤ)
  | upgProp (admin : Address) (wasmHash : BytesN32) (readyAt : ℕ)
  | upgExec (admin : Address) (wasmHash : BytesN32)
  | upgCan (admin : Address) (wasmHash : BytesN32)
  | admProp (admin newAdmin : Address) (expiry : ℕ)
  | admAcc (oldAdmin newAdmin : Address)
  | admCan (admin cancelled : Address)
  | admDep (admin newAdmin : Address) (expiry : ℕ) (entrypoint : Symbol)
  deriving DecidableEq, Repr

/-! ### World and environment -/

/-- What a factory call can read and change. -/
structure World where
  storage : FactoryStorage
  /-- The code of each contract that the factory has deployed. -/
  contracts : Address → Option BytesN32
  /-- The calls to other contracts so far, oldest first, each with its success. -/
  calls : List (ExtCall × Bool)
  /-- The events so far, oldest first. -/
  events : List Event

/-- The world before the constructor has run. -/
def World.genesis : World := ⟨Storage.empty, fun _ => none, [], []⟩

/-- The environment of one invocation. -/
structure Env where
  /-- `env.ledger().sequence()` -/
  sequence : ℕ
  /-- `env.ledger().timestamp()` -/
  timestamp : ℕ
  /-- The lifetime of a new persistent entry. -/
  minPersistentTtl : ℕ
  /-- The addresses whose authorization the invocation carries. -/
  authorized : Address → Bool
  /-- What a call to another contract answers in the given world, and the factory storage after
  it; `none` when the call fails. -/
  host : World → (c : ExtCall) → Option (c.Reply × FactoryStorage)

/-- The host refuses re-entry: a call to another contract leaves the factory's storage alone. -/
class Env.NoReentry (env : Env) : Prop where
  storage_eq : ∀ {w : World} {c : ExtCall} {r : c.Reply} {s : FactoryStorage},
    env.host w c = some (r, s) → s = w.storage

/-- A function of the contract. -/
abbrev ContractM := Contract Env World Error

namespace World

/-- The decoded factory state, if there is one. -/
def state? (w : World) : Option FactoryState := (w.storage.inst .state).bind FactoryState.decode

/-- Change nothing but the factory's storage. -/
def mapStorage (f : FactoryStorage → FactoryStorage) (w : World) : World :=
  { w with storage := f w.storage }

/-- `set_persistent`: write the entry and extend its lifetime. -/
def setPersistent (env : Env) (k : DataKey) (v : k.Val) : World → World :=
  mapStorage fun s => (s.setPersistent env.sequence env.minPersistentTtl k v).extendTtl
    env.sequence MIN_TTL MAX_TTL k

/-- `env.storage().persistent().extend_ttl(key, MIN_TTL, MAX_TTL)` -/
def extendTtl (env : Env) (k : DataKey) : World → World :=
  mapStorage fun s => s.extendTtl env.sequence MIN_TTL MAX_TTL k

/-- A persistent entry is removed. -/
def removePersistent (k : DataKey) : World → World := mapStorage fun s => s.removePersistent k

/-- An instance entry is written. -/
def setInst (k : DataKey) (v : k.Val) : World → World := mapStorage fun s => s.setInst k v

/-- An instance entry is removed. -/
def removeInst (k : DataKey) : World → World := mapStorage fun s => s.removeInst k

/-- `env.storage().instance().extend_ttl(MIN_TTL, MAX_TTL)` -/
def extendInstTtl (env : Env) : World → World :=
  mapStorage fun s => s.extendInstTtl env.sequence MIN_TTL MAX_TTL

/-- `save_state`: write the factory state and extend the instance entry. -/
def saveState (env : Env) (st : FactoryState) (w : World) : World :=
  (w.setInst .state st.encode).extendInstTtl env

/-- An event is published. -/
def publish (ev : Event) (w : World) : World := { w with events := w.events ++ [ev] }

/-- Record a call to another contract. -/
def logCall (c : ExtCall) (ok : Bool) (w : World) : World :=
  { w with calls := w.calls ++ [(c, ok)] }

/-- Record the code of a new contract. -/
def addContract (address : Address) (wasmHash : BytesN32) (w : World) : World :=
  { w with contracts := Function.update w.contracts address (some wasmHash) }

variable {w : World} {env : Env} {k : DataKey} {v : k.Val} {st : FactoryState} {ev : Event}
  {c : ExtCall} {ok : Bool} {a : Address} {h : BytesN32}

/-! ### What each update changes -/

theorem contracts_mapStorage {f : FactoryStorage → FactoryStorage} :
    (w.mapStorage f).contracts = w.contracts := rfl

theorem calls_mapStorage {f : FactoryStorage → FactoryStorage} :
    (w.mapStorage f).calls = w.calls := rfl

@[simp] theorem storage_setPersistent : (w.setPersistent env k v).storage =
    (w.storage.setPersistent env.sequence env.minPersistentTtl k v).extendTtl
      env.sequence MIN_TTL MAX_TTL k := rfl

@[simp] theorem storage_extendTtl :
    (w.extendTtl env k).storage = w.storage.extendTtl env.sequence MIN_TTL MAX_TTL k := rfl

@[simp] theorem storage_removePersistent :
    (w.removePersistent k).storage = w.storage.removePersistent k := rfl

@[simp] theorem storage_setInst : (w.setInst k v).storage = w.storage.setInst k v := rfl

@[simp] theorem storage_removeInst : (w.removeInst k).storage = w.storage.removeInst k := rfl

@[simp] theorem storage_extendInstTtl :
    (w.extendInstTtl env).storage = w.storage.extendInstTtl env.sequence MIN_TTL MAX_TTL := rfl

@[simp] theorem storage_saveState : (w.saveState env st).storage =
    (w.storage.setInst .state st.encode).extendInstTtl env.sequence MIN_TTL MAX_TTL := rfl

@[simp] theorem storage_publish : (w.publish ev).storage = w.storage := rfl

@[simp] theorem storage_logCall : (w.logCall c ok).storage = w.storage := rfl

@[simp] theorem storage_addContract : (w.addContract a h).storage = w.storage := rfl

@[simp] theorem contracts_setPersistent : (w.setPersistent env k v).contracts = w.contracts :=
  contracts_mapStorage

@[simp] theorem contracts_extendTtl : (w.extendTtl env k).contracts = w.contracts :=
  contracts_mapStorage

@[simp] theorem contracts_removePersistent : (w.removePersistent k).contracts = w.contracts :=
  contracts_mapStorage

@[simp] theorem contracts_setInst : (w.setInst k v).contracts = w.contracts :=
  contracts_mapStorage

@[simp] theorem contracts_removeInst : (w.removeInst k).contracts = w.contracts :=
  contracts_mapStorage

@[simp] theorem contracts_extendInstTtl : (w.extendInstTtl env).contracts = w.contracts :=
  contracts_mapStorage

@[simp] theorem contracts_saveState : (w.saveState env st).contracts = w.contracts :=
  contracts_mapStorage

@[simp] theorem contracts_publish : (w.publish ev).contracts = w.contracts := rfl

@[simp] theorem contracts_logCall : (w.logCall c ok).contracts = w.contracts := rfl

@[simp] theorem contracts_addContract :
    (w.addContract a h).contracts = Function.update w.contracts a (some h) := rfl

@[simp] theorem calls_setPersistent : (w.setPersistent env k v).calls = w.calls :=
  calls_mapStorage

@[simp] theorem calls_extendTtl : (w.extendTtl env k).calls = w.calls :=
  calls_mapStorage

@[simp] theorem calls_removePersistent : (w.removePersistent k).calls = w.calls :=
  calls_mapStorage

@[simp] theorem calls_setInst : (w.setInst k v).calls = w.calls :=
  calls_mapStorage

@[simp] theorem calls_removeInst : (w.removeInst k).calls = w.calls :=
  calls_mapStorage

@[simp] theorem calls_extendInstTtl : (w.extendInstTtl env).calls = w.calls :=
  calls_mapStorage

@[simp] theorem calls_saveState : (w.saveState env st).calls = w.calls :=
  calls_mapStorage

@[simp] theorem calls_publish : (w.publish ev).calls = w.calls := rfl

@[simp] theorem calls_logCall : (w.logCall c ok).calls = w.calls ++ [(c, ok)] := rfl

@[simp] theorem calls_addContract : (w.addContract a h).calls = w.calls := rfl

/-! ### The factory state after each update -/

@[simp] theorem state?_setPersistent : (w.setPersistent env k v).state? = w.state? := rfl

@[simp] theorem state?_extendTtl : (w.extendTtl env k).state? = w.state? := rfl

@[simp] theorem state?_removePersistent : (w.removePersistent k).state? = w.state? := rfl

@[simp] theorem state?_setInst_of_ne (hk : .state ≠ k) : (w.setInst k v).state? = w.state? := by
  simp [state?, hk]

@[simp] theorem state?_removeInst_of_ne (hk : .state ≠ k) :
    (w.removeInst k).state? = w.state? := by
  simp [state?, hk]

@[simp] theorem state?_extendInstTtl : (w.extendInstTtl env).state? = w.state? := by
  rw [state?, storage_extendInstTtl, Storage.inst_extendInstTtl, state?]

@[simp] theorem state?_saveState : (w.saveState env st).state? = some st := by
  simp [state?]

@[simp] theorem state?_publish : (w.publish ev).state? = w.state? := rfl

@[simp] theorem state?_logCall : (w.logCall c ok).state? = w.state? := rfl

@[simp] theorem state?_addContract : (w.addContract a h).state? = w.state? := rfl

end World

end StellarForge.Factory
