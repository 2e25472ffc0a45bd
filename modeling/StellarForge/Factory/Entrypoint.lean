import StellarForge.Factory.Token
import StellarForge.Factory.Governance
import StellarForge.Transition.Run

/-!
# The constructor, the views and the dispatcher

`Call` lists the entrypoints of the contract and `Call.exec` runs one.  `Step` is a successful
invocation under a host that refuses re-entry: a failed invocation is rolled back, so a run of the
contract is a run of its successful invocations.
-/

namespace StellarForge.Factory

open Soroban Contract Transition

/-! ### The constructor -/

/-- The arguments of `__constructor`. -/
structure ConstructorArgs where
  admin : Address
  treasury : Address
  feeToken : Address
  tokenWasmHash : BytesN32
  baseFee : ℤ
  metadataFee : ℤ

/-- The state written by the constructor. -/
def ConstructorArgs.initialState (args : ConstructorArgs) : FactoryState where
  admin := args.admin
  paused := false
  locked := false
  treasury := args.treasury
  feeToken := args.feeToken
  tokenWasmHash := args.tokenWasmHash
  baseFee := args.baseFee
  metadataFee := args.metadataFee
  tokenCount := 0
  whitelistEnabled := false
  schemaVersion := CURRENT_SCHEMA_VERSION
  pendingAdmin := none
  pendingAdminExpiry := none
  pendingUpgradeHash := none
  pendingUpgradeReadyAt := none

/-- `__constructor` -/
def factoryConstructor (args : ConstructorArgs) : ContractM Unit := do
  requireAuth args.admin
  let stored ← getInst .state
  throwIf (stored.isSome = true) .alreadyInitialized
  throwIf (args.baseFee < 0 ∨ args.metadataFee < 0) .invalidParameters
  setInst .state args.initialState.encode
  setInst .sv CURRENT_SCHEMA_VERSION
  extendInstTtl
  publish (.init args.admin)

/-! ### Views -/

/-- Whether the address is on the whitelist, enforced or not. -/
def isWhitelisted (address : Address) : ContractM Bool := whitelistContains address

/-- The explicit flag of a token. -/
def isMetadataFrozen (tokenAddress : Address) : ContractM Bool := do
  let frozen ← readAddrKeyed (.metadataFrozen tokenAddress)
  pure (frozen.getD false)

/-- How often the metadata of a token has been set. -/
def getMetadataVersion (tokenAddress : Address) : ContractM ℕ := do
  let version ← readAddrKeyed (.metadataVersion tokenAddress)
  pure (version.getD 0)

/-- The stored state. -/
def getState : ContractM FactoryState := loadState

/-- The fee of a creation. -/
def getBaseFee : ContractM ℤ := do
  let state ← loadState
  pure state.baseFee

/-- The fee of an update of the metadata. -/
def getMetadataFee : ContractM ℤ := do
  let state ← loadState
  pure state.metadataFee

/-- The record of the token with an index. -/
def getTokenInfo (index : ℕ) : ContractM TokenInfo := do
  let info ← readAddrKeyed (.tokenInfo index)
  okOr info .tokenNotFound

/-- The index of the token at an address. -/
def getTokenIndex (tokenAddress : Address) : ContractM ℕ := do
  let index ← readAddrKeyed (.tokenIndex tokenAddress)
  okOr index .tokenNotFound

/-- The address of the token with an index. -/
def getTokenAddress (index : ℕ) : ContractM Address := do
  let address ← readAddrKeyed (.tokenAddress index)
  okOr address .tokenNotFound

/-- The record of the token at an address. -/
def getTokenInfoByAddress (tokenAddress : Address) : ContractM TokenInfo := do
  let index ← readAddrKeyed (.tokenIndex tokenAddress)
  let index ← okOr index .tokenNotFound
  let info ← readAddrKeyed (.tokenInfo index)
  okOr info .tokenNotFound

/-- The metadata URI of a token. -/
def getMetadata (tokenAddress : Address) : ContractM (Option Bytes) :=
  readAddrKeyed (.metadata tokenAddress)

/-- The loop of `get_tokens_by_creator`: at most `n` elements from position `i` on, ending early at
a missing entry. -/
def creatorTokensFrom (creator : Address) : (n i : ℕ) → ContractM (List ℕ)
  | 0, _ => pure []
  | n + 1, i => do
    let bucket ← readAddrKeyed (.creatorTokens creator (i / MAX_TOKENS_BY_CREATOR_PAGE))
    match (bucket.getD [])[i % MAX_TOKENS_BY_CREATOR_PAGE]? with
    | some val => do
      let rest ← creatorTokensFrom creator n (i + 1)
      pure (val :: rest)
    | none => pure []

/-- A page of the indices of a creator's tokens. -/
def getTokensByCreator (creator : Address) (offset limit : ℕ) : ContractM (List ℕ) := do
  if limit = 0 then pure []
  else
    let effectiveLimit := min limit MAX_TOKENS_BY_CREATOR_PAGE
    let total ← readAddrKeyed (.creatorTokenCount creator)
    let total := total.getD 0
    if offset ≥ total then pure []
    else
      let last := min (U32.saturatingAdd offset effectiveLimit) total
      creatorTokensFrom creator (last - offset) offset

/-! ### The dispatcher -/

/-- The read-only entrypoints. -/
inductive View
  | isWhitelisted (address : Address)
  | isMetadataFrozen (tokenAddress : Address)
  | getMetadataVersion (tokenAddress : Address)
  | getFeeSplit
  | getState
  | getBaseFee
  | getMetadataFee
  | getTokenInfo (index : ℕ)
  | getTokenIndex (tokenAddress : Address)
  | getTokenAddress (index : ℕ)
  | getTokenInfoByAddress (tokenAddress : Address)
  | getMetadata (tokenAddress : Address)
  | getTokensByCreator (creator : Address) (offset limit : ℕ)

/-- A call of an entrypoint with its arguments. -/
inductive Call
  | addToWhitelist (admin address : Address)
  | removeFromWhitelist (admin address : Address)
  | setWhitelistEnabled (admin : Address) (enabled : Bool)
  | createToken (creator : Address) (p : BatchTokenParams) (feePayment : ℤ)
  | createTokensBatch (creator : Address) (tokens : List BatchTokenParams) (feePayment : ℤ)
  | setMetadata (tokenAddress admin : Address) (metadataUri : Bytes) (feePayment : ℤ)
  | freezeMetadata (tokenAddress admin : Address)
  | mintTokens (tokenAddress admin recipient : Address) (amount feePayment : ℤ)
  | burn (tokenAddress holder : Address) (amount : ℤ)
  | setBurnEnabled (tokenAddress admin : Address) (enabled : Bool)
  | pause (admin : Address)
  | unpause (admin : Address)
  | setFeeSplit (admin : Address) (splits : FeeSplit)
  | updateFees (admin : Address) (baseFee metadataFee : Option ℤ)
  | proposeUpgrade (admin : Address) (newWasmHash : BytesN32)
  | executeUpgrade (admin : Address) (newWasmHash : BytesN32)
  | cancelUpgrade (admin : Address)
  | migrate (admin : Address)
  | backfillCappedSupply (admin tokenAddress : Address) (verifiedSupply : ℤ)
  | proposeAdmin (currentAdmin newAdmin : Address)
  | acceptAdmin (newAdmin : Address)
  | cancelAdminProposal (currentAdmin : Address)
  | transferAdmin (admin newAdmin : Address)
  | updateAdmin (currentAdmin newAdmin : Address)
  | backfillTokenAddress (tokenAddress : Address)
  | view (v : View)

/-- The value returned by an entrypoint. -/
inductive Ret
  | unit
  | bool (b : Bool)
  | u32 (n : ℕ)
  | i128 (x : ℤ)
  | address (a : Address)
  | addresses (as : List Address)
  | indices (is : List ℕ)
  | uri (uri : Option Bytes)
  | info (info : TokenInfo)
  | state (st : FactoryState)
  | split (splits : FeeSplit)
  | receipt (r : AdminRotationReceipt)

/-- Run `x` and wrap its value. -/
def wrap {α : Type} (f : α → Ret) (x : ContractM α) : ContractM Ret := do
  let a ← x
  pure (f a)

/-- What a view returns. -/
def View.exec : View → ContractM Ret
  | isWhitelisted address => wrap .bool (Factory.isWhitelisted address)
  | isMetadataFrozen tokenAddress => wrap .bool (Factory.isMetadataFrozen tokenAddress)
  | getMetadataVersion tokenAddress => wrap .u32 (Factory.getMetadataVersion tokenAddress)
  | getFeeSplit => wrap .split Factory.getFeeSplit
  | getState => wrap .state Factory.getState
  | getBaseFee => wrap .i128 Factory.getBaseFee
  | getMetadataFee => wrap .i128 Factory.getMetadataFee
  | getTokenInfo index => wrap .info (Factory.getTokenInfo index)
  | getTokenIndex tokenAddress => wrap .u32 (Factory.getTokenIndex tokenAddress)
  | getTokenAddress index => wrap .address (Factory.getTokenAddress index)
  | getTokenInfoByAddress tokenAddress =>
    wrap .info (Factory.getTokenInfoByAddress tokenAddress)
  | getMetadata tokenAddress => wrap .uri (Factory.getMetadata tokenAddress)
  | getTokensByCreator creator offset limit =>
    wrap .indices (Factory.getTokensByCreator creator offset limit)

/-- What a call does. -/
def Call.exec : Call → ContractM Ret
  | addToWhitelist admin address => wrap (fun _ => .unit) (Factory.addToWhitelist admin address)
  | removeFromWhitelist admin address =>
    wrap (fun _ => .unit) (Factory.removeFromWhitelist admin address)
  | setWhitelistEnabled admin enabled =>
    wrap (fun _ => .unit) (Factory.setWhitelistEnabled admin enabled)
  | createToken creator p feePayment => wrap .address (Factory.createToken creator p feePayment)
  | createTokensBatch creator tokens feePayment =>
    wrap .addresses (Factory.createTokensBatch creator tokens feePayment)
  | setMetadata tokenAddress admin metadataUri feePayment =>
    wrap (fun _ => .unit) (Factory.setMetadata tokenAddress admin metadataUri feePayment)
  | freezeMetadata tokenAddress admin =>
    wrap (fun _ => .unit) (Factory.freezeMetadata tokenAddress admin)
  | mintTokens tokenAddress admin recipient amount feePayment =>
    wrap (fun _ => .unit) (Factory.mintTokens tokenAddress admin recipient amount feePayment)
  | burn tokenAddress holder amount =>
    wrap (fun _ => .unit) (Factory.burn tokenAddress holder amount)
  | setBurnEnabled tokenAddress admin enabled =>
    wrap (fun _ => .unit) (Factory.setBurnEnabled tokenAddress admin enabled)
  | pause admin => wrap (fun _ => .unit) (Factory.pause admin)
  | unpause admin => wrap (fun _ => .unit) (Factory.unpause admin)
  | setFeeSplit admin splits => wrap (fun _ => .unit) (Factory.setFeeSplit admin splits)
  | updateFees admin baseFee metadataFee =>
    wrap (fun _ => .unit) (Factory.updateFees admin baseFee metadataFee)
  | proposeUpgrade admin newWasmHash =>
    wrap (fun _ => .unit) (Factory.proposeUpgrade admin newWasmHash)
  | executeUpgrade admin newWasmHash =>
    wrap (fun _ => .unit) (Factory.executeUpgrade admin newWasmHash)
  | cancelUpgrade admin => wrap (fun _ => .unit) (Factory.cancelUpgrade admin)
  | migrate admin => wrap (fun _ => .unit) (Factory.migrate admin)
  | backfillCappedSupply admin tokenAddress verifiedSupply =>
    wrap (fun _ => .unit) (Factory.backfillCappedSupply admin tokenAddress verifiedSupply)
  | proposeAdmin currentAdmin newAdmin =>
    wrap (fun _ => .unit) (Factory.proposeAdmin currentAdmin newAdmin)
  | acceptAdmin newAdmin => wrap (fun _ => .unit) (Factory.acceptAdmin newAdmin)
  | cancelAdminProposal currentAdmin =>
    wrap (fun _ => .unit) (Factory.cancelAdminProposal currentAdmin)
  | transferAdmin admin newAdmin => wrap .receipt (Factory.transferAdmin admin newAdmin)
  | updateAdmin currentAdmin newAdmin => wrap .receipt (Factory.updateAdmin currentAdmin newAdmin)
  | backfillTokenAddress tokenAddress => wrap .u32 (Factory.backfillTokenAddress tokenAddress)
  | view v => v.exec

@[simp] theorem returns_wrap {α : Type} {f : α → Ret} {x : ContractM α} {env : Env}
    {w w' : World} {r : Ret} :
    (wrap f x).Returns env w r w' ↔ ∃ a, x.Returns env w a w' ∧ f a = r := by
  simp only [wrap, returns_bind, returns_pure]
  constructor
  · rintro ⟨a, _, hx, hr, rfl⟩
    exact ⟨a, hx, hr⟩
  · rintro ⟨a, hx, hr⟩
    exact ⟨a, w', hx, hr, rfl⟩

/-! ### Runs -/

/-- A successful invocation: the environment it ran in, the call and the value it returned. -/
structure Invocation where
  env : Env
  call : Call
  ret : Ret

/-- One successful invocation under a host that refuses re-entry. -/
def Step (w : World) (i : Invocation) (w' : World) : Prop :=
  i.env.NoReentry ∧ i.call.exec.Returns i.env w i.ret w'

/-- The constructor has run in a fresh world and left `w`. -/
def Constructed (env : Env) (args : ConstructorArgs) (w : World) : Prop :=
  (factoryConstructor args).Returns env World.genesis () w

/-- A run of the contract: the constructor, then the successful invocations `h`, most recent
first. -/
def Reaches (args : ConstructorArgs) (h : List Invocation) (w : World) : Prop :=
  ∃ env w₀, Constructed env args w₀ ∧ Run Step w₀ h w

theorem Reaches.step {args : ConstructorArgs} {h : List Invocation} {w w' : World}
    {i : Invocation} (hr : Reaches args h w) (hs : Step w i w') : Reaches args (i :: h) w' := by
  obtain ⟨env, w₀, hc, hr⟩ := hr
  exact ⟨env, w₀, hc, .snoc hr hs⟩

/-- A constructor call that is known to return. -/
theorem reaches_constructor {args : ConstructorArgs} {env : Env}
    (h : (factoryConstructor args env World.genesis).map Prod.fst = some (.ok ())) :
    Reaches args [] ((factoryConstructor args).commit env World.genesis) :=
  ⟨env, _, returns_commit h, .nil⟩

/-- A call that is known to return. -/
theorem step_commit {env : Env} {w : World} {call : Call} {ret : Ret} (hre : env.NoReentry)
    (h : (call.exec env w).map Prod.fst = some (.ok ret)) :
    Step w ⟨env, call, ret⟩ (call.exec.commit env w) :=
  ⟨hre, returns_commit h⟩

/-! ### A permissive environment -/

/-- The reply of a host under which every call to another contract succeeds; the address of a new
contract is given by the salt. -/
def permissiveReply : (c : ExtCall) → c.Reply
  | .deploy _ salt _ => ⟨salt.toNat⟩
  | .balance _ _ => I128.MAX
  | .tryTransfer .. | .initToken .. | .mint .. | .burn .. | .updateCurrentContractWasm _ => ()

/-- The environment at ledger `sequence` in which `caller` alone has authorized the call and every
call to another contract succeeds. -/
def permissiveEnv (sequence : ℕ) (caller : Address) : Env where
  sequence := sequence
  timestamp := 0
  minPersistentTtl := 4096
  authorized a := a = caller
  host w c := some (permissiveReply c, w.storage)

instance (sequence : ℕ) (caller : Address) : (permissiveEnv sequence caller).NoReentry where
  storage_eq h := (congrArg Prod.snd (Option.some.inj h)).symm

end StellarForge.Factory
