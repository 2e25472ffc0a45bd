import StellarForge.Factory.Registry

/-!
# Governance entrypoints

Pausing, fees, the two-step upgrade with its timelock, schema migration, the supply back-fill and
the two-step admin rotation with its legacy aliases.
-/

namespace StellarForge.Factory

open Soroban Contract

/-! ### Pausing and fees -/

/-- The admin stops the entrypoints that require an unpaused factory. -/
def pause (admin : Address) : ContractM Unit := do
  requireAuth admin
  let state ← loadState
  throwIf (state.admin ≠ admin) .unauthorized
  saveState { state with paused := true }
  publish (.pause admin)

/-- The admin lets them run again. -/
def unpause (admin : Address) : ContractM Unit := do
  requireAuth admin
  let state ← loadState
  throwIf (state.admin ≠ admin) .unauthorized
  saveState { state with paused := false }
  publish (.unpause admin)

/-- A fee argument of `update_fees`: the new fee if one is given, which must not be negative. -/
def checkedFee (current : ℤ) : Option ℤ → ContractM ℤ
  | some fee => do
    throwIf (fee < 0) .invalidParameters
    pure fee
  | none => pure current

/-- The admin replaces one fee or both. -/
def updateFees (admin : Address) (baseFee metadataFee : Option ℤ) : ContractM Unit := do
  requireAuth admin
  let state ← loadState
  throwIf (admin ≠ state.admin) .unauthorized
  let newBaseFee ← checkedFee state.baseFee baseFee
  let newMetadataFee ← checkedFee state.metadataFee metadataFee
  saveState { state with baseFee := newBaseFee, metadataFee := newMetadataFee }
  publish (.fees baseFee metadataFee)

/-! ### Upgrades -/

/-- The admin announces a binary, which starts the timelock. -/
def proposeUpgrade (admin : Address) (newWasmHash : BytesN32) : ContractM Unit := do
  requireAuth admin
  let state ← loadState
  throwIf (state.admin ≠ admin) .unauthorized
  let env ← getEnv
  let readyAt ← okOr (U32.checkedAdd env.sequence UPGRADE_TIMELOCK_LEDGERS) .arithmeticOverflow
  -- a proposal that is pending is replaced, and its timelock with it
  saveState
    { state with pendingUpgradeHash := some newWasmHash, pendingUpgradeReadyAt := some readyAt }
  publish (.upgProp admin newWasmHash readyAt)

/-- After the timelock the announced binary becomes the factory's. -/
def executeUpgrade (admin : Address) (newWasmHash : BytesN32) : ContractM Unit := do
  requireAuth admin
  let state ← loadState
  throwIf (state.admin ≠ admin) .unauthorized
  let proposedHash ← okOr state.pendingUpgradeHash .noUpgradePending
  let readyAt ← okOr state.pendingUpgradeReadyAt .noUpgradePending
  let env ← getEnv
  throwIf (env.sequence < readyAt) .upgradeNotReady
  throwIf (proposedHash ≠ newWasmHash) .upgradeHashMismatch
  -- the hash of the factory's new code is written over the hash that `record_token` deploys
  saveState
    { state with
      pendingUpgradeHash := none, pendingUpgradeReadyAt := none, tokenWasmHash := newWasmHash }
  publish (.upgExec admin newWasmHash)
  updateCurrentContractWasm newWasmHash

/-- The admin takes the announcement back. -/
def cancelUpgrade (admin : Address) : ContractM Unit := do
  requireAuth admin
  let state ← loadState
  throwIf (state.admin ≠ admin) .unauthorized
  match state.pendingUpgradeHash with
  -- nothing is pending: no event either
  | none => pure ()
  | some cancelledHash =>
    saveState { state with pendingUpgradeHash := none, pendingUpgradeReadyAt := none }
    publish (.upgCan admin cancelledHash)

/-! ### Schema migration -/

/-- Finish one step of `migrate`: apply `update`, stamp the state and advance the marker. -/
def completeSchemaStep (version : ℕ) (update : FactoryState → FactoryState) : ContractM ℕ := do
  let state ← loadState
  saveState { update state with schemaVersion := version }
  setInst .sv version
  pure version

/-- The walk of the schema-v3 step over the `n` indices from `idx` on. -/
def moveTokenInfos : (idx n : ℕ) → ContractM Unit
  | _, 0 => pure ()
  | idx, n + 1 => do
    -- an entry that was moved before, or by a write, is passed over
    match ← getInst (.tokenInfo idx) with
    | some info =>
      setPersistent (.tokenInfo idx) info
      removeInst (.tokenInfo idx)
    | none => pure ()
    moveTokenInfos (idx + 1) n

/-- The schema-v3 step: move the next chunk of `TokenInfo` entries, and finish the step once the
cursor has caught up with `tokenCount`.  The result is the version reached. -/
def migrateV3 (tokenCount onChainVersion : ℕ) : ContractM ℕ := do
  let cursor ← getInst .mig3cur
  let cursor := cursor.getD 0
  let target := min (U32.saturatingAdd cursor MIGRATE_TOKEN_INFO_CHUNK) tokenCount
  -- `idx` saturates at `u32::MAX`, so a walk up to there never ends: the host's budget stops it
  trapUnless (target < U32.MAX)
  moveTokenInfos (U32.saturatingAdd cursor 1) (target + 1 - U32.saturatingAdd cursor 1)
  setInst .mig3cur target
  if target ≥ tokenCount then
    -- the flag is reset by the chunk that finishes the walk
    completeSchemaStep 3 fun s => { s with whitelistEnabled := false }
  else pure onChainVersion

/-- The steps after the chunked walk; they wait until it has finished. -/
def migrateV4V5 (onChainVersion : ℕ) : ContractM Unit := do
  if onChainVersion < 3 then pure ()
  else
    let onChainVersion ←
      if onChainVersion < 4 then
        completeSchemaStep 4 fun s => { s with pendingAdmin := none, pendingAdminExpiry := none }
      else pure onChainVersion
    let _ ←
      if onChainVersion < 5 then
        completeSchemaStep 5 fun s =>
          { s with pendingUpgradeHash := none, pendingUpgradeReadyAt := none }
      else pure onChainVersion
    pure ()

/-- The steps from the stored schema version to the one of this binary. -/
def migrate (admin : Address) : ContractM Unit := do
  requireAuth admin
  let state ← loadState
  throwIf (state.admin ≠ admin) .unauthorized
  let marker ← getInst .sv
  let onChainVersion := marker.getD 0
  -- every step looks at the version that the one before has reached
  let onChainVersion ←
    if onChainVersion < 1 then completeSchemaStep 1 id else pure onChainVersion
  let onChainVersion ←
    if onChainVersion < 2 then completeSchemaStep 2 id else pure onChainVersion
  let onChainVersion ←
    if onChainVersion < 3 then migrateV3 state.tokenCount onChainVersion else pure onChainVersion
  migrateV4V5 onChainVersion

/-! ### Back-fills -/

/-- The admin records the supply of a capped token that was made before supplies were recorded. -/
def backfillCappedSupply (admin tokenAddress : Address) (verifiedSupply : ℤ) :
    ContractM Unit := do
  requireAuth admin
  let state ← loadState
  throwIf (state.admin ≠ admin) .unauthorized
  let registered ← registeredToken tokenAddress
  let cap ← okOr registered.2.maxSupply .invalidParameters
  throwIf (verifiedSupply < 0 ∨ verifiedSupply > cap) .invalidParameters
  let already ← migrateAddrKeyed (.backfilled tokenAddress)
  throwIf (already.getD false = true) .alreadyBackfilled
  let current ← migrateAddrKeyed (.supply tokenAddress)
  -- the counter is only ever raised
  if verifiedSupply > current.getD 0 then setPersistent (.supply tokenAddress) verifiedSupply
  else pure ()
  setPersistent (.backfilled tokenAddress) true

/-- Write the missing `index → address` entry of a token; the index is read from the token's own
`TokenIndex` entry. -/
def backfillTokenAddress (tokenAddress : Address) : ContractM ℕ := do
  let index ← migrateAddrKeyed (.tokenIndex tokenAddress)
  let index ← okOr index .tokenNotFound
  let present ← getPersistent (.tokenAddress index)
  if present.isSome then pure index
  else
    setPersistent (.tokenAddress index) tokenAddress
    pure index

/-! ### Admin rotation -/

/-- The admin names a successor, who may accept until the proposal expires. -/
def proposeAdmin (currentAdmin newAdmin : Address) : ContractM Unit := do
  requireAuth currentAdmin
  let state ← loadState
  throwIf (state.admin ≠ currentAdmin) .unauthorized
  throwIf (currentAdmin = newAdmin) .invalidParameters
  let env ← getEnv
  let expiry ← okOr (U32.checkedAdd env.sequence ADMIN_PROPOSAL_TTL_LEDGERS) .arithmeticOverflow
  -- a proposal that is pending is replaced
  saveState { state with pendingAdmin := some newAdmin, pendingAdminExpiry := some expiry }
  publish (.admProp currentAdmin newAdmin expiry)

/-- The successor becomes the admin. -/
def acceptAdmin (newAdmin : Address) : ContractM Unit := do
  requireAuth newAdmin
  let state ← loadState
  let proposed ← okOr state.pendingAdmin .noPendingProposal
  throwIf (proposed ≠ newAdmin) .noPendingProposal
  -- a proposal without an expiry has expired
  let expiry := state.pendingAdminExpiry.getD 0
  let env ← getEnv
  throwIf (env.sequence ≥ expiry) .proposalExpired
  saveState { state with pendingAdmin := none, pendingAdminExpiry := none, admin := newAdmin }
  publish (.admAcc state.admin newAdmin)

/-- The admin takes the proposal back. -/
def cancelAdminProposal (currentAdmin : Address) : ContractM Unit := do
  requireAuth currentAdmin
  let state ← loadState
  throwIf (state.admin ≠ currentAdmin) .unauthorized
  match state.pendingAdmin with
  | none => pure ()
  | some cancelled =>
    saveState { state with pendingAdmin := none, pendingAdminExpiry := none }
    publish (.admCan currentAdmin cancelled)

/-- The shared body of the deprecated aliases: propose, then announce that this is a proposal. -/
def proposeAdminViaLegacyAlias (currentAdmin newAdmin : Address)
    (deprecatedEntrypoint : Symbol) : ContractM AdminRotationReceipt := do
  proposeAdmin currentAdmin newAdmin
  -- the expiry is read back from the state that was just saved
  let state ← loadState
  let expiresAtLedger := state.pendingAdminExpiry.getD 0
  publish (.admDep currentAdmin newAdmin expiresAtLedger deprecatedEntrypoint)
  pure { rotationComplete := false, pendingAdmin := newAdmin, expiresAtLedger,
         requiredNextCall := "accept_admin" }

/-- The older name of `proposeAdmin`. -/
def transferAdmin (admin newAdmin : Address) : ContractM AdminRotationReceipt :=
  proposeAdminViaLegacyAlias admin newAdmin "transfer_admin"

/-- Another older name of `proposeAdmin`. -/
def updateAdmin (currentAdmin newAdmin : Address) : ContractM AdminRotationReceipt :=
  proposeAdminViaLegacyAlias currentAdmin newAdmin "update_admin"

end StellarForge.Factory
