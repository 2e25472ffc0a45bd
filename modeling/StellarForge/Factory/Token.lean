import StellarForge.Factory.Fee
import StellarForge.Factory.Registry

/-!
# Token entrypoints

Creation, single and in batches, minting, burning and metadata: the entrypoints that charge a fee,
call other contracts or write per-token records.
-/

namespace StellarForge.Factory

open Soroban Contract

/-- A paused factory answers `ContractPaused`. -/
def requireNotPaused : ContractM Unit := do
  let state ← loadState
  throwIf (state.paused = true) .contractPaused

/-! ### Creation -/

/-- The validation shared by both creation paths. -/
def validateTokenParams (p : BatchTokenParams) : ContractM Unit := do
  throwIf (p.name.length = 0 ∨ p.name.length > 32) .invalidTokenParams
  throwIf (p.symbol.length = 0 ∨ p.symbol.length > 12) .invalidTokenParams
  throwIf (p.decimals > 18) .invalidDecimals
  throwIf (p.initialSupply < 0) .invalidParameters
  match p.maxSupply with
  | some cap => throwIf (cap ≤ 0 ∨ p.initialSupply > cap) .invalidParameters
  | none => pure ()

/-- The initial mint to the creator. -/
def mintInitialSupply (tokenAddress creator : Address) (p : BatchTokenParams) :
    ContractM Unit :=
  if p.initialSupply > 0 then mintToken tokenAddress creator p.initialSupply else pure ()

/-- The counter of a capped token starts at the supply minted at creation. -/
def seedSupply (tokenAddress : Address) (p : BatchTokenParams) : ContractM Unit :=
  if p.maxSupply.isSome then setPersistent (.supply tokenAddress) p.initialSupply else pure ()

/-- Deploy one token contract and write all of its bookkeeping; the result is the token's address
and the caller's `state` with the token counted. -/
def recordToken (creator : Address) (p : BatchTokenParams) (state : FactoryState) :
    ContractM (Address × FactoryState) := do
  let tokenAddress ← deploy creator p.salt state.tokenWasmHash
  initializeToken tokenAddress creator p.decimals p.name p.symbol
  mintInitialSupply tokenAddress creator p
  seedSupply tokenAddress p
  -- tokens are numbered from 1
  let index ← okOr (U32.checkedAdd state.tokenCount 1) .arithmeticOverflow
  let env ← getEnv
  registerToken tokenAddress creator index
    { name := p.name, symbol := p.symbol, decimals := p.decimals, creator,
      createdAt := env.timestamp, burnEnabled := true, maxSupply := p.maxSupply }
  publish (.created tokenAddress creator p.name p.symbol)
  pure (tokenAddress, { state with tokenCount := index })

/-- One creation: its fee, and then its records and its contract. -/
def createTokenInner (creator : Address) (p : BatchTokenParams) (state : FactoryState) :
    ContractM (Address × FactoryState) := do
  distributeFee state creator state.baseFee
  recordToken creator p state

/-- A creator pays for a token and gets its address. -/
def createToken (creator : Address) (p : BatchTokenParams) (feePayment : ℤ) :
    ContractM Address := do
  requireNotPaused
  requireAuth creator
  let state ← loadUnlockedState
  validateTokenParams p
  throwIf (feePayment < state.baseFee) .insufficientFee
  requireWhitelisted state creator
  throwIf (U32.checkedAdd state.tokenCount 1 = none) .arithmeticOverflow
  let state ← setLocked state true
  match ← attempt (createTokenInner creator p state) with
  | .ok (tokenAddress, state) =>
    let _ ← setLocked state false
    pure tokenAddress
  | .error e =>
    -- the error rolls the invocation back, so the state written here is never seen
    let _ ← setLocked state false
    fail e

/-- The validation loop of `create_tokens_batch`. -/
def validateBatch : List BatchTokenParams → ContractM Unit
  | [] => pure ()
  | p :: rest => do
    validateTokenParams p
    validateBatch rest

/-- The recording loop of `create_tokens_batch`. -/
def recordTokens (creator : Address) : List BatchTokenParams → (addresses : List Address) →
    FactoryState → ContractM (List Address × FactoryState)
  | [], addresses, state => pure (addresses, state)
  | p :: rest, addresses, state => do
    let recorded ← recordToken creator p state
    recordTokens creator rest (addresses ++ [recorded.1]) recorded.2

/-- A creator pays for several tokens, which are created in their order. -/
def createTokensBatch (creator : Address) (tokens : List BatchTokenParams) (feePayment : ℤ) :
    ContractM (List Address) := do
  requireNotPaused
  requireAuth creator
  let state ← loadUnlockedState
  let count : ℤ := tokens.length
  throwIf (count = 0) .invalidParameters
  throwIf (tokens.length > MAX_BATCH_SIZE) .batchSizeExceeded
  -- every entry is checked before any token is made
  validateBatch tokens
  let _ ← okOr (U32.checkedAdd state.tokenCount tokens.length) .arithmeticOverflow
  let totalFee ← okOr (I128.checkedMul state.baseFee count) .arithmeticOverflow
  throwIf (feePayment < totalFee) .insufficientFee
  requireWhitelisted state creator
  let state ← setLocked state true
  let recorded ← recordTokens creator tokens [] state
  -- the whole total is paid once, after the last token
  distributeFee recorded.2 creator totalFee
  let _ ← setLocked recorded.2 false
  pure recorded.1

/-! ### Metadata -/

/-- The bytes of `ipfs://`. -/
def ipfsPrefix : Bytes := [105, 112, 102, 115, 58, 47, 47]

/-- Accept only `ipfs://<cid>` URIs of at most `METADATA_URI_MAX_LEN` bytes. -/
def validateMetadataUri (metadataUri : Bytes) : ContractM Unit := do
  throwIf (metadataUri.length = 0) .invalidMetadataUri
  throwIf (metadataUri.length > METADATA_URI_MAX_LEN) .invalidMetadataUri
  -- something has to follow the scheme
  throwIf (metadataUri.length ≤ 7) .invalidMetadataUri
  throwIf (metadataUri.take 7 ≠ ipfsPrefix) .invalidMetadataUri

/-- The creator pays for another metadata URI of a token that is not frozen. -/
def setMetadata (tokenAddress admin : Address) (metadataUri : Bytes) (feePayment : ℤ) :
    ContractM Unit := do
  requireNotPaused
  requireAuth admin
  let state ← loadUnlockedState
  throwIf (feePayment < state.metadataFee) .insufficientFee
  validateMetadataUri metadataUri
  let creator ← tokenCreator tokenAddress
  throwIf (creator ≠ admin) .unauthorized
  let frozen ← metadataFrozen tokenAddress
  throwIf (frozen = true) .metadataFrozen
  -- the version is read where it lies, and moved up on the way
  let version ← migrateAddrKeyed (.metadataVersion tokenAddress)
  let version := version.getD 0
  throwIf (version ≥ METADATA_MAX_UPDATES) .metadataFrozen
  -- the lock is held while the fee is paid, since the fee token is another contract
  let state ← setLocked state true
  distributeFee state admin state.metadataFee
  let newVersion ← okOr (U32.checkedAdd version 1) .arithmeticOverflow
  setPersistent (.metadata tokenAddress) metadataUri
  setPersistent (.metadataVersion tokenAddress) newVersion
  let _ ← setLocked state false
  publish (.metaSet tokenAddress metadataUri newVersion)

/-- The creator has the metadata stay as it is. -/
def freezeMetadata (tokenAddress admin : Address) : ContractM Unit := do
  requireNotPaused
  requireAuth admin
  let creator ← tokenCreator tokenAddress
  throwIf (creator ≠ admin) .unauthorized
  let frozen ← metadataFrozen tokenAddress
  -- freezing twice is no error
  if frozen then pure ()
  else
    setPersistent (.metadataFrozen tokenAddress) true
    publish (.metaFrz tokenAddress admin)

/-! ### Minting and burning -/

/-- The cap check of `mint_tokens`: advance the tracked supply of a capped token. -/
def trackMint (tokenAddress : Address) (maxSupply : Option ℤ) (amount : ℤ) : ContractM Unit := do
  match maxSupply with
  | some cap =>
    let current ← migrateAddrKeyed (.supply tokenAddress)
    let newTotal ← okOr (I128.checkedAdd (current.getD 0) amount) .arithmeticOverflow
    -- the counter is that of all mints, so burning makes no room under the cap
    throwIf (newTotal > cap) .maxSupplyExceeded
    setPersistent (.supply tokenAddress) newTotal
  | none => pure ()

/-- The creator pays for more of a token, up to its cap. -/
def mintTokens (tokenAddress admin recipient : Address) (amount feePayment : ℤ) :
    ContractM Unit := do
  requireNotPaused
  requireAuth admin
  throwIf (amount ≤ 0) .invalidParameters
  let state ← loadUnlockedState
  throwIf (feePayment < state.baseFee) .insufficientFee
  let registered ← registeredToken tokenAddress
  let creator ← tokenCreator tokenAddress
  throwIf (creator ≠ admin) .unauthorized
  -- the cap is checked and counted before the fee is paid and the tokens are minted
  trackMint tokenAddress registered.2.maxSupply amount
  let state ← setLocked state true
  distributeFee state admin state.baseFee
  mintToken tokenAddress recipient amount
  let _ ← setLocked state false
  publish (.mint tokenAddress recipient amount)

/-- The stored state as `burn` reads it: `none` before the factory is initialized. -/
def loadState? : ContractM (Option FactoryState) := do
  match ← getInst .state with
  | none => pure none
  | some m =>
    match FactoryState.decode m with
    | none => trap
    | some state => pure (some state)

/-- An entry that does not decode traps, so that what is returned is the stored state. -/
theorem returns_loadState? {env : Env} {w w' : World} {o : Option FactoryState}
    (h : loadState?.Returns env w o w') : w.state? = o ∧ w = w' := by
  simp only [loadState?, returns_bind, returns_getInst] at h
  obtain ⟨m, _, ⟨hm, rfl⟩, h⟩ := h
  rcases m with _ | m
  · rw [returns_pure] at h
    exact ⟨by rw [World.state?, hm, ← h.1]; rfl, h.2⟩
  · rcases hd : FactoryState.decode m with _ | st
    · simp [hd] at h
    · simp only [hd, returns_pure] at h
      refine ⟨?_, h.2⟩
      rw [World.state?, hm, ← h.1]
      exact hd

/-- A holder destroys some of a balance, where burns are enabled. -/
def burn (tokenAddress holder : Address) (amount : ℤ) : ContractM Unit := do
  requireAuth holder
  throwIf (amount ≤ 0) .invalidBurnAmount
  let registered ← registeredToken tokenAddress
  throwIf (registered.2.burnEnabled = false) .unauthorized
  -- the balance is asked of the token contract, before the lock is taken
  let balance ← balanceOfToken tokenAddress holder
  throwIf (amount > balance) .burnAmountExceedsBalance
  match ← loadState? with
  | some state =>
    throwIf (state.locked = true) .reentrancy
    let state ← setLocked state true
    burnToken tokenAddress holder amount
    let _ ← setLocked state false
    publish (.burn tokenAddress holder amount)
  | none =>
    -- no state to protect before initialization
    burnToken tokenAddress holder amount
    publish (.burn tokenAddress holder amount)

/-- The creator allows burns, or no longer. -/
def setBurnEnabled (tokenAddress admin : Address) (enabled : Bool) : ContractM Unit := do
  requireAuth admin
  let state ← loadUnlockedState
  let creator ← tokenCreator tokenAddress
  throwIf (creator ≠ admin) .unauthorized
  let registered ← registeredToken tokenAddress
  let state ← setLocked state true
  setPersistent (.tokenInfo registered.1) { registered.2 with burnEnabled := enabled }
  let _ ← setLocked state false

end StellarForge.Factory
