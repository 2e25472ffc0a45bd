import StellarForge.Factory.Helpers

/-!
# Per-token registry helpers and the whitelist

A registered token has a `TokenInfo` under its creation index, the index under its address, the
address under its index, its creator under `(token, "owner")`, and its index on a page of the
creator's token list.
-/

namespace StellarForge.Factory

open Soroban Contract

/-! ### A creator's paginated token list -/

/-- The loop that moves a legacy list into pages: each full page is written out, and the number of
indices moved and the last, partial page are returned. -/
def migrateLegacyPages (creator : Address) :
    List ℕ → (migrated : ℕ) → (bucket : List ℕ) → ContractM (ℕ × List ℕ)
  | [], migrated, bucket => pure (migrated, bucket)
  | tokIndex :: legacy, migrated, bucket => do
    let bucket := bucket ++ [tokIndex]
    let migrated ← okOr (U32.checkedAdd migrated 1) .arithmeticOverflow
    if migrated % MAX_TOKENS_BY_CREATOR_PAGE = 0 then
      -- the page just filled is the one before the quotient
      let page ← okOr (U32.checkedSub (migrated / MAX_TOKENS_BY_CREATOR_PAGE) 1)
        .arithmeticOverflow
      setPersistent (.creatorTokens creator page) bucket
      migrateLegacyPages creator legacy migrated []
    else
      migrateLegacyPages creator legacy migrated bucket

/-- The number of tokens of `creator` before an append.  Where there is no count yet the whole
legacy list (if any) is moved into pages first. -/
def creatorTokenCount (creator : Address) : ContractM ℕ := do
  match ← getPersistent (.creatorTokenCount creator) with
  | some count =>
    modifyWorld fun env w => w.extendTtl env (.creatorTokenCount creator)
    pure count
  | none =>
    let legacy ← getInst (.legacyCreatorTokens creator)
    -- the legacy list goes away with its first use, so it is moved once
    removeInst (.legacyCreatorTokens creator)
    let moved ← migrateLegacyPages creator (legacy.getD []) 0 []
    if moved.2 ≠ [] then
      setPersistent (.creatorTokens creator (moved.1 / MAX_TOKENS_BY_CREATOR_PAGE)) moved.2
    else pure ()
    pure moved.1

/-- Append `index` to the token list of `creator`. -/
def appendCreatorToken (creator : Address) (index : ℕ) : ContractM Unit := do
  let count ← creatorTokenCount creator
  let page := count / MAX_TOKENS_BY_CREATOR_PAGE
  let bucket ← getPersistent (.creatorTokens creator page)
  setPersistent (.creatorTokens creator page) (bucket.getD [] ++ [index])
  let count ← okOr (U32.checkedAdd count 1) .arithmeticOverflow
  setPersistent (.creatorTokenCount creator) count

/-! ### Registration and lookup -/

/-- Write every registry entry of a new token. -/
def registerToken (tokenAddress creator : Address) (index : ℕ) (info : TokenInfo) :
    ContractM Unit := do
  setPersistent (.tokenInfo index) info
  appendCreatorToken creator index
  setPersistent (.tokenIndex tokenAddress) index
  setPersistent (.tokenAddress index) tokenAddress
  setPersistent (.owner tokenAddress) creator

/-- Stored creator of a registered token. -/
def tokenCreator (tokenAddress : Address) : ContractM Address := do
  let creator ← migrateAddrKeyed (.owner tokenAddress)
  okOr creator .tokenNotFound

/-- Index and `TokenInfo` of a registered token. -/
def registeredToken (tokenAddress : Address) : ContractM (ℕ × TokenInfo) := do
  let index ← migrateAddrKeyed (.tokenIndex tokenAddress)
  let index ← okOr index .tokenNotFound
  let info ← migrateAddrKeyed (.tokenInfo index)
  let info ← okOr info .tokenNotFound
  pure (index, info)

/-- The explicit flag of a token, migrated on the way. -/
def metadataFrozen (tokenAddress : Address) : ContractM Bool := do
  let frozen ← migrateAddrKeyed (.metadataFrozen tokenAddress)
  pure (frozen.getD false)

/-! ### The whitelist -/

/-- Whether `address` is whitelisted, for the view and the creation gates alike. -/
def whitelistContains (address : Address) : ContractM Bool := do
  -- read where it lies, without moving the entry
  let listed ← readAddrKeyed (.whitelist address)
  pure (listed.getD false)

/-- Reject `creator` when enforcement is on and it is not listed. -/
def requireWhitelisted (state : FactoryState) (creator : Address) : ContractM Unit := do
  if state.whitelistEnabled then
    let listed ← whitelistContains creator
    throwIf (listed = false) .notWhitelisted
  else pure ()

/-- The admin lists an address. -/
def addToWhitelist (admin address : Address) : ContractM Unit := do
  requireAuth admin
  let state ← loadState
  throwIf (state.admin ≠ admin) .unauthorized
  setPersistent (.whitelist address) true
  publish (.wlAdd address)

/-- The admin takes an address off the list. -/
def removeFromWhitelist (admin address : Address) : ContractM Unit := do
  requireAuth admin
  let state ← loadState
  throwIf (state.admin ≠ admin) .unauthorized
  modifyWorld fun _ w => w.removePersistent (.whitelist address)
  -- a stale instance entry must not resurrect the whitelisting
  removeInst (.whitelist address)
  publish (.wlRm address)

/-- The admin has the whitelist enforced, or no longer. -/
def setWhitelistEnabled (admin : Address) (enabled : Bool) : ContractM Unit := do
  requireAuth admin
  let state ← loadState
  throwIf (state.admin ≠ admin) .unauthorized
  saveState { state with whitelistEnabled := enabled }
  publish (.wlTog enabled)

end StellarForge.Factory
