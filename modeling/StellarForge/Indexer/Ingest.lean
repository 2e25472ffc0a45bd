import StellarForge.Indexer.Chain
import StellarForge.Soroban.Frame

/-!
# Ingest

One cycle of the contract-event indexer: backfill from the factory's views, the event stream from
the stored cursor, and the reconciliation of the counts.  A cycle runs over a store, together with
a history variable that no function reads: the row writes in their order.
-/

namespace StellarForge.Indexer

open Soroban Contract MemoryTokenStore

/-- Token indices read per backfill batch. -/
def BACKFILL_BATCH_SIZE : ℕ := 25

/-- Maximum backfill batches per run. -/
def MAX_BACKFILL_BATCHES_PER_RUN : ℕ := 8

/-- Maximum `getEvents` pages walked per run. -/
def MAX_EVENT_PAGES_PER_RUN : ℕ := 20

/-! ### The store during a cycle -/

/-- A write to a row. -/
inductive Write
  | upsert (token : IndexedToken)
  | setUri (address metadataUri : String)
  deriving DecidableEq, Repr

/-- The store, and the row writes that led to it, oldest first. -/
structure Ingesting where
  store : MemoryTokenStore
  writes : List Write

/-- A cycle reads the chain through `SorobanRpc`; its errors are texts. -/
abbrev IngestM := Contract SorobanRpc Ingesting String

/-- What a write does to the rows. -/
def Write.apply (tokens : Collections.Keyed IndexedToken.address) :
    Write → Collections.Keyed IndexedToken.address
  | .upsert token => upsertToken tokens token
  | .setUri address metadataUri => setMetadataUri tokens address metadataUri

/-- Perform one write. -/
def Ingesting.perform (s : Ingesting) (w : Write) : Ingesting where
  store := { s.store with tokens := w.apply s.store.tokens }
  writes := s.writes ++ [w]

/-- A write. -/
def write (w : Write) : IngestM Unit :=
  modifyWorld fun _ s => s.perform w

/-- Rows are written one after the other. -/
def upsertTokens : List IndexedToken → IngestM Unit
  | [] => pure ()
  | token :: tokens => do
    write (.upsert token)
    upsertTokens tokens

/-- The store as it is. -/
def getStore : IngestM MemoryTokenStore := do
  return (← getWorld).store

/-- The state of the indexer is patched. -/
def saveState (patch : SorobanRpc → IndexerState → IndexerState) : IngestM Unit :=
  modifyWorld fun rpc s => { s with store := { s.store with state := patch rpc s.store.state } }

/-! ### Backfill -/

/-- Read every index that is not already stored and upsert it: the number of rows written. -/
def backfillIndices (indices : List ℕ) : IngestM ℕ := do
  let store ← getStore
  let missing := indices.filter fun i => !(store.presentIndices indices).contains i
  let rpc ← getEnv
  -- an index that could not be read is left out, and read again in a later run
  let rows := missing.filterMap (getTokenByIndex rpc)
  upsertTokens rows
  return rows.length

/-- The batches of `runBackfill` that are left. -/
def runBackfillBatches (tokenCount : ℕ) : ℕ → IngestM ℕ
  | 0 => pure 0
  | batches + 1 => do
    let indexed := (← getStore).countTokens
    if indexed ≥ tokenCount then
      return 0
    else
      -- the rows stored are taken for the first ones, so the batch begins after their number
      let start := indexed + 1
      let finish := min (start + BACKFILL_BATCH_SIZE - 1) tokenCount
      let count ← backfillIndices (List.range' start (finish + 1 - start))
      -- a batch without a row ends the backfill of this run
      if count = 0 then
        return 0
      else
        let written ← runBackfillBatches tokenCount batches
        return count + written

/-- Phase A. -/
def runBackfill (tokenCount : ℕ) : IngestM ℕ :=
  runBackfillBatches tokenCount MAX_BACKFILL_BATCHES_PER_RUN

/-! ### Steady state -/

/-- The rows of the `created` events of a page. -/
def createdTokens (events : List IndexerEvent) : List IndexedToken :=
  events.filterMap fun
    | .created token => some token
    | .metadata .. => none

/-- Apply the `meta` events of a page. -/
def applyMetadata : List IndexerEvent → IngestM Unit
  | [] => pure ()
  | .metadata address metadataUri :: events => do
    write (.setUri address metadataUri)
    applyMetadata events
  | .created _ :: events => applyMetadata events

/-- The pages of `runSteadyState` that are left: the number of events applied. -/
def runPages (cursor : Option String) (lastLedger : Option ℕ) (lastCloseTime : Option ℤ) :
    ℕ → IngestM ℕ
  | 0 => pure 0
  | pages + 1 => do
    let rpc ← getEnv
    -- an error here ends the run: the pages before it are applied already
    let result ← ofExcept (getEventPage rpc cursor)
    upsertTokens (createdTokens result.events)
    applyMetadata result.events
    let lastLedger := result.latestLedger.or lastLedger
    let lastCloseTime := result.latestLedgerCloseTime.or lastCloseTime
    -- the cursor is saved only after the writes of its page
    saveState fun _ state =>
      { state with
        lastCursor := result.cursor
        lastLedger := lastLedger
        lastLedgerCloseTime := lastCloseTime }
    if result.cursor = none then
      return result.events.length
    else
      let applied ← runPages result.cursor lastLedger lastCloseTime pages
      return result.events.length + applied

/-- Phase B. -/
def runSteadyState : IngestM ℕ := do
  -- the walk goes on from the cursor that was saved last
  let state := (← getStore).state
  runPages state.lastCursor state.lastLedger state.lastLedgerCloseTime MAX_EVENT_PAGES_PER_RUN

/-! ### A cycle -/

/-- What a run reports. -/
structure IngestResult where
  backfilled : ℕ := 0
  eventsApplied : ℕ := 0
  reconciled : ℕ := 0
  backfillComplete : Bool := false
  tokenCount : ℕ := 0
  indexedCount : ℕ := 0
  error : Option String := none
  deriving DecidableEq, Repr

/-- Re-read missing indices when fewer rows are stored than the factory has tokens. -/
def reconcileCount (tokenCount : ℕ) : IngestM ℕ := do
  let store ← getStore
  if store.countTokens < tokenCount then
    -- here the gaps are looked for from the first index on
    let all := List.range' 1 tokenCount
    let missing := (all.filter fun i => !(store.presentIndices all).contains i).take
      BACKFILL_BATCH_SIZE
    backfillIndices missing
  else
    return 0

/-- The `catch` of `runIngest`: the error is recorded, and the result is what it was. -/
def recordError (result : IngestResult) (err : String) : IngestM IngestResult := do
  saveState fun rpc state => { state with lastRunAt := some rpc.now, lastError := some err }
  return { result with error := some err }

/-- The end of a cycle, after the event stream. -/
def finishCycle (result : IngestResult) : IngestM IngestResult := do
  let reconciled ← reconcileCount result.tokenCount
  let indexed := (← getStore).countTokens
  let backfillComplete := decide (indexed ≥ result.tokenCount)
  saveState fun rpc state =>
    { state with lastRunAt := some rpc.now, lastError := none, backfillComplete }
  return { result with reconciled, indexedCount := indexed, backfillComplete }

/-- One full cycle.  It never throws: the two calls that can, for the token count and for a page of
events, are caught, and the cursor stays where the last page put it. -/
def runIngest : IngestM IngestResult := do
  let rpc ← getEnv
  match rpc.tokenCount with
  | .error err => recordError {} err
  | .ok tokenCount =>
    -- the flag is read once: a run that finds it set skips the backfill
    let state := (← getStore).state
    let backfilled ← if state.backfillComplete then pure 0 else runBackfill tokenCount
    match ← attempt runSteadyState with
    | .error err => recordError { tokenCount, backfilled } err
    | .ok eventsApplied => finishCycle { tokenCount, backfilled, eventsApplied }

end StellarForge.Indexer
