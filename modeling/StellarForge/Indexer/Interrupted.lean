import StellarForge.Concurrency.Rejections
import StellarForge.Indexer.Cycles

/-!
# A cycle with calls that reject

`runIngest` over any `ChainReader`, where every call of the chain and of the store can reject.  What
the store answers is what the in-memory store does; a rejected `upsertTokens` may have written some
of its rows, and any other call that rejects leaves the store alone.
-/

namespace StellarForge.Indexer.Interrupted

open Concurrency Soroban Contract MemoryTokenStore

/-- One `getEvents` page; an event on which ingest does not act is `none`. -/
structure EventPage where
  events : List (Option IndexerEvent)
  cursor : Option String
  latestLedger : Option ℕ
  latestLedgerCloseTime : Option ℤ
  deriving DecidableEq, Repr

/-- The chain, at one moment. -/
structure ChainReader where
  getTokenCount : ℕ
  getTokenByIndex : ℕ → Option IndexedToken
  getEventPage : Option String → EventPage

/-- What a cycle meets, by the number of the call: the chain, and `Date.now()`. -/
structure Surroundings where
  chain : ℕ → ChainReader
  now : ℕ → ℤ

/-- Why a call rejects, and how many rows it has written before. -/
structure Rejection where
  message : String
  written : ℕ := 0
  deriving DecidableEq, Repr

/-- The store and the `result` of a cycle, with its history: the row writes, and the pages that have
been read. -/
structure Cycling extends Ingesting where
  result : IngestResult := {}
  pages : List EventPage := []

/-- A run over calls that may be rejected. -/
abbrev CycleM := Calling Surroundings Cycling Rejection

/-! ### The calls -/

/-- The writes are done. -/
def Cycling.performAll (s : Cycling) (ws : List Write) : Cycling :=
  { s with toIngesting := s.toIngesting.performAll ws }

/-- The state of the indexer is replaced. -/
def Cycling.setState (s : Cycling) (state : IndexerState) : Cycling :=
  { s with store := { s.store with state } }

/-- A call that reads the chain. -/
def ofChain {α : Type} (read : ChainReader → α) : CycleM α :=
  call (fun env n s => (read (env.chain n), s)) fun _ s => s

/-- A call that reads the store. -/
def ofStore {α : Type} (read : MemoryTokenStore → α) : CycleM α :=
  call (fun _ _ s => (read s.store, s)) fun _ s => s

/-- A call that writes rows. -/
def writeRows (ws : List Write) : CycleM Unit :=
  call (fun _ _ s => ((), s.performAll ws)) fun r s => s.performAll (ws.take r.written)

/-- The count of the chain. -/
def getTokenCount : CycleM ℕ := ofChain ChainReader.getTokenCount

/-- A record of the chain. -/
def getTokenByIndex (index : ℕ) : CycleM (Option IndexedToken) :=
  ofChain fun chain => chain.getTokenByIndex index

/-- A page of events, which is remembered. -/
def getEventPage (cursor : Option String) : CycleM EventPage :=
  call (fun env n s =>
    ((env.chain n).getEventPage cursor,
      { s with pages := s.pages ++ [(env.chain n).getEventPage cursor] })) fun _ s => s

/-- Rows are written. -/
def upsertTokens (tokens : List IndexedToken) : CycleM Unit := writeRows (tokens.map .upsert)

/-- The URI of a row is written. -/
def setMetadataUri (address metadataUri : String) : CycleM Unit :=
  writeRows [.setUri address metadataUri]

/-- The number of rows. -/
def countTokens : CycleM ℕ := ofStore MemoryTokenStore.countTokens

/-- Those of the indices that have a row. -/
def presentIndices (indices : List ℕ) : CycleM (List ℕ) :=
  ofStore fun store => store.presentIndices indices

/-- The state of the indexer. -/
def getState : CycleM IndexerState := ofStore MemoryTokenStore.state

/-- The state of the indexer is patched. -/
def saveState (patch : ℤ → IndexerState → IndexerState) : CycleM Unit :=
  call (fun env n s => ((), s.setState (patch (env.now n) s.store.state))) fun _ s => s

/-- An assignment to fields of `result`. -/
def assign (f : IngestResult → IngestResult) : CycleM Unit :=
  update fun s => { s with result := f s.result }

/-! ### Backfill -/

/-- The rows of the indices that the factory knows. -/
def readRows : List ℕ → CycleM (List IndexedToken)
  | [] => pure []
  | index :: indices => do
    let token ← getTokenByIndex index
    let rows ← readRows indices
    return (token.map fun token => { token with source := .backfill }).toList ++ rows

/-- The records with these indices are read and written. -/
def backfillIndices (indices : List ℕ) : CycleM ℕ :=
  if indices = [] then
    return 0
  else do
    let present ← presentIndices indices
    let missing := indices.filter fun i => !present.contains i
    if missing = [] then
      return 0
    else
      let rows ← readRows missing
      upsertTokens rows
      return rows.length

/-- The batches of `runBackfill` that are left. -/
def runBackfillBatches (tokenCount : ℕ) : ℕ → CycleM ℕ
  | 0 => pure 0
  | batches + 1 => do
    let indexed ← countTokens
    if indexed ≥ tokenCount then
      return 0
    else
      let start := indexed + 1
      let finish := min (start + BACKFILL_BATCH_SIZE - 1) tokenCount
      if start > finish then
        return 0
      else
        let count ← backfillIndices (List.range' start (finish + 1 - start))
        if count = 0 then
          return 0
        else
          let written ← runBackfillBatches tokenCount batches
          return count + written

/-- The batches of one run. -/
def runBackfill (tokenCount : ℕ) : CycleM ℕ :=
  runBackfillBatches tokenCount MAX_BACKFILL_BATCHES_PER_RUN

/-! ### Steady state -/

/-- The rows of the `created` events of a page. -/
def EventPage.created (page : EventPage) : List IndexedToken :=
  (createdTokens page.events.reduceOption).map fun token => { token with source := .event }

/-- Apply the `meta` events of a page. -/
def applyMetadata : List (Option IndexerEvent) → CycleM Unit
  | [] => pure ()
  | some (.metadata address metadataUri) :: events => do
    setMetadataUri address metadataUri
    applyMetadata events
  | some (.created _) :: events => applyMetadata events
  | none :: events => applyMetadata events

/-- `if (created.length > 0) await store.upsertTokens(created)` -/
def upsertCreated (created : List IndexedToken) : CycleM Unit :=
  if created = [] then pure () else upsertTokens created

/-- Write the rows of a page. -/
def applyPage (page : EventPage) : CycleM Unit := do
  upsertCreated page.created
  applyMetadata page.events

/-- The pages of `runSteadyState` that are left: the number of events applied. -/
def runPages (cursor : Option String) (lastLedger : Option ℕ) (lastCloseTime : Option ℤ) :
    ℕ → CycleM ℕ
  | 0 => pure 0
  | pages + 1 => do
    let result ← getEventPage cursor
    applyPage result
    let lastLedger := result.latestLedger.or lastLedger
    let lastCloseTime := result.latestLedgerCloseTime.or lastCloseTime
    -- the checkpoint advances only after the page has been written
    saveState fun _ state =>
      { state with
        lastCursor := result.cursor
        lastLedger := lastLedger
        lastLedgerCloseTime := lastCloseTime }
    if result.cursor = none then
      return result.events.length
    else
      let applied ← runPages result.cursor lastLedger lastCloseTime pages
      return result.events.length + applied

/-- The pages of one run, from the stored cursor on. -/
def runSteadyState : CycleM ℕ := do
  let state ← getState
  runPages state.lastCursor state.lastLedger state.lastLedgerCloseTime MAX_EVENT_PAGES_PER_RUN

/-! ### A cycle -/

/-- The reconciliation: the number of rows after it. -/
def reconcile (tokenCount : ℕ) : CycleM ℕ := do
  let indexed ← countTokens
  if indexed < tokenCount then
    let all := List.range' 1 tokenCount
    let present ← presentIndices all
    let missing := (all.filter fun i => !present.contains i).take BACKFILL_BATCH_SIZE
    let reconciled ← backfillIndices missing
    assign fun result => { result with reconciled }
    countTokens
  else
    return indexed

/-- Phase A, unless the backfill is complete. -/
def backfillUnlessComplete (tokenCount : ℕ) : CycleM Unit := do
  let state ← getState
  if state.backfillComplete then
    return ()
  else
    let backfilled ← runBackfill tokenCount
    assign fun result => { result with backfilled }

/-- The phases of a cycle, up to the checkpoint that ends it: whether the backfill is complete. -/
def runPhases : CycleM Bool := do
  let tokenCount ← getTokenCount
  assign fun result => { result with tokenCount }
  backfillUnlessComplete tokenCount
  let eventsApplied ← runSteadyState
  assign fun result => { result with eventsApplied }
  let indexed ← reconcile tokenCount
  let backfillComplete := decide (indexed ≥ tokenCount)
  assign fun result => { result with indexedCount := indexed, backfillComplete }
  return backfillComplete

/-- The `try` of `runIngest`. -/
def runCycle : CycleM Unit := do
  let backfillComplete ← runPhases
  saveState fun now state =>
    { state with lastRunAt := some now, lastError := none, backfillComplete }

/-- The `catch` of `runIngest`. -/
def recordError (err : Rejection) : CycleM Unit := do
  assign fun result => { result with error := some err.message }
  saveState fun now state => { state with lastRunAt := some now, lastError := some err.message }

/-- A run, which records what it throws. -/
def runIngest : CycleM IngestResult := do
  guarded runCycle recordError
  look Cycling.result

/-- A cycle that begins over a store. -/
def start (store : MemoryTokenStore) : Counted Cycling where
  calls := 0
  state := { store, writes := [] }

/-! ### What a cycle has to keep -/

/-- The row writes of a page. -/
def EventPage.writes (page : EventPage) : List Write :=
  page.created.map .upsert ++ page.events.reduceOption.filterMap IndexerEvent.metadataWrite

/-- The pages follow one another from the cursor: each is what the chain answered at some moment. -/
def Follow (env : Surroundings) : Option String → List EventPage → Prop
  | _, [] => True
  | cursor, page :: pages =>
    (∃ n, page = (env.chain n).getEventPage cursor) ∧ Follow env page.cursor pages

/-- The stored cursor is the old one, or that of a page all of whose writes succeeded, with every
earlier page of the cycle written too. -/
def CursorKept (env : Surroundings) (store : MemoryTokenStore) (s : Cycling) : Prop :=
  Follow env store.state.lastCursor s.pages ∧
    (s.store.state.lastCursor = store.state.lastCursor ∨
      ∃ earlier page, earlier ++ [page] <+: s.pages ∧ s.store.state.lastCursor = page.cursor ∧
        (earlier ++ [page]).flatMap EventPage.writes <:+: s.writes)

/-- **Crash safety**: the cycle resolves, its cursor is kept, and when it reports an error it has
not turned `backfillComplete` on. -/
def CrashSafe (env : Unreliable Surroundings Rejection) (store : MemoryTokenStore) : Prop :=
  ∃ result s, runIngest.Returns env (start store) result s ∧
    CursorKept env.answers store s.state ∧
    (result.error ≠ none → s.state.store.state.backfillComplete = true →
      store.state.backfillComplete = true)

end StellarForge.Indexer.Interrupted
