import Mathlib.Data.Finset.Dedup
import StellarForge.Indexer.Store

/-!
# The persistence seam

The operations of a `TokenStore`, what they answer, and the in-memory store with its event log.
-/

namespace StellarForge.Indexer

open Collections

/-- A contract event as persisted by the indexer; a payload is any JavaScript value. -/
structure StoredEvent (P : Type) where
  tokenAddress : String
  ledgerSeq : ℕ
  topic : String
  payload : P
  txHash : Option String
  deriving DecidableEq, Repr

/-- What a listing of tokens is asked for. -/
structure ListTokensOptions where
  creator : Option String := none
  cursor : Option ℤ := none
  limit : ℤ
  deriving DecidableEq, Repr

/-- What a listing of events is asked for. -/
structure ListEventsOptions where
  tokenAddress : String
  cursor : Option ℤ := none
  limit : ℤ
  deriving DecidableEq, Repr

/-- `Partial<IndexerState>` -/
structure StatePatch where
  lastCursor : Option (Option String) := none
  lastLedger : Option (Option ℕ) := none
  lastLedgerCloseTime : Option (Option ℤ) := none
  lastRunAt : Option (Option ℤ) := none
  lastError : Option (Option String) := none
  backfillComplete : Option Bool := none
  deriving DecidableEq, Repr

/-- The state with the fields of the patch that are present. -/
def StatePatch.apply (patch : StatePatch) (state : IndexerState) : IndexerState where
  lastCursor := patch.lastCursor.getD state.lastCursor
  lastLedger := patch.lastLedger.getD state.lastLedger
  lastLedgerCloseTime := patch.lastLedgerCloseTime.getD state.lastLedgerCloseTime
  lastRunAt := patch.lastRunAt.getD state.lastRunAt
  lastError := patch.lastError.getD state.lastError
  backfillComplete := patch.backfillComplete.getD state.backfillComplete

/-- A page of a listing, and the cursor of the next one. -/
structure Listing (α : Type) where
  rows : List α
  nextCursor : Option String
  deriving DecidableEq, Repr

/-- The operations of a store. -/
inductive StoreOp (P : Type)
  | upsertTokens (tokens : List IndexedToken)
  | setMetadataUri (address metadataUri : String)
  | getToken (address : String)
  | listTokens (options : ListTokensOptions)
  | countTokens
  | presentIndices (indices : List ℕ)
  | getState
  | saveState (patch : StatePatch)
  | upsertEvents (events : List (StoredEvent P))
  | listEvents (options : ListEventsOptions)

/-- What an operation returns. -/
inductive Answer (P : Type)
  | done
  | token (token : Option IndexedToken)
  | tokens (page : Listing IndexedToken)
  | count (n : ℕ)
  | indices (present : Finset ℕ)
  | state (state : IndexerState)
  | events (page : Listing (StoredEvent P))
  deriving DecidableEq

/-- Server-side clamp on `limit`. -/
def MAX_PAGE_LIMIT : ℤ := 100

/-- `Math.min(Math.max(limit, 1), MAX_PAGE_LIMIT)` -/
def pageLimit (limit : ℤ) : ℕ := (min (max limit 1) MAX_PAGE_LIMIT).toNat

/-- The first page of some rows: the cursor is that of its last row, when there are more. -/
def listing {α : Type} (cursorOf : α → ℕ) (limit : ℕ) (rows : List α) : Listing α where
  rows := rows.take limit
  nextCursor :=
    if limit < rows.length then
      (rows.take limit).getLast?.map fun row => toString (cursorOf row)
    else none

/-- A row passes a cursor. -/
def below (cursor : Option ℤ) (position : ℕ) : Bool := cursor.all fun c => (position : ℤ) < c

/-- A row passes a creator filter; an empty creator is no filter. -/
def byCreator (creator : Option String) (token : IndexedToken) : Bool :=
  (creator.filter (· ≠ "")).all (token.creator = ·)

/-- What JavaScript's `localeCompare` says: that the first text is not behind the second. -/
abbrev Collation := String → String → Bool

/-! ### The in-memory store -/

namespace StoredEvent

variable {P : Type}

/-- `eventKey` -/
def eventKey (event : StoredEvent P) : String :=
  String.ofList (event.tokenAddress.toList ++ '\x00' :: ((toString event.ledgerSeq).toList ++
    '\x00' :: event.topic.toList))

/-- `b.ledgerSeq - a.ledgerSeq || a.topic.localeCompare(b.topic)` is not positive. -/
def before (le : Collation) (a b : StoredEvent P) : Bool :=
  b.ledgerSeq < a.ledgerSeq || (b.ledgerSeq = a.ledgerSeq && le a.topic b.topic)

end StoredEvent

/-- The in-memory store with its events. -/
structure MemoryStore (P : Type) extends MemoryTokenStore where
  events : Keyed (StoredEvent.eventKey : StoredEvent P → String)

namespace MemoryStore

variable {P : Type}

/-- A new store. -/
def empty : MemoryStore P := ⟨.empty, .empty⟩

/-- The tokens of a listing, newest first. -/
def tokenRows (tokens : List IndexedToken) (options : ListTokensOptions) : List IndexedToken :=
  ((tokens.filter (byCreator options.creator)).filter fun token =>
    below options.cursor token.tokenIndex).mergeSort fun a b => b.tokenIndex ≤ a.tokenIndex

/-- The events of a listing, newest first. -/
def eventRows (le : Collation) (events : List (StoredEvent P)) (options : ListEventsOptions) :
    List (StoredEvent P) :=
  ((events.filter fun event => event.tokenAddress = options.tokenAddress).filter fun event =>
    below options.cursor event.ledgerSeq).mergeSort (StoredEvent.before le)

/-- A row is written. -/
def upsertRow (store : MemoryStore P) (token : IndexedToken) : MemoryStore P :=
  { store with tokens := MemoryTokenStore.upsertToken store.tokens token }

/-- An event is written. -/
def upsertEvent (store : MemoryStore P) (event : StoredEvent P) : MemoryStore P :=
  { store with events := store.events.set event }

/-- One operation: its answer, and the store after it.  No operation fails. -/
def step (localeCompare : Collation) (store : MemoryStore P) : StoreOp P → Answer P × MemoryStore P
  | .upsertTokens tokens => (.done, tokens.foldl upsertRow store)
  | .setMetadataUri address metadataUri =>
    (.done,
      { store with tokens := MemoryTokenStore.setMetadataUri store.tokens address metadataUri })
  | .getToken address => (.token (store.getToken address), store)
  | .listTokens options =>
    (.tokens (listing IndexedToken.tokenIndex (pageLimit options.limit)
      (tokenRows store.tokens.records options)), store)
  | .countTokens => (.count store.countTokens, store)
  | .presentIndices indices => (.indices (store.presentIndices indices).toFinset, store)
  | .getState => (.state store.state, store)
  | .saveState patch => (.done, { store with state := patch.apply store.state })
  | .upsertEvents events => (.done, events.foldl upsertEvent store)
  | .listEvents options =>
    (.events (listing StoredEvent.ledgerSeq (pageLimit options.limit)
      (eventRows localeCompare store.events.records options)), store)

end MemoryStore

end StellarForge.Indexer
