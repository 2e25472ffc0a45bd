import StellarForge.Collections.Table
import StellarForge.Indexer.TokenStore

/-!
# The Postgres store

The statements of `createPostgresStore` over the tables of the two migrations.  A statement fails
when a value does not fit its column or a constraint does not hold, and then leaves its table alone;
each statement commits by itself.  No query depends on an order of the rows that it does not ask
for, so a table keeps its rows in the order of their insertion.
-/

namespace StellarForge.Indexer

open Collections

/-- What the server and the driver decide beside the statements. -/
structure Database (P : Type) where
  /-- The texts that a `TEXT` value can hold; none of them has a NUL character. -/
  text : String → Bool
  text_nul : ∀ {s}, text s = true → '\x00' ∉ s.toList
  /-- The instants whose ISO text exists and is a `TIMESTAMPTZ`. -/
  timestamptz : ℤ → Bool
  /-- What is read back of a payload that was written as `JSONB`; `none` when it has no JSON text or the
  server refuses it. -/
  jsonb : P → Option P
  /-- The collation of `topic`. -/
  collation : Collation

/-- `SMALLINT` -/
def smallint (n : ℤ) : Prop := -32768 ≤ n ∧ n < 32768

/-- `INTEGER` -/
def integer (n : ℤ) : Prop := -2147483648 ≤ n ∧ n < 2147483648

/-- `BIGINT` -/
def bigint (n : ℤ) : Prop := -9223372036854775808 ≤ n ∧ n < 9223372036854775808

instance {n : ℤ} : Decidable (smallint n) := inferInstanceAs (Decidable (_ ∧ _))

instance {n : ℤ} : Decidable (integer n) := inferInstanceAs (Decidable (_ ∧ _))

instance {n : ℤ} : Decidable (bigint n) := inferInstanceAs (Decidable (_ ∧ _))

variable {P : Type}

namespace StoredEvent

/-- The primary key of `token_events`. -/
def primaryKey (event : StoredEvent P) : String × ℕ × String :=
  (event.tokenAddress, event.ledgerSeq, event.topic)

end StoredEvent

/-- The tables. -/
structure PostgresStore (P : Type) where
  tokens : Table IndexedToken.address IndexedToken.tokenIndex
  /-- The row of `indexer_state`. -/
  indexerState : Option IndexerState
  events : Keyed (StoredEvent.primaryKey : StoredEvent P → String × ℕ × String)

namespace PostgresStore

/-- The tables after the migrations: the checkpoint has its row. -/
def migrated : PostgresStore P := ⟨.empty, some {}, .empty⟩

/-- The values of a row of `tokens` fit their columns. -/
def TokenFits (db : Database P) (token : IndexedToken) : Prop :=
  db.text token.address ∧ db.text token.name ∧ db.text token.symbol ∧ db.text token.creator ∧
    (∀ uri ∈ token.metadataUri, db.text uri) ∧
    integer token.tokenIndex ∧ smallint token.decimals ∧ bigint token.createdAt

/-- The values of an event fit their columns. -/
def EventFits (db : Database P) (event : StoredEvent P) : Prop :=
  db.text event.tokenAddress ∧ db.text event.topic ∧ (∀ hash ∈ event.txHash, db.text hash) ∧
    bigint event.ledgerSeq ∧ (db.jsonb event.payload).isSome

/-- The values of a patch fit their columns. -/
def PatchFits (db : Database P) (patch : StatePatch) : Prop :=
  (∀ cursor ∈ patch.lastCursor.join, db.text cursor) ∧
    (∀ ledger ∈ patch.lastLedger.join, bigint ledger) ∧
    (∀ time ∈ patch.lastLedgerCloseTime.join, db.timestamptz time) ∧
    (∀ time ∈ patch.lastRunAt.join, db.timestamptz time) ∧
    ∀ error ∈ patch.lastError.join, db.text error

instance {db : Database P} {token : IndexedToken} : Decidable (TokenFits db token) := by
  unfold TokenFits
  infer_instance

instance {db : Database P} {event : StoredEvent P} : Decidable (EventFits db event) := by
  unfold EventFits
  infer_instance

instance {db : Database P} {patch : StatePatch} : Decidable (PatchFits db patch) := by
  unfold PatchFits
  infer_instance

/-- `INSERT INTO tokens … ON CONFLICT (address) DO UPDATE` -/
def insertToken (db : Database P) (store : PostgresStore P) (token : IndexedToken) :
    Option (PostgresStore P) :=
  if TokenFits db token then
    let existing := store.tokens.find? token.address
    -- `COALESCE(EXCLUDED.metadata_uri, tokens.metadata_uri)`
    let row :=
      { token with metadataUri := token.metadataUri.or (existing.bind IndexedToken.metadataUri) }
    (store.tokens.put row).map fun tokens => { store with tokens }
  else none

/-- `INSERT INTO token_events … ON CONFLICT (token_address, ledger_seq, topic) DO UPDATE` -/
def insertEvent (db : Database P) (store : PostgresStore P) (event : StoredEvent P) :
    Option (PostgresStore P) :=
  if EventFits db event then
    (db.jsonb event.payload).map fun payload =>
      { store with events := store.events.set { event with payload } }
  else none

/-- `UPDATE tokens SET metadata_uri = $2 WHERE address = $1` -/
def updateMetadataUri (store : PostgresStore P) (address metadataUri : String) :
    Option (PostgresStore P) :=
  match store.tokens.find? address with
  | none => some store
  | some row =>
    (store.tokens.put { row with metadataUri := some metadataUri }).map fun tokens =>
      { store with tokens }

/-- `INSERT INTO indexer_state (id) VALUES (TRUE) ON CONFLICT (id) DO UPDATE`: the patch is applied to
the row that is there, and lost when there is none. -/
def insertState (store : PostgresStore P) (patch : StatePatch) : PostgresStore P :=
  { store with indexerState := some ((store.indexerState.map patch.apply).getD {}) }

/-- Statements one after another, up to the first that fails. -/
def each {α : Type} (statement : PostgresStore P → α → Option (PostgresStore P))
    (store : PostgresStore P) : List α → Bool × PostgresStore P
  | [] => (true, store)
  | x :: xs =>
    match statement store x with
    | none => (false, store)
    | some store => each statement store xs

/-- An operation that answers nothing. -/
def written (result : Bool × PostgresStore P) : Option (Answer P) × PostgresStore P :=
  (if result.1 then some .done else none, result.2)

/-- A query, which fails when a parameter does not fit. -/
def query (fits : Prop) [Decidable fits] (answer : Answer P) (store : PostgresStore P) :
    Option (Answer P) × PostgresStore P :=
  (if fits then some answer else none, store)

/-- `SELECT * FROM tokens … ORDER BY token_index DESC LIMIT limit + 1` -/
def selectTokens (store : PostgresStore P) (options : ListTokensOptions) : List IndexedToken :=
  (MemoryStore.tokenRows store.tokens.records options).take (pageLimit options.limit + 1)

/-- `SELECT … FROM token_events … ORDER BY ledger_seq DESC, topic ASC LIMIT limit + 1` -/
def selectEvents (db : Database P) (store : PostgresStore P) (options : ListEventsOptions) :
    List (StoredEvent P) :=
  (MemoryStore.eventRows db.collation store.events.records options).take
    (pageLimit options.limit + 1)

/-- One operation: its answer, `none` where it rejects, and the tables after it. -/
def step (db : Database P) (store : PostgresStore P) :
    StoreOp P → Option (Answer P) × PostgresStore P
  | .upsertTokens tokens => written (each (insertToken db) store tokens)
  | .setMetadataUri address metadataUri =>
    if db.text address ∧ db.text metadataUri then
      match store.updateMetadataUri address metadataUri with
      | none => (none, store)
      | some store => (some .done, store)
    else (none, store)
  | .getToken address => query (db.text address) (.token (store.tokens.find? address)) store
  | .listTokens options =>
    query ((∀ creator ∈ options.creator.filter (· ≠ ""), db.text creator) ∧
        ∀ cursor ∈ options.cursor, integer cursor)
      (.tokens (listing IndexedToken.tokenIndex (pageLimit options.limit)
        (store.selectTokens options))) store
  | .countTokens =>
    query (integer store.tokens.length) (.count store.tokens.length) store
  | .presentIndices indices =>
    query (∀ i ∈ indices, integer i)
      (.indices ((store.tokens.records.map IndexedToken.tokenIndex).filter
        fun i => indices.contains i).toFinset) store
  | .getState => (some (.state (store.indexerState.getD {})), store)
  | .saveState patch =>
    -- a patch without fields makes no statement
    if patch = {} then (some .done, store)
    else if PatchFits db patch then (some .done, store.insertState patch)
    else (none, store)
  | .upsertEvents events => written (each (insertEvent db) store events)
  | .listEvents options =>
    query (db.text options.tokenAddress ∧ ∀ cursor ∈ options.cursor, bigint cursor)
      (.events (listing StoredEvent.ledgerSeq (pageLimit options.limit)
        (store.selectEvents db options))) store

end PostgresStore

end StellarForge.Indexer
