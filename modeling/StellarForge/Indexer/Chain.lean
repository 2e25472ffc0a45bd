import StellarForge.Indexer.Store
import StellarForge.Soroban.Contract

/-!
# Reading the chain

The Soroban RPC implementation of the indexer's `ChainReader`.  `SorobanRpc` is what the server
answers during one cycle: the factory's views and the pages of its event stream.
-/

namespace StellarForge.Indexer

/-! ### The server -/

/-- What `get_token_info` returns of a token. -/
structure TokenInfoView where
  name : String
  symbol : String
  decimals : ℕ
  creator : String
  createdAt : ℤ
  deriving DecidableEq, Repr

/-- An event of the factory: the second topic, the decoded payload (`none` if it does not decode),
the close time of its ledger in milliseconds, and its paging token. -/
structure RawEvent where
  action : String
  value : Option (List String)
  ledgerClosedAt : ℤ
  pagingToken : String
  deriving DecidableEq, Repr

/-- A page of events, as the node returns it. -/
structure EventsResponse where
  events : List RawEvent
  latestLedger : Option ℕ
  deriving DecidableEq, Repr

/-- Where a `getEvents` request starts. -/
inductive EventsStart
  | cursor (pagingToken : String)
  | startLedger (ledger : ℕ)
  | retention
  deriving DecidableEq, Repr

/-- The server, as one cycle meets it.  A view is `none` where its simulation fails. -/
structure SorobanRpc where
  tokenCount : Except String ℕ
  tokenInfo : ℕ → Option TokenInfoView
  tokenAddress : ℕ → Option String
  tokenIndex : String → Option ℕ
  getEvents : EventsStart → ℕ → Except String EventsResponse
  /-- The ledger to start from when no cursor is stored. -/
  startLedger : Option ℕ
  /-- `Date.now()`. -/
  now : ℤ

/-- The events of a page. -/
def EVENT_PAGE_SIZE : ℕ := 100

/-! ### The reader -/

/-- An event that the indexer looks at. -/
inductive IndexerEvent
  | created (token : IndexedToken)
  | metadata (address metadataUri : String)
  deriving DecidableEq, Repr

/-- A page of them, and where the next one begins. -/
structure EventPage where
  events : List IndexerEvent
  cursor : Option String
  latestLedger : Option ℕ
  latestLedgerCloseTime : Option ℤ
  deriving DecidableEq, Repr

/-- `get_token_address(index)`, or `none` when unmapped. -/
def resolveAddressForIndex (rpc : SorobanRpc) (index : ℕ) : Option String :=
  (rpc.tokenAddress index).filter (· ≠ "")

/-- A row for an index; neither view carries the metadata URI. -/
def getTokenByIndex (rpc : SorobanRpc) (index : ℕ) : Option IndexedToken := do
  let info ← rpc.tokenInfo index
  let address ← resolveAddressForIndex rpc index
  return {
    address
    tokenIndex := index
    name := info.name
    symbol := info.symbol
    decimals := info.decimals
    creator := info.creator
    createdAt := info.createdAt
    metadataUri := none
    source := .backfill }

/-- What one event of the stream means to the indexer: nothing, unless it is `created` or `meta`.
The error is that of a payload which does not decode. -/
def readEvent (rpc : SorobanRpc) (raw : RawEvent) : Except String (Option IndexerEvent) :=
  if raw.action = "created" then
    match raw.value with
    | none => .error "payload does not decode"
    | some value =>
      -- an item that is missing reads as the empty text, and without an address nothing is made of it
      let address := value[0]?.getD ""
      if address = "" then .ok none
      -- the number needs a call of its own, which may fail: the row is then written under 0
      else .ok <| some <| .created {
        address
        tokenIndex := (rpc.tokenIndex address).getD 0
        name := value[2]?.getD ""
        symbol := value[3]?.getD ""
        decimals := 0
        creator := value[1]?.getD ""
        createdAt := raw.ledgerClosedAt / 1000
        metadataUri := none
        source := .event }
  else if raw.action = "meta" then
    match raw.value with
    | none => .error "payload does not decode"
    | some value =>
      let address := value[0]?.getD ""
      let uri := value[1]?.getD ""
      if address ≠ "" ∧ uri ≠ "" then .ok (some (.metadata address uri)) else .ok none
  else .ok none

/-- Where the request for a page starts: an empty cursor is no cursor. -/
def eventsStart (rpc : SorobanRpc) (cursor : Option String) : EventsStart :=
  match cursor.filter (· ≠ ""), rpc.startLedger with
  | some pagingToken, _ => .cursor pagingToken
  | none, some ledger => .startLedger ledger
  | none, none => .retention

/-- One page; a short one is the head of the stream. -/
def getEventPage (rpc : SorobanRpc) (cursor : Option String) : Except String EventPage := do
  let response ← rpc.getEvents (eventsStart rpc cursor) EVENT_PAGE_SIZE
  let events ← response.events.mapM (readEvent rpc)
  let latest := response.events.getLast?
  return {
    events := events.filterMap id
    cursor :=
      if response.events.length < EVENT_PAGE_SIZE then none else latest.map RawEvent.pagingToken
    latestLedger := response.latestLedger
    latestLedgerCloseTime := some ((latest.map RawEvent.ledgerClosedAt).getD rpc.now) }

/-- The row of a `created` event has no metadata URI, and the index that the server answers. -/
theorem readEvent_created {rpc : SorobanRpc} {raw : RawEvent} {token : IndexedToken}
    (hread : readEvent rpc raw = .ok (some (.created token))) :
    token.metadataUri = none ∧ token.tokenIndex = (rpc.tokenIndex token.address).getD 0 := by
  rw [readEvent] at hread
  split at hread
  · split at hread
    · cases hread
    · dsimp only at hread
      split at hread
      · cases hread
      · cases hread
        exact ⟨rfl, rfl⟩
  · split at hread
    · split at hread
      · cases hread
      · dsimp only at hread
        split at hread <;> cases hread
    · cases hread

end StellarForge.Indexer
