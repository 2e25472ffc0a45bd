import StellarForge.Indexer.CrashSafety

/-!
# Undisturbed cycles

With a server that answers every request and no call that rejects, the cycle of `Interrupted` writes
the same rows, leaves the same checkpoint and reports the same result as the cycle of `Ingest`.
-/

namespace StellarForge.Indexer.Interrupted

open Concurrency Soroban Contract MemoryTokenStore

/-- The page as the chain reader hands it on. -/
def ofRpcPage (page : Indexer.EventPage) : EventPage where
  events := page.events.map some
  cursor := page.cursor
  latestLedger := page.latestLedger
  latestLedgerCloseTime := page.latestLedgerCloseTime

theorem reduceOption_ofRpcPage {page : Indexer.EventPage} :
    (ofRpcPage page).events.reduceOption = page.events := by
  show (page.events.map some).filterMap id = page.events
  rw [List.filterMap_map, Function.id_comp, List.filterMap_some]

/-- A server whose token count and pages are these, and no call that rejects. -/
def undisturbed (rpc : SorobanRpc) (tokenCount : ℕ) (page : Option String → Indexer.EventPage) :
    Unreliable Surroundings Rejection where
  answers :=
    { chain := fun _ =>
        ⟨tokenCount, Indexer.getTokenByIndex rpc, fun cursor => ofRpcPage (page cursor)⟩
      now := fun _ => rpc.now }
  rejects := fun _ => none

variable {rpc : SorobanRpc} {n : ℕ} {page : Option String → Indexer.EventPage} {α β : Type}
  {t : Counted Cycling}

/-- Both programs return the same and leave the same store; neither the counter nor the pages are
compared. -/
def Follows (rpc : SorobanRpc) (n : ℕ) (page : Option String → Indexer.EventPage)
    (t : Counted Cycling) (x : IngestM α) (y : CycleM α) : Prop :=
  ∃ a t', x.Returns rpc t.state.toIngesting a t'.state.toIngesting ∧
    y.Returns (undisturbed rpc n page) t a t' ∧ t'.state.result = t.state.result

theorem Follows.pure {a : α} : Follows rpc n page t (Pure.pure a) (Pure.pure a) :=
  ⟨a, t, rfl, rfl, rfl⟩

theorem Follows.bind {x : IngestM α} {y : CycleM α} {f : α → IngestM β} {g : α → CycleM β}
    (h : Follows rpc n page t x y) (h' : ∀ a t, Follows rpc n page t (f a) (g a)) :
    Follows rpc n page t (x >>= f) (y >>= g) := by
  obtain ⟨a, t₁, hx, hy, hresult⟩ := h
  obtain ⟨b, t₂, hf, hg, hresult'⟩ := h' a t₁
  exact ⟨b, t₂, returns_bind.mpr ⟨a, _, hx, hf⟩, returns_bind.mpr ⟨a, _, hy, hg⟩,
    hresult'.trans hresult⟩

/-- A read of the store by the first program. -/
theorem Follows.getStore {f : MemoryTokenStore → IngestM α} {y : CycleM α}
    (h : Follows rpc n page t (f t.state.store) y) :
    Follows rpc n page t (Indexer.getStore >>= f) y := by
  obtain ⟨a, t', hx, hy, hresult⟩ := h
  exact ⟨a, t', returns_bind.mpr ⟨_, _, returns_getStore.mpr ⟨rfl, rfl⟩, hx⟩, hy, hresult⟩

/-- A read of the store by the second. -/
theorem Follows.ofStore {read : MemoryTokenStore → β} {x : IngestM α} {g : β → CycleM α}
    (h : Follows rpc n page ⟨t.calls + 1, t.state⟩ x (g (read t.state.store))) :
    Follows rpc n page t x (ofStore read >>= g) := by
  obtain ⟨a, t', hx, hy, hresult⟩ := h
  exact ⟨a, t', hx, returns_bind.mpr ⟨_, _, rfl, hy⟩, hresult⟩

/-! ### Backfill -/

theorem source_getTokenByIndex {index : ℕ} {token : IndexedToken}
    (h : Indexer.getTokenByIndex rpc index = some token) : token.source = .backfill := by
  unfold Indexer.getTokenByIndex at h
  obtain ⟨info, -, h⟩ := Option.bind_eq_some_iff.mp h
  obtain ⟨address, -, h⟩ := Option.bind_eq_some_iff.mp h
  obtain rfl := Option.some.inj h
  rfl

theorem returns_readRows (rpc : SorobanRpc) (n : ℕ) (page : Option String → Indexer.EventPage)
    (indices : List ℕ) (t : Counted Cycling) :
    ∃ k, (readRows indices).Returns (undisturbed rpc n page) t
      (indices.filterMap (Indexer.getTokenByIndex rpc)) ⟨k, t.state⟩ := by
  induction indices generalizing t with
  | nil => exact ⟨t.calls, rfl⟩
  | cons index indices ih =>
    have hrow : ((Indexer.getTokenByIndex rpc index).map fun token : IndexedToken =>
        { token with source := .backfill }) = Indexer.getTokenByIndex rpc index := by
      rcases htoken : Indexer.getTokenByIndex rpc index with _ | token
      · rfl
      · rw [Option.map_some, ← source_getTokenByIndex htoken]
    obtain ⟨k, hrest⟩ := ih ⟨t.calls + 1, t.state⟩
    refine ⟨k, returns_bind.mpr ⟨Indexer.getTokenByIndex rpc index, _, rfl, ?_⟩⟩
    refine returns_bind.mpr ⟨_, _, hrest, returns_pure.mpr ⟨?_, rfl⟩⟩
    rw [hrow]
    cases htoken : Indexer.getTokenByIndex rpc index with
    | none => rw [List.filterMap_cons_none htoken]; rfl
    | some token => rw [List.filterMap_cons_some htoken]; rfl

theorem follows_backfillIndices (indices : List ℕ) (t : Counted Cycling) :
    Follows rpc n page t (Indexer.backfillIndices indices) (backfillIndices indices) := by
  -- with nothing to read both go on as they were
  have hnone : ∀ {t : Counted Cycling}, backfillRows rpc t.state.store indices = [] →
      Follows rpc n page t (Indexer.backfillIndices indices) (pure 0) := by
    intro t hrows
    refine ⟨0, t, returns_backfillIndices.mpr ?_, rfl, rfl⟩
    rw [hrows, List.map_nil, performAll_nil]
    exact ⟨rfl, rfl⟩
  unfold backfillIndices presentIndices
  split_ifs with hempty
  · refine hnone ?_
    rw [hempty]
    rfl
  · refine Follows.ofStore ?_
    dsimp only
    split_ifs with hmissing
    · refine hnone ?_
      unfold backfillRows
      rw [hmissing]
      rfl
    · -- the reads are counted, which the plain cycle does not see
      obtain ⟨k, hread⟩ := returns_readRows rpc n page
        (indices.filter fun i => !(t.state.store.presentIndices indices).contains i)
        ⟨t.calls + 1, t.state⟩
      refine ⟨_, ⟨k + 1, t.state.performAll _⟩, returns_backfillIndices.mpr ⟨rfl, rfl⟩, ?_, rfl⟩
      exact returns_bind.mpr ⟨_, _, hread, returns_bind.mpr ⟨(), _, rfl, rfl⟩⟩

theorem follows_runBackfillBatches (tokenCount batches : ℕ) (t : Counted Cycling) :
    Follows rpc n page t (Indexer.runBackfillBatches tokenCount batches)
      (runBackfillBatches tokenCount batches) := by
  induction batches generalizing t with
  | zero => exact Follows.pure
  | succ batches ih =>
    refine Follows.getStore (Follows.ofStore ?_)
    dsimp only
    split_ifs with hdone hstart
    · exact Follows.pure
    · exact absurd hstart (by unfold BACKFILL_BATCH_SIZE; omega)
    · refine Follows.bind (follows_backfillIndices _ _) fun count t => ?_
      split_ifs
      · exact Follows.pure
      · exact Follows.bind (ih t) fun written t => Follows.pure

/-! ### Steady state -/

theorem source_of_readEvent {raw : RawEvent} {token : IndexedToken}
    (h : readEvent rpc raw = .ok (some (.created token))) : token.source = .event := by
  unfold readEvent at h
  split at h
  · split at h
    · cases h
    · dsimp only at h
      split at h <;> cases h
      rfl
  · split at h
    · split at h
      · cases h
      · dsimp only at h
        split at h <;> cases h
    · cases h

theorem created_ofRpcPage {cursor : Option String} {result : Indexer.EventPage}
    (h : Indexer.getEventPage rpc cursor = .ok result) :
    (ofRpcPage result).created = createdTokens result.events := by
  unfold EventPage.created ofRpcPage
  have hevents : (result.events.map some).reduceOption = result.events := by
    show (result.events.map some).filterMap id = _
    rw [List.filterMap_map, Function.id_comp, List.filterMap_some]
  dsimp only
  rw [hevents]
  refine (List.map_congr_left fun token htoken => ?_).trans (List.map_id _)
  obtain ⟨raw, hraw⟩ := readEvent_of_createdTokens h htoken
  rw [id, ← source_of_readEvent hraw]

theorem returns_applyMetadata_map (rpc : SorobanRpc) (n : ℕ)
    (page : Option String → Indexer.EventPage) (events : List IndexerEvent) (t : Counted Cycling) :
    ∃ k, (applyMetadata (events.map some)).Returns (undisturbed rpc n page) t ()
      ⟨k, t.state.performAll (events.filterMap IndexerEvent.metadataWrite)⟩ := by
  induction events generalizing t with
  | nil =>
    rw [List.filterMap_nil, Cycling.performAll_nil]
    exact ⟨t.calls, rfl⟩
  | cons event events ih =>
    cases event with
    | created token => exact ih t
    | metadata address uri =>
      obtain ⟨k, hrest⟩ := ih ⟨t.calls + 1, t.state.performAll [.setUri address uri]⟩
      refine ⟨k, returns_bind.mpr ⟨(), _, rfl, ?_⟩⟩
      rw [Cycling.performAll_append] at hrest
      exact hrest

/-- The writes of a page are the same. -/
theorem returns_applyPage_ofRpcPage (n : ℕ) (page : Option String → Indexer.EventPage)
    {cursor : Option String} {result : Indexer.EventPage}
    (h : Indexer.getEventPage rpc cursor = .ok result) (t : Counted Cycling) :
    ∃ k, (applyPage (ofRpcPage result)).Returns (undisturbed rpc n page) t ()
      ⟨k, t.state.performAll result.writes⟩ := by
  have hcreated : ∃ k, (upsertCreated (createdTokens result.events)).Returns
      (undisturbed rpc n page) t ()
      ⟨k, t.state.performAll ((createdTokens result.events).map .upsert)⟩ := by
    unfold upsertCreated
    split_ifs with hnone
    · rw [hnone, List.map_nil, Cycling.performAll_nil]
      exact ⟨t.calls, rfl⟩
    · exact ⟨t.calls + 1, rfl⟩
  obtain ⟨k, hcreated⟩ := hcreated
  obtain ⟨k', hmetadata⟩ := returns_applyMetadata_map rpc n page result.events
    ⟨k, t.state.performAll ((createdTokens result.events).map .upsert)⟩
  unfold applyPage
  rw [created_ofRpcPage h]
  refine ⟨k', returns_bind.mpr ⟨(), _, hcreated, ?_⟩⟩
  rw [Cycling.performAll_append] at hmetadata
  exact hmetadata

theorem follows_runPages (hpages : ∀ cursor, Indexer.getEventPage rpc cursor = .ok (page cursor))
    {cursor : Option String} {lastLedger : Option ℕ} {lastCloseTime : Option ℤ} {pages : ℕ} :
    Follows rpc n page t (Indexer.runPages cursor lastLedger lastCloseTime pages)
      (runPages cursor lastLedger lastCloseTime pages) := by
  induction pages generalizing t cursor lastLedger lastCloseTime with
  | zero => exact Follows.pure
  | succ pages ih =>
    -- both programs after the page
    have hrest : ∀ t : Counted Cycling, Follows rpc n page t
        (if (page cursor).cursor = none then return (page cursor).events.length
        else do
          let applied ← Indexer.runPages (page cursor).cursor
            ((page cursor).latestLedger.or lastLedger)
            ((page cursor).latestLedgerCloseTime.or lastCloseTime) pages
          return (page cursor).events.length + applied)
        (if (ofRpcPage (page cursor)).cursor = none then
          return (ofRpcPage (page cursor)).events.length
        else do
          let applied ← runPages (ofRpcPage (page cursor)).cursor
            ((ofRpcPage (page cursor)).latestLedger.or lastLedger)
            ((ofRpcPage (page cursor)).latestLedgerCloseTime.or lastCloseTime) pages
          return (ofRpcPage (page cursor)).events.length + applied) := by
      intro t
      have hlength : (ofRpcPage (page cursor)).events.length = (page cursor).events.length :=
        List.length_map _
      rw [hlength]
      show Follows rpc n page t (if (page cursor).cursor = none then _ else _)
        (if (page cursor).cursor = none then _ else _)
      split_ifs
      · exact Follows.pure
      · exact Follows.bind ih fun applied t => Follows.pure
    obtain ⟨k, happly⟩ := returns_applyPage_ofRpcPage n page (hpages cursor)
      ⟨t.calls + 1, { t.state with pages := t.state.pages ++ [ofRpcPage (page cursor)] }⟩
    obtain ⟨applied, t', hx, hy, hresult⟩ := hrest ⟨k + 1, Cycling.setState
      (Cycling.performAll { t.state with pages := t.state.pages ++ [ofRpcPage (page cursor)] }
        (page cursor).writes)
      { t.state.store.state with
        lastCursor := (page cursor).cursor
        lastLedger := (page cursor).latestLedger.or lastLedger
        lastLedgerCloseTime := (page cursor).latestLedgerCloseTime.or lastCloseTime }⟩
    refine ⟨applied, t', ?_, ?_, hresult⟩
    · refine returns_bind.mpr ⟨rpc, _, returns_getEnv.mpr ⟨rfl, rfl⟩, ?_⟩
      refine returns_bind.mpr ⟨page cursor, _, returns_ofExcept.mpr ⟨hpages cursor, rfl⟩, ?_⟩
      refine returns_bind.mpr ⟨(), _, returns_upsertTokens.mpr rfl, ?_⟩
      refine returns_bind.mpr ⟨(), _, Indexer.returns_applyMetadata.mpr rfl, ?_⟩
      rw [performAll_append]
      exact returns_bind.mpr ⟨(), _, returns_saveState'.mpr rfl, hx⟩
    · refine returns_bind.mpr ⟨ofRpcPage (page cursor), _, rfl, ?_⟩
      refine returns_bind.mpr ⟨(), _, happly, ?_⟩
      exact returns_bind.mpr ⟨(), _, rfl, hy⟩

/-! ### A cycle -/

theorem follows_runSteadyState
    (hpages : ∀ cursor, Indexer.getEventPage rpc cursor = .ok (page cursor)) :
    Follows rpc n page t Indexer.runSteadyState runSteadyState := by
  refine Follows.getStore (Follows.ofStore ?_)
  exact follows_runPages hpages

/-- The backfill, with what is assigned to the result. -/
theorem returns_backfillUnlessComplete (rpc : SorobanRpc) (n : ℕ)
    (page : Option String → Indexer.EventPage) (t : Counted Cycling)
    (hzero : t.state.result.backfilled = 0) : ∃ backfilled t',
      (if t.state.store.state.backfillComplete then (pure 0 : IngestM ℕ)
        else Indexer.runBackfill n).Returns rpc t.state.toIngesting backfilled
          t'.state.toIngesting ∧
      (backfillUnlessComplete n).Returns (undisturbed rpc n page) t () t' ∧
      t'.state.result = { t.state.result with backfilled } := by
  by_cases hcomplete : t.state.store.state.backfillComplete = true
  · refine ⟨0, ⟨t.calls + 1, t.state⟩, ?_, ?_, ?_⟩
    · rw [if_pos hcomplete]
      exact returns_pure.mpr ⟨rfl, rfl⟩
    · refine returns_bind.mpr ⟨t.state.store.state, _, rfl, ?_⟩
      rw [if_pos hcomplete]
      rfl
    · rw [← hzero]
  · -- the loop follows, and its count is written to the result
    have hbackfill : Follows rpc n page ⟨t.calls + 1, t.state⟩ (Indexer.runBackfill n)
        (runBackfill n) := follows_runBackfillBatches _ _ _
    obtain ⟨backfilled, t', hx, hy, hresult⟩ := hbackfill
    refine ⟨backfilled, ⟨t'.calls, { t'.state with
      result := { t'.state.result with backfilled } }⟩, ?_, ?_, ?_⟩
    · rw [if_neg hcomplete]
      exact hx
    · refine returns_bind.mpr ⟨t.state.store.state, _, rfl, ?_⟩
      rw [if_neg hcomplete]
      exact returns_bind.mpr ⟨backfilled, t', hy, rfl⟩
    · dsimp only
      rw [hresult]

/-- The reconciliation, with what is assigned to the result. -/
theorem returns_reconcile (rpc : SorobanRpc) (n : ℕ) (page : Option String → Indexer.EventPage)
    (t : Counted Cycling) (hzero : t.state.result.reconciled = 0) :
    ∃ reconciled t',
      (Indexer.reconcileCount n).Returns rpc t.state.toIngesting reconciled
        t'.state.toIngesting ∧
      (reconcile n).Returns (undisturbed rpc n page) t t'.state.store.countTokens t' ∧
      t'.state.result = { t.state.result with reconciled } := by
  unfold Indexer.reconcileCount reconcile
  by_cases hmissing : t.state.store.countTokens < n
  · -- two calls of the store come before the backfill
    have hbackfill : Follows rpc n page ⟨t.calls + 2, t.state⟩
        (Indexer.backfillIndices (reconcileWindow t.state.store n))
        (backfillIndices (reconcileWindow t.state.store n)) := follows_backfillIndices _ _
    obtain ⟨reconciled, t', hx, hy, hresult⟩ := hbackfill
    refine ⟨reconciled, ⟨t'.calls + 1, { t'.state with
      result := { t'.state.result with reconciled } }⟩, ?_, ?_, ?_⟩
    · refine returns_bind.mpr ⟨t.state.store, _, returns_getStore.mpr ⟨rfl, rfl⟩, ?_⟩
      rw [if_pos hmissing]
      exact hx
    · refine returns_bind.mpr ⟨t.state.store.countTokens, ⟨t.calls + 1, t.state⟩, rfl, ?_⟩
      rw [if_pos hmissing]
      refine returns_bind.mpr ⟨t.state.store.presentIndices (List.range' 1 n), _, rfl, ?_⟩
      refine returns_bind.mpr ⟨reconciled, t', hy, ?_⟩
      exact returns_bind.mpr ⟨(), _, rfl, rfl⟩
    · dsimp only
      rw [hresult]
  · refine ⟨0, ⟨t.calls + 1, t.state⟩, ?_, ?_, ?_⟩
    · refine returns_bind.mpr ⟨t.state.store, _, returns_getStore.mpr ⟨rfl, rfl⟩, ?_⟩
      rw [if_neg hmissing]
      exact returns_pure.mpr ⟨rfl, rfl⟩
    · refine returns_bind.mpr ⟨t.state.store.countTokens, ⟨t.calls + 1, t.state⟩, rfl, ?_⟩
      rw [if_neg hmissing]
      rfl
    · rw [← hzero]

/-- **An undisturbed cycle is a cycle of `Ingest`**: the same rows, checkpoint and result. -/
theorem returns_undisturbed (hcount : rpc.tokenCount = .ok n)
    (hpages : ∀ cursor, Indexer.getEventPage rpc cursor = .ok (page cursor))
    (store : MemoryTokenStore) :
    ∃ result s, Indexer.runIngest.Returns rpc ⟨store, []⟩ result s.state.toIngesting ∧
      runIngest.Returns (undisturbed rpc n page) (start store) result s := by
  obtain ⟨backfilled, t₁, hx₁, hy₁, hresult₁⟩ := returns_backfillUnlessComplete rpc n page
    ⟨1, { (start store).state with result := { tokenCount := n } }⟩ rfl
  have hsteady : Follows rpc n page t₁ Indexer.runSteadyState runSteadyState :=
    follows_runSteadyState hpages
  obtain ⟨applied, t₂, hx₂, hy₂, hresult₂⟩ := hsteady
  rw [hresult₁] at hresult₂
  have hzero : t₂.state.result.reconciled = 0 := by rw [hresult₂]
  obtain ⟨reconciled, t₃, hx₃, hy₃, hresult₃⟩ := returns_reconcile rpc n page
    ⟨t₂.calls, { t₂.state with result := { t₂.state.result with eventsApplied := applied } }⟩ hzero
  dsimp only at hresult₃
  rw [hresult₂] at hresult₃
  -- the checkpoint that ends the cycle, and its result
  have hphases : runPhases.Returns (undisturbed rpc n page) (start store)
      (decide (t₃.state.store.countTokens ≥ n))
      ⟨t₃.calls, { t₃.state with
        result := { t₃.state.result with
          indexedCount := t₃.state.store.countTokens
          backfillComplete := decide (t₃.state.store.countTokens ≥ n) } }⟩ := by
    refine returns_bind.mpr ⟨n, _, rfl, returns_bind.mpr ⟨(), _, rfl, ?_⟩⟩
    refine returns_bind.mpr ⟨(), t₁, hy₁, returns_bind.mpr ⟨applied, t₂, hy₂, ?_⟩⟩
    refine returns_bind.mpr ⟨(), _, rfl, returns_bind.mpr ⟨_, t₃, hy₃, ?_⟩⟩
    exact returns_bind.mpr ⟨(), _, rfl, rfl⟩
  have hfinish : (finishCycle { tokenCount := n, backfilled, eventsApplied := applied }).Returns rpc
      t₂.state.toIngesting
      { t₃.state.result with
        indexedCount := t₃.state.store.countTokens
        backfillComplete := decide (t₃.state.store.countTokens ≥ n) }
      { t₃.state.toIngesting with store := { t₃.state.store with state :=
        { t₃.state.store.state with
          lastRunAt := some rpc.now
          lastError := none
          backfillComplete := decide (t₃.state.store.countTokens ≥ n) } } } := by
    refine returns_bind.mpr ⟨reconciled, _, hx₃, ?_⟩
    refine returns_bind.mpr ⟨t₃.state.store, _, returns_getStore.mpr ⟨rfl, rfl⟩, ?_⟩
    refine returns_bind.mpr ⟨(), _, returns_saveState'.mpr rfl, returns_pure.mpr ⟨?_, rfl⟩⟩
    rw [hresult₃]
  have hcycle : runIngest.Returns (undisturbed rpc n page) (start store) _ _ :=
    returns_runIngest_iff.mpr ⟨(), returns_guarded_iff.mpr (.inl
      (returns_bind.mpr ⟨_, _, hphases, rfl⟩)), rfl⟩
  refine ⟨_, _, ?_, hcycle⟩
  refine returns_bind.mpr ⟨rpc, _, returns_getEnv.mpr ⟨rfl, rfl⟩, ?_⟩
  rw [hcount]
  refine returns_bind.mpr ⟨store, _, returns_getStore.mpr ⟨rfl, rfl⟩, returns_ite.mpr ?_⟩
  rcases returns_ite.mp hx₁ with ⟨hcomplete, hx₁⟩ | ⟨hcomplete, hx₁⟩
  · exact .inl ⟨hcomplete, returns_bind.mpr ⟨backfilled, _, hx₁,
      returns_bind.mpr ⟨.ok applied, _, returns_attempt.mpr hx₂, hfinish⟩⟩⟩
  · exact .inr ⟨hcomplete, returns_bind.mpr ⟨backfilled, _, hx₁,
      returns_bind.mpr ⟨.ok applied, _, returns_attempt.mpr hx₂, hfinish⟩⟩⟩

end StellarForge.Indexer.Interrupted
