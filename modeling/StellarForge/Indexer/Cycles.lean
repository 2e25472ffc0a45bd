import StellarForge.Indexer.Writes

/-!
# What a cycle does

The row writes of a cycle in their order: the rows that the backfill reads, the events that the pages
deliver, and the rows that the reconciliation reads.

* `delivered rpc s`: the events that a cycle started in `s` applies;
* `cycle_cases`: **what a cycle does to the rows, and what it reports**;
* `backfill_invariant`: what every batch preserves the backfill preserves.
-/

namespace StellarForge.Indexer

open Collections Soroban Contract MemoryTokenStore Transition

/-- The rows, and the writes that led to them, after more writes. -/
def Ingesting.performAll (s : Ingesting) (ws : List Write) : Ingesting where
  store := { s.store with tokens := replay s.store.tokens ws }
  writes := s.writes ++ ws

/-- The rows that the backfill of the indices reads. -/
def backfillRows (rpc : SorobanRpc) (store : MemoryTokenStore) (indices : List ℕ) :
    List IndexedToken :=
  (indices.filter fun i => !(store.presentIndices indices).contains i).filterMap (getTokenByIndex rpc)

/-- The indices of the next batch of the backfill. -/
def batchWindow (tokenCount indexed : ℕ) : List ℕ :=
  List.range' (indexed + 1)
    (min (indexed + 1 + BACKFILL_BATCH_SIZE - 1) tokenCount + 1 - (indexed + 1))

/-- The rows that the batches of a backfill read, one batch after the other. -/
def batchRows (rpc : SorobanRpc) (tokenCount : ℕ) : ℕ → MemoryTokenStore → List IndexedToken
  | 0, _ => []
  | batches + 1, store =>
    if tokenCount ≤ store.countTokens then []
    else
      let rows := backfillRows rpc store (batchWindow tokenCount store.countTokens)
      if rows = [] then []
      else rows ++ batchRows rpc tokenCount batches
        { store with tokens := replay store.tokens (rows.map .upsert) }

/-- The rows that a cycle reads before the pages. -/
def backfilledRows (rpc : SorobanRpc) (store : MemoryTokenStore) : List IndexedToken :=
  match rpc.tokenCount with
  | .error _ => []
  | .ok tokenCount =>
    if store.state.backfillComplete then []
    else batchRows rpc tokenCount MAX_BACKFILL_BATCHES_PER_RUN store

/-- The indices that a reconciliation reads. -/
def reconcileWindow (store : MemoryTokenStore) (tokenCount : ℕ) : List ℕ :=
  ((List.range' 1 tokenCount).filter fun i =>
    !(store.presentIndices (List.range' 1 tokenCount)).contains i).take BACKFILL_BATCH_SIZE

/-- The row write of a `meta` event. -/
def IndexerEvent.metadataWrite : IndexerEvent → Option Write
  | .metadata address uri => some (.setUri address uri)
  | .created _ => none

/-- The row writes of a page. -/
def EventPage.writes (page : EventPage) : List Write :=
  (createdTokens page.events).map .upsert ++ page.events.filterMap IndexerEvent.metadataWrite

/-- The pages that `runPages` applies. -/
def pagesFrom (rpc : SorobanRpc) (cursor : Option String) : ℕ → List EventPage
  | 0 => []
  | pages + 1 =>
    match getEventPage rpc cursor with
    | .error _ => []
    | .ok page => page :: if page.cursor = none then [] else pagesFrom rpc page.cursor pages

/-- The pages that a cycle started in `s` applies. -/
def delivered (rpc : SorobanRpc) (s : Ingesting) : List EventPage :=
  match rpc.tokenCount with
  | .error _ => []
  | .ok _ => pagesFrom rpc s.store.state.lastCursor MAX_EVENT_PAGES_PER_RUN

/-- The row writes of some pages. -/
def pageWrites (pages : List EventPage) : List Write := pages.flatMap EventPage.writes

section

variable {rpc : SorobanRpc} {s s' : Ingesting} {ws ws' : List Write} {n out : ℕ}
  {r : Except String ℕ}

/-! ### The parts of a cycle -/

@[simp] theorem performAll_nil : s.performAll [] = s := by
  rw [Ingesting.performAll, List.append_nil]
  rfl

@[simp] theorem performAll_append : (s.performAll ws).performAll ws' = s.performAll (ws ++ ws') := by
  simp only [Ingesting.performAll, replay, List.foldl_append, List.append_assoc]

@[simp] theorem tokens_performAll : (s.performAll ws).store.tokens = replay s.store.tokens ws := rfl

@[simp] theorem state_performAll : (s.performAll ws).store.state = s.store.state := rfl

theorem perform_eq {w : Write} : s.perform w = s.performAll [w] := rfl

@[simp] theorem returns_upsertTokens {tokens : List IndexedToken} {u : Unit} :
    (upsertTokens tokens).Returns rpc s u s' ↔ s.performAll (tokens.map .upsert) = s' := by
  induction tokens generalizing s with
  | nil => simp [upsertTokens]
  | cons token tokens ih =>
    simp [upsertTokens, write, ih, perform_eq]

/-- The writes of the metadata in a page. -/
@[simp] theorem returns_applyMetadata {events : List IndexerEvent} {u : Unit} :
    (applyMetadata events).Returns rpc s u s' ↔
      s.performAll (events.filterMap IndexerEvent.metadataWrite) = s' := by
  induction events generalizing s with
  | nil => simp [applyMetadata]
  | cons event events ih =>
    cases event with
    | created token =>
      have hnone : (IndexerEvent.created token).metadataWrite = none := rfl
      simp [applyMetadata, hnone, ih]
    | metadata address uri =>
      have hsome : (IndexerEvent.metadata address uri).metadataWrite =
        some (.setUri address uri) := rfl
      simp [applyMetadata, hsome, write, ih, perform_eq]

@[simp] theorem returns_getStore {store : MemoryTokenStore} :
    getStore.Returns rpc s store s' ↔ s.store = store ∧ s = s' := by
  simp only [getStore, returns_bind, returns_getWorld, returns_pure]
  constructor
  · rintro ⟨_, _, ⟨rfl, rfl⟩, rfl, rfl⟩
    exact ⟨rfl, rfl⟩
  · rintro ⟨rfl, rfl⟩
    exact ⟨s, s, ⟨rfl, rfl⟩, rfl, rfl⟩

/-- The writes of a back-fill. -/
@[simp] theorem returns_backfillIndices {indices : List ℕ} :
    (backfillIndices indices).Returns rpc s out s' ↔
      (backfillRows rpc s.store indices).length = out ∧
        s.performAll ((backfillRows rpc s.store indices).map .upsert) = s' := by
  simp only [backfillIndices, returns_bind, returns_getStore, returns_getEnv, returns_upsertTokens,
    returns_pure]
  constructor
  · rintro ⟨_, _, ⟨rfl, rfl⟩, _, _, ⟨rfl, rfl⟩, _, _, rfl, rfl, rfl⟩
    exact ⟨rfl, rfl⟩
  · rintro ⟨rfl, rfl⟩
    exact ⟨_, _, ⟨rfl, rfl⟩, _, _, ⟨rfl, rfl⟩, (), _, rfl, rfl, rfl⟩

/-- What a row read by the backfill is. -/
theorem mem_backfillRows {indices : List ℕ} {store : MemoryTokenStore} {token : IndexedToken}
    (h : token ∈ backfillRows rpc store indices) :
    ∃ i ∈ indices, getTokenByIndex rpc i = some token := by
  obtain ⟨i, hi, htoken⟩ := List.mem_filterMap.mp h
  exact ⟨i, (List.mem_filter.mp hi).1, htoken⟩

theorem mem_batchWindow {i indexed : ℕ} : i ∈ batchWindow n indexed ↔
    indexed + 1 ≤ i ∧ i ≤ indexed + BACKFILL_BATCH_SIZE ∧ i ≤ n := by
  rw [batchWindow, List.mem_range'_1]
  omega

/-- What every batch preserves the backfill preserves, and its rows have indices of the factory. -/
theorem backfill_invariant {Q : Keyed IndexedToken.address → Prop} {batches : ℕ}
    (hQ : ∀ {s : Ingesting}, Q s.store.tokens → s.store.countTokens < n →
      Q (replay s.store.tokens
        ((backfillRows rpc s.store (batchWindow n s.store.countTokens)).map .upsert)))
    (h : (runBackfillBatches n batches).Returns rpc s out s') (hs : Q s.store.tokens) :
    Q s'.store.tokens := by
  -- by induction on the batches that are left
  induction batches generalizing s out with
  | zero =>
    obtain ⟨-, rfl⟩ := returns_pure.mp h
    exact hs
  | succ batches ih =>
    simp only [runBackfillBatches, returns_bind, returns_getStore] at h
    obtain ⟨_, _, ⟨rfl, rfl⟩, h⟩ := h
    rcases returns_ite.mp h with ⟨-, h⟩ | ⟨hlt, h⟩
    · obtain ⟨-, rfl⟩ := returns_pure.mp h
      exact hs
    · simp only [returns_bind, returns_backfillIndices] at h
      obtain ⟨count, _, ⟨-, rfl⟩, h⟩ := h
      have hbatch := hQ hs (Nat.not_le.mp hlt)
      -- a batch that brings nothing ends the loop
      rcases returns_ite.mp h with ⟨-, h⟩ | ⟨-, h⟩
      · obtain ⟨-, rfl⟩ := returns_pure.mp h
        exact hbatch
      · simp only [returns_bind, returns_pure] at h
        obtain ⟨_, _, hrest, -, rfl⟩ := h
        exact ih hrest hbatch

/-- The backfill writes rows that it has read, and nothing else. -/
theorem writes_of_backfill {batches : ℕ} (h : (runBackfillBatches n batches).Returns rpc s out s') :
    ∃ rows : List IndexedToken, s' = s.performAll (rows.map .upsert) ∧
      ∀ row ∈ rows, ∃ i, 1 ≤ i ∧ i ≤ n ∧ getTokenByIndex rpc i = some row := by
  induction batches generalizing s out with
  | zero =>
    obtain ⟨-, rfl⟩ := returns_pure.mp h
    exact ⟨[], performAll_nil.symm, by simp⟩
  | succ batches ih =>
    simp only [runBackfillBatches, returns_bind, returns_getStore] at h
    obtain ⟨_, _, ⟨rfl, rfl⟩, h⟩ := h
    rcases returns_ite.mp h with ⟨-, h⟩ | ⟨hlt, h⟩
    · obtain ⟨-, rfl⟩ := returns_pure.mp h
      exact ⟨[], performAll_nil.symm, by simp⟩
    · simp only [returns_bind, returns_backfillIndices] at h
      obtain ⟨count, _, ⟨-, rfl⟩, h⟩ := h
      -- every row of a batch was read under a number of its window
      have hrows : ∀ row ∈ backfillRows rpc s.store (batchWindow n s.store.countTokens),
          ∃ i, 1 ≤ i ∧ i ≤ n ∧ getTokenByIndex rpc i = some row := by
        intro row hrow
        obtain ⟨i, hi, hread⟩ := mem_backfillRows hrow
        obtain ⟨hlo, -, hhi⟩ := mem_batchWindow.mp hi
        exact ⟨i, by omega, hhi, hread⟩
      -- the last batch, or rows of later ones behind it
      rcases returns_ite.mp h with ⟨-, h⟩ | ⟨-, h⟩
      · obtain ⟨-, rfl⟩ := returns_pure.mp h
        exact ⟨_, rfl, hrows⟩
      · simp only [returns_bind, returns_pure] at h
        obtain ⟨_, _, hrest, -, rfl⟩ := h
        obtain ⟨rows, rfl, hmore⟩ := ih hrest
        refine ⟨_ ++ rows, by rw [performAll_append, List.map_append], fun row hrow => ?_⟩
        rcases List.mem_append.mp hrow with hrow | hrow
        · exact hrows row hrow
        · exact hmore row hrow

/-- The backfill writes the rows that its batches read. -/
theorem eq_performAll_of_backfill {batches : ℕ}
    (h : (runBackfillBatches n batches).Returns rpc s out s') :
    s' = s.performAll ((batchRows rpc n batches s.store).map .upsert) := by
  induction batches generalizing s out with
  | zero =>
    obtain ⟨-, rfl⟩ := returns_pure.mp h
    exact performAll_nil.symm
  | succ batches ih =>
    simp only [runBackfillBatches, returns_bind, returns_getStore] at h
    obtain ⟨_, _, ⟨rfl, rfl⟩, h⟩ := h
    rw [batchRows]
    rcases returns_ite.mp h with ⟨hge, h⟩ | ⟨hlt, h⟩
    · obtain ⟨-, rfl⟩ := returns_pure.mp h
      rw [if_pos hge, List.map_nil, performAll_nil]
    · rw [if_neg hlt]
      simp only [returns_bind, returns_backfillIndices] at h
      obtain ⟨count, _, ⟨hcount, rfl⟩, h⟩ := h
      have hcount : (backfillRows rpc s.store (batchWindow n s.store.countTokens)).length = count :=
        hcount
      dsimp only
      -- a batch that reads no row is the last one
      rcases returns_ite.mp h with ⟨hzero, h⟩ | ⟨hzero, h⟩
      · obtain ⟨-, rfl⟩ := returns_pure.mp h
        have hnil := List.length_eq_zero_iff.mp (hcount.trans hzero)
        rw [if_pos hnil, List.map_nil, performAll_nil]
        show s.performAll ((backfillRows rpc s.store (batchWindow n s.store.countTokens)).map .upsert) = s
        rw [hnil, List.map_nil, performAll_nil]
      · have hne : backfillRows rpc s.store (batchWindow n s.store.countTokens) ≠ [] := by
          rintro hnil
          rw [hnil] at hcount
          exact hzero hcount.symm
        simp only [returns_bind, returns_pure] at h
        obtain ⟨_, _, hrest, -, rfl⟩ := h
        rw [if_neg hne, ih hrest, performAll_append, List.map_append]
        rfl

/-- The event phase writes what the delivered pages say, whether it ends or fails. -/
theorem writes_of_pages {cursor : Option String} {lastLedger : Option ℕ} {lastCloseTime : Option ℤ}
    {pages : ℕ} (h : runPages cursor lastLedger lastCloseTime pages rpc s = some (r, s')) :
    s'.writes = s.writes ++ pageWrites (pagesFrom rpc cursor pages) ∧
      s'.store.tokens = replay s.store.tokens (pageWrites (pagesFrom rpc cursor pages)) := by
  induction pages generalizing s cursor lastLedger lastCloseTime r with
  | zero =>
    obtain ⟨-, rfl⟩ := Prod.mk.inj (Option.some.inj h)
    simp [pagesFrom, pageWrites, replay]
  | succ pages ih =>
    rw [pagesFrom]
    rcases hpage : getEventPage rpc cursor with err | page
    · have hrun : runPages cursor lastLedger lastCloseTime (pages + 1) rpc s =
          some (.error err, s) := by
        rw [runPages, (returns_getEnv.mpr ⟨rfl, rfl⟩).bind_eq, hpage]
        rfl
      obtain ⟨-, rfl⟩ := Prod.mk.inj (Option.some.inj (hrun.symm.trans h))
      simp [pageWrites, replay]
    · rw [runPages, (returns_getEnv.mpr ⟨rfl, rfl⟩).bind_eq, hpage,
        (returns_ofExcept.mpr ⟨rfl, rfl⟩).bind_eq,
        (returns_upsertTokens (u := ())).mpr rfl |>.bind_eq,
        (returns_applyMetadata (u := ())).mpr rfl |>.bind_eq, performAll_append] at h
      rw [saveState, (returns_modifyWorld (u := ())).mpr rfl |>.bind_eq] at h
      rw [pageWrites, List.flatMap_cons, ← pageWrites]
      by_cases hlast : page.cursor = none
      · -- the head of the stream
        rw [if_pos hlast] at h
        obtain ⟨-, rfl⟩ := Prod.mk.inj (Option.some.inj h)
        rw [if_pos hlast, pageWrites, List.flatMap_nil, List.append_nil]
        exact ⟨rfl, rfl⟩
      · rw [if_neg hlast] at h
        rw [if_neg hlast]
        obtain ⟨_, hrest⟩ := exists_of_bind_pure h
        obtain ⟨hwrites, htokens⟩ := ih hrest
        refine ⟨hwrites.trans (List.append_assoc ..), htokens.trans ?_⟩
        rw [replay, replay, List.foldl_append]
        rfl

/-- The event phase fails only where a page cannot be read. -/
theorem failed_of_pages {cursor : Option String} {lastLedger : Option ℕ} {lastCloseTime : Option ℤ}
    {pages : ℕ} {err : String}
    (h : (runPages cursor lastLedger lastCloseTime pages).Throws rpc s err s') :
    ∃ cursor, getEventPage rpc cursor = .error err := by
  induction pages generalizing s cursor lastLedger lastCloseTime with
  | zero => exact (throws_pure h).elim
  | succ pages ih =>
    rcases hpage : getEventPage rpc cursor with err' | page
    · rw [Throws, runPages, (returns_getEnv.mpr ⟨rfl, rfl⟩).bind_eq, hpage] at h
      obtain ⟨herr, -⟩ := Prod.mk.inj (Option.some.inj h)
      obtain rfl := Except.error.inj herr
      exact ⟨cursor, hpage⟩
    · rw [Throws, runPages, (returns_getEnv.mpr ⟨rfl, rfl⟩).bind_eq, hpage,
        (returns_ofExcept.mpr ⟨rfl, rfl⟩).bind_eq,
        (returns_upsertTokens (u := ())).mpr rfl |>.bind_eq,
        (returns_applyMetadata (u := ())).mpr rfl |>.bind_eq,
        saveState, (returns_modifyWorld (u := ())).mpr rfl |>.bind_eq] at h
      split_ifs at h
      · exact (throws_pure h).elim
      · obtain hrest | ⟨_, _, -, hpure⟩ := throws_bind.mp h
        · exact ih hrest
        · exact (throws_pure hpure).elim

/-- A row that pages write is one of a creation in them. -/
theorem mem_pageWrites_upsert {pages : List EventPage} {token : IndexedToken} :
    .upsert token ∈ pageWrites pages ↔ ∃ page ∈ pages, token ∈ createdTokens page.events := by
  have hpage : ∀ page : EventPage,
      .upsert token ∈ page.writes ↔ token ∈ createdTokens page.events := by
    intro page
    rw [EventPage.writes, List.mem_append]
    constructor
    · rintro (hmem | hmem)
      · obtain ⟨token', htoken', heq⟩ := List.mem_map.mp hmem
        cases heq
        exact htoken'
      · obtain ⟨event, -, heq⟩ := List.mem_filterMap.mp hmem
        cases event <;> cases heq
    · intro hmem
      exact .inl (List.mem_map.mpr ⟨token, hmem, rfl⟩)
  simp only [pageWrites, List.mem_flatMap, hpage]

/-- A page that is applied was read from the server. -/
theorem exists_of_mem_pagesFrom {cursor : Option String} {pages : ℕ} {page : EventPage}
    (h : page ∈ pagesFrom rpc cursor pages) : ∃ cursor, getEventPage rpc cursor = .ok page := by
  induction pages generalizing cursor with
  | zero => cases h
  | succ pages ih =>
    rw [pagesFrom] at h
    rcases hpage : getEventPage rpc cursor with err | page'
    · rw [hpage] at h
      cases h
    · rw [hpage] at h
      rcases List.mem_cons.mp h with rfl | h
      · exact ⟨cursor, hpage⟩
      · split_ifs at h
        · cases h
        · exact ih h

/-- The index of a row that an event inserts is what the server answers. -/
theorem tokenIndex_of_delivered {page : EventPage} {token : IndexedToken} (hpage : page ∈ delivered rpc s)
    (htoken : token ∈ createdTokens page.events) :
    token.tokenIndex = (rpc.tokenIndex token.address).getD 0 := by
  rw [delivered] at hpage
  split at hpage
  · cases hpage
  · obtain ⟨cursor, hread⟩ := exists_of_mem_pagesFrom hpage
    obtain ⟨raw, hraw⟩ := readEvent_of_createdTokens hread htoken
    exact (readEvent_created hraw).2

/-! ### A cycle -/

/-- What a cycle with the token count `n` does up to the end of the event phase: it reads some rows,
and applies the events that are delivered. -/
structure EventPhase (rpc : SorobanRpc) (n : ℕ) (s s₁ s₂ : Ingesting) : Prop where
  tokenCount : rpc.tokenCount = .ok n
  /-- The backfill, unless it is complete. -/
  backfill : s₁ = s ∨ ∃ out, (runBackfill n).Returns rpc s out s₁
  rows : s₁ = s.performAll ((backfilledRows rpc s.store).map .upsert)
  writes : s₂.writes = s₁.writes ++ pageWrites (delivered rpc s)
  tokens : s₂.store.tokens = replay s₁.store.tokens (pageWrites (delivered rpc s))

/-- **What a cycle does.** -/
inductive CycleOutcome (rpc : SorobanRpc) (s : Ingesting) (result : IngestResult) (s' : Ingesting) :
    Prop
  /-- The token count cannot be read. -/
  | noCount {err : String} (hcount : rpc.tokenCount = .error err)
    (hresult : result.backfillComplete = false)
    (hwrites : s'.writes = s.writes) (htokens : s'.store.tokens = s.store.tokens)
  /-- A page of events cannot be read. -/
  | stopped {n : ℕ} {s₁ s₂ : Ingesting} (h : EventPhase rpc n s s₁ s₂)
    (hpage : ∃ cursor err, getEventPage rpc cursor = .error err)
    (hresult : result.backfillComplete = false)
    (hwrites : s'.writes = s₂.writes) (htokens : s'.store.tokens = s₂.store.tokens)
  /-- The cycle comes to its end. -/
  | finished {n : ℕ} {s₁ s₂ : Ingesting} (h : EventPhase rpc n s s₁ s₂) {rows : List IndexedToken}
    (hrows : rows = if s₂.store.countTokens < n then
      backfillRows rpc s₂.store (reconcileWindow s₂.store n) else [])
    (hwrites : s'.writes = s₂.writes ++ rows.map .upsert)
    (htokens : s'.store.tokens = replay s₂.store.tokens (rows.map .upsert))
    (hcount : result.tokenCount = n)
    (hresult : result.backfillComplete = decide (s'.store.tokens.length ≥ n))

/-- The reconciliation writes missing rows, where there are fewer rows than tokens. -/
theorem returns_reconcileCount (h : (reconcileCount n).Returns rpc s out s') :
    s' = s.performAll ((if s.store.countTokens < n then
      backfillRows rpc s.store (reconcileWindow s.store n) else []).map .upsert) := by
  simp only [reconcileCount, returns_bind, returns_getStore] at h
  obtain ⟨_, _, ⟨rfl, rfl⟩, h⟩ := h
  rcases returns_ite.mp h with ⟨hlt, h⟩ | ⟨hge, h⟩
  · obtain ⟨-, rfl⟩ := returns_backfillIndices.mp h
    rw [if_pos hlt]
    rfl
  · obtain ⟨-, rfl⟩ := returns_pure.mp h
    rw [if_neg hge, List.map_nil, performAll_nil]

theorem returns_saveState' {patch : SorobanRpc → IndexerState → IndexerState} {u : Unit} :
    (saveState patch).Returns rpc s u s' ↔
      { s with store := { s.store with state := patch rpc s.store.state } } = s' :=
  returns_modifyWorld

theorem returns_recordError {result out : IngestResult} {err : String}
    (h : (recordError result err).Returns rpc s out s') :
    out = { result with error := some err } ∧ s'.writes = s.writes ∧
      s'.store.tokens = s.store.tokens := by
  simp only [recordError, returns_bind, returns_saveState', returns_pure] at h
  obtain ⟨_, _, rfl, rfl, rfl⟩ := h
  exact ⟨rfl, rfl, rfl⟩

/-- The end of a cycle after the event phase. -/
theorem returns_finishCycle {result out : IngestResult}
    (h : (finishCycle result).Returns rpc s out s') :
    ∃ rows : List IndexedToken, (rows = if s.store.countTokens < result.tokenCount then
        backfillRows rpc s.store (reconcileWindow s.store result.tokenCount) else []) ∧
      s'.writes = s.writes ++ rows.map .upsert ∧
      s'.store.tokens = replay s.store.tokens (rows.map .upsert) ∧
      out.tokenCount = result.tokenCount ∧
      out.backfillComplete = decide (s'.store.tokens.length ≥ result.tokenCount) := by
  simp only [finishCycle, returns_bind, returns_getStore, returns_saveState', returns_pure] at h
  obtain ⟨_, _, hreconcile, _, _, ⟨rfl, rfl⟩, _, _, rfl, rfl, rfl⟩ := h
  obtain rfl := returns_reconcileCount hreconcile
  exact ⟨_, rfl, rfl, rfl, rfl, rfl⟩

/-- The event phase after the backfill. -/
theorem eventPhase_of_steady {s₁ s₂ : Ingesting} (hcount : rpc.tokenCount = .ok n)
    (hbackfill : s₁ = s ∨ ∃ out, (runBackfill n).Returns rpc s out s₁)
    (hrows : s₁ = s.performAll ((backfilledRows rpc s.store).map .upsert))
    (hsteady : runSteadyState rpc s₁ = some (r, s₂)) : EventPhase rpc n s s₁ s₂ := by
  -- the backfill leaves the cursor where it was
  have hstate : s₁.store.state = s.store.state := by
    rcases hbackfill with rfl | ⟨_, h⟩
    · rfl
    · obtain ⟨rows, rfl, -⟩ := writes_of_backfill h
      rfl
  rw [runSteadyState, (returns_getStore.mpr ⟨rfl, rfl⟩).bind_eq] at hsteady
  obtain ⟨hwrites, htokens⟩ := writes_of_pages hsteady
  have hdelivered : pagesFrom rpc s₁.store.state.lastCursor MAX_EVENT_PAGES_PER_RUN =
      delivered rpc s := by
    rw [hstate, delivered, hcount]
  rw [hdelivered] at hwrites htokens
  exact ⟨hcount, hbackfill, hrows, hwrites, htokens⟩

/-- **Every cycle has one of the outcomes.** -/
theorem cycle_cases {result : IngestResult} (h : runIngest rpc s = some (.ok result, s')) :
    CycleOutcome rpc s result s' := by
  have h : runIngest.Returns rpc s result s' := h
  simp only [runIngest, returns_bind, returns_getEnv] at h
  obtain ⟨_, _, ⟨rfl, rfl⟩, h⟩ := h
  rcases hcount : rpc.tokenCount with err | n
  · rw [hcount] at h
    obtain ⟨rfl, hwrites, htokens⟩ := returns_recordError h
    exact .noCount hcount rfl hwrites htokens
  · rw [hcount] at h
    simp only [returns_bind, returns_getStore] at h
    obtain ⟨_, _, ⟨rfl, rfl⟩, h⟩ := h
    -- what follows the backfill
    have hrest : ∀ {backfilled : ℕ} {s₁ : Ingesting},
        (s₁ = s ∨ ∃ out, (runBackfill n).Returns rpc s out s₁) →
        s₁ = s.performAll ((backfilledRows rpc s.store).map .upsert) → (attempt runSteadyState >>= fun
          | .error err => recordError { tokenCount := n, backfilled } err
          | .ok eventsApplied => finishCycle { tokenCount := n, backfilled, eventsApplied }).Returns
          rpc s₁ result s' → CycleOutcome rpc s result s' := by
      intro backfilled s₁ hbackfill hread h
      obtain ⟨o, s₂, hattempt, h⟩ := returns_bind.mp h
      have hphase := eventPhase_of_steady hcount hbackfill hread (returns_attempt.mp hattempt)
      rcases o with err | eventsApplied
      · obtain ⟨rfl, hwrites, htokens⟩ := returns_recordError h
        have hfail : runSteadyState.Throws rpc s₁ err s₂ := returns_attempt.mp hattempt
        rw [Throws, runSteadyState, (returns_getStore.mpr ⟨rfl, rfl⟩).bind_eq] at hfail
        obtain ⟨cursor, hpage⟩ := failed_of_pages hfail
        exact .stopped hphase ⟨cursor, err, hpage⟩ rfl hwrites htokens
      · obtain ⟨rows, hrows, hwrites, htokens, hn, hresult⟩ := returns_finishCycle h
        exact .finished hphase hrows hwrites htokens hn hresult
    rcases returns_ite.mp h with ⟨hcomplete, h⟩ | ⟨hcomplete, h⟩
    · obtain ⟨_, _, hpure, h⟩ := returns_bind.mp h
      obtain ⟨-, rfl⟩ := returns_pure.mp hpure
      refine hrest (.inl rfl) ?_ h
      rw [backfilledRows, hcount]
      dsimp only
      rw [if_pos hcomplete, List.map_nil, performAll_nil]
    · obtain ⟨_, _, hbackfill, h⟩ := returns_bind.mp h
      refine hrest (.inr ⟨_, hbackfill⟩) ?_ h
      rw [backfilledRows, hcount]
      dsimp only
      rw [if_neg hcomplete]
      exact eq_performAll_of_backfill hbackfill

/-! ### A cycle never throws -/

theorem not_throws_upsertTokens {tokens : List IndexedToken} {err : String} :
    ¬ (upsertTokens tokens).Throws rpc s err s' := by
  induction tokens generalizing s with
  | nil => simp [upsertTokens]
  | cons token tokens ih => simp [upsertTokens, write, ih]

theorem not_throws_backfillIndices {indices : List ℕ} {err : String} :
    ¬ (backfillIndices indices).Throws rpc s err s' := by
  simp [backfillIndices, getStore, not_throws_upsertTokens]

theorem not_throws_runBackfillBatches {batches : ℕ} {err : String} :
    ¬ (runBackfillBatches n batches).Throws rpc s err s' := by
  induction batches generalizing s with
  | zero => exact throws_pure
  | succ batches ih =>
    simp [runBackfillBatches, getStore, throws_ite, not_throws_backfillIndices, ih]

theorem not_throws_recordError {result : IngestResult} {err err' : String} :
    ¬ (recordError result err).Throws rpc s err' s' := by
  simp [recordError, saveState]

theorem not_throws_finishCycle {result : IngestResult} {err : String} :
    ¬ (finishCycle result).Throws rpc s err s' := by
  simp [finishCycle, reconcileCount, getStore, saveState, throws_ite, not_throws_backfillIndices]

/-- **A cycle never throws.** -/
theorem not_throws_runIngest {err : String} : ¬ runIngest.Throws rpc s err s' := by
  intro h
  simp only [runIngest, throws_bind, throws_getEnv, returns_getEnv, false_or] at h
  obtain ⟨_, _, ⟨rfl, rfl⟩, h⟩ := h
  -- without a count the error is recorded, and recording does not throw
  rcases hcount : rpc.tokenCount with err' | n
  · rw [hcount] at h
    exact not_throws_recordError h
  · rw [hcount] at h
    -- after the backfill the pages are attempted and every outcome is recorded
    have hrest : ∀ {backfilled : ℕ} {s₁ : Ingesting}, ¬ (attempt runSteadyState >>= fun
          | .error err => recordError { tokenCount := n, backfilled } err
          | .ok eventsApplied => finishCycle { tokenCount := n, backfilled, eventsApplied }).Throws
          rpc s₁ err s' := by
      intro backfilled s₁ h
      rcases throws_bind.mp h with h | ⟨o, _, -, h⟩
      · exact throws_attempt h
      · rcases o with _ | _
        · exact not_throws_recordError h
        · exact not_throws_finishCycle h
    simp only [throws_bind, getStore, throws_getWorld, throws_pure, throws_ite, false_or,
      and_false, exists_false, or_false] at h
    obtain ⟨store, s₁, -, ⟨-, backfilled, s₂, -, h⟩ | ⟨-, h⟩⟩ := h
    · exact hrest (throws_bind.mpr h)
    · rcases h with h | ⟨backfilled, s₂, -, h⟩
      · exact not_throws_runBackfillBatches h
      · exact hrest (throws_bind.mpr h)

/-! ### A cycle always ends -/

theorem not_traps_upsertTokens {tokens : List IndexedToken} :
    ¬ (upsertTokens tokens).Traps rpc s := by
  induction tokens generalizing s with
  | nil => exact traps_pure
  | cons token tokens ih => simp [upsertTokens, write, ih]

theorem not_traps_applyMetadata {events : List IndexerEvent} :
    ¬ (applyMetadata events).Traps rpc s := by
  induction events generalizing s with
  | nil => exact traps_pure
  | cons event events ih =>
    cases event with
    | created token => exact ih
    | metadata address uri => simp [applyMetadata, write, ih]

theorem not_traps_backfillIndices {indices : List ℕ} :
    ¬ (backfillIndices indices).Traps rpc s := by
  simp [backfillIndices, getStore, not_traps_upsertTokens]

theorem not_traps_runBackfillBatches {batches : ℕ} :
    ¬ (runBackfillBatches n batches).Traps rpc s := by
  induction batches generalizing s with
  | zero => exact traps_pure
  | succ batches ih =>
    simp [runBackfillBatches, getStore, traps_ite, not_traps_backfillIndices, ih]

theorem not_traps_runPages {cursor : Option String} {lastLedger : Option ℕ}
    {lastCloseTime : Option ℤ} {pages : ℕ} :
    ¬ (runPages cursor lastLedger lastCloseTime pages).Traps rpc s := by
  induction pages generalizing s cursor lastLedger lastCloseTime with
  | zero => exact traps_pure
  | succ pages ih =>
    simp [runPages, saveState, traps_ite, not_traps_upsertTokens, not_traps_applyMetadata, ih]

/-- **A cycle always ends**, whatever the server answers. -/
theorem not_traps_runIngest : ¬ runIngest.Traps rpc s := by
  -- neither of the two ends can trap, since both only write
  have hrecord : ∀ {s : Ingesting} {result err}, ¬ (recordError result err).Traps rpc s := by
    simp [recordError, saveState]
  have hfinish : ∀ {s : Ingesting} {result}, ¬ (finishCycle result).Traps rpc s := by
    simp [finishCycle, reconcileCount, getStore, saveState, traps_ite, not_traps_backfillIndices]
  intro h
  simp only [runIngest, traps_bind, traps_getEnv, returns_getEnv, false_or] at h
  obtain ⟨_, _, ⟨rfl, rfl⟩, h⟩ := h
  rcases hcount : rpc.tokenCount with err | n
  · rw [hcount] at h
    exact hrecord h
  · rw [hcount] at h
    have hrest : ∀ {backfilled : ℕ} {s₁ : Ingesting}, ¬ (attempt runSteadyState >>= fun
          | .error err => recordError { tokenCount := n, backfilled } err
          | .ok eventsApplied => finishCycle { tokenCount := n, backfilled, eventsApplied }).Traps
          rpc s₁ := by
      intro backfilled s₁ h
      rcases traps_bind.mp h with h | ⟨o, _, -, h⟩
      · rw [traps_attempt, runSteadyState, traps_bind] at h
        rcases h with h | ⟨_, _, -, h⟩
        · simp [getStore] at h
        · exact not_traps_runPages h
      · rcases o with _ | _
        · exact hrecord h
        · exact hfinish h
    simp only [traps_bind, getStore, traps_getWorld, traps_pure, traps_ite, false_or,
      and_false, exists_false, or_false] at h
    obtain ⟨store, s₁, -, ⟨-, backfilled, s₂, -, h⟩ | ⟨-, h⟩⟩ := h
    · exact hrest (traps_bind.mpr h)
    · rcases h with h | ⟨backfilled, s₂, -, h⟩
      · exact not_traps_runBackfillBatches h
      · exact hrest (traps_bind.mpr h)

/-- Every server leads through a cycle. -/
theorem exists_cycle (s : Ingesting) (rpc : SorobanRpc) : ∃ s', Cycle s rpc s' := by
  have hends : runIngest rpc s ≠ none := not_traps_runIngest
  obtain ⟨⟨result, s'⟩, h⟩ := Option.ne_none_iff_exists'.mp hends
  exact ⟨s', result, h⟩

/-- Every cycle reports a result, and has one of the outcomes. -/
theorem outcome_of_cycle (h : Cycle s rpc s') : ∃ result, CycleOutcome rpc s result s' := by
  obtain ⟨err | result, h⟩ := h
  · exact (not_throws_runIngest h).elim
  · exact ⟨result, cycle_cases h⟩

end

end StellarForge.Indexer
