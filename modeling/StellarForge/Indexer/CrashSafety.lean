import StellarForge.Indexer.Interrupted

/-!
# Crash safety of ingest

A cycle with calls that reject ends in one of three ways: it returns what it returns undisturbed; a
call of its `try` rejects and the error is recorded; or the recording rejects too, and the cycle
rejects.  In each of them the stored cursor is kept and `backfillComplete` is not turned on by a
failure, so that a cycle is crash safe exactly when it resolves.

* `crashSafe_iff`: **when a cycle is crash safe**;
* `cursorKept_of_visited`, `flag_of_error`: what it keeps in any case.
-/

namespace StellarForge.Indexer.Interrupted

open Concurrency Soroban Contract MemoryTokenStore

variable {env : Unreliable Surroundings Rejection} {s s' : Counted Cycling} {t t' : Cycling}

/-! ### The calls are made one after another -/

instance {α : Type} {read : ChainReader → α} : Sequential (ofChain read) := Sequential.call

instance {α : Type} {read : MemoryTokenStore → α} : Sequential (ofStore read) := Sequential.call

instance {ws : List Write} : Sequential (writeRows ws) := Sequential.call

instance {cursor : Option String} : Sequential (getEventPage cursor) := Sequential.call

instance {patch : ℤ → IndexerState → IndexerState} : Sequential (saveState patch) := Sequential.call

instance {f : IngestResult → IngestResult} : Sequential (assign f) := Sequential.update

instance sequential_readRows : ∀ {indices : List ℕ}, Sequential (readRows indices)
  | [] => Sequential.pure
  | index :: indices => by
    have ih : Sequential (readRows indices) := sequential_readRows
    unfold readRows getTokenByIndex
    infer_instance

instance sequential_backfillIndices {indices : List ℕ} : Sequential (backfillIndices indices) := by
  unfold backfillIndices presentIndices upsertTokens
  infer_instance

instance sequential_runBackfillBatches {tokenCount : ℕ} :
    ∀ {batches : ℕ}, Sequential (runBackfillBatches tokenCount batches)
  | 0 => Sequential.pure
  | batches + 1 => by
    have ih : Sequential (runBackfillBatches tokenCount batches) := sequential_runBackfillBatches
    unfold runBackfillBatches countTokens
    infer_instance

instance sequential_applyMetadata :
    ∀ {events : List (Option IndexerEvent)}, Sequential (applyMetadata events)
  | [] => Sequential.pure
  | event :: events => by
    have ih : Sequential (applyMetadata events) := sequential_applyMetadata
    rcases event with _ | _ | ⟨address, metadataUri⟩
    · exact ih
    · exact ih
    · unfold applyMetadata setMetadataUri
      infer_instance

instance sequential_applyPage {page : EventPage} : Sequential (applyPage page) := by
  unfold applyPage upsertCreated upsertTokens
  infer_instance

instance sequential_runPages {cursor : Option String} {lastLedger : Option ℕ}
    {lastCloseTime : Option ℤ} {pages : ℕ} :
    Sequential (runPages cursor lastLedger lastCloseTime pages) := by
  induction pages generalizing cursor lastLedger lastCloseTime with
  | zero => exact Sequential.pure
  | succ pages ih =>
    unfold runPages
    infer_instance

instance sequential_runSteadyState : Sequential runSteadyState := by
  unfold runSteadyState getState
  infer_instance

instance sequential_backfillUnlessComplete {tokenCount : ℕ} :
    Sequential (backfillUnlessComplete tokenCount) := by
  unfold backfillUnlessComplete getState runBackfill
  infer_instance

instance sequential_reconcile {tokenCount : ℕ} : Sequential (reconcile tokenCount) := by
  unfold reconcile countTokens presentIndices
  infer_instance

instance sequential_runPhases : Sequential runPhases := by
  unfold runPhases getTokenCount
  infer_instance

instance sequential_runCycle : Sequential runCycle := by
  unfold runCycle
  infer_instance

/-! ### Frame rules -/

/-- A preorder that the row writes, the reads and the assignments to `result` respect, but for those
to its `error`. -/
class Ignores (Q : Cycling → Cycling → Prop) : Prop extends Std.Refl Q, IsTrans Cycling Q where
  performAll : ∀ t ws, Q t (t.performAll ws)
  assign : ∀ (t : Cycling) (f : IngestResult → IngestResult),
    (f t.result).error = t.result.error → Q t { t with result := f t.result }

section

variable {Q : Cycling → Cycling → Prop} [hQ : Ignores Q]

instance moves_ofChain {α : Type} {read : ChainReader → α} : Moves (OnState Q) (ofChain read) :=
  moves_call (fun _ _ t => Std.Refl.refl t) fun _ t => Std.Refl.refl t

instance moves_ofStore {α : Type} {read : MemoryTokenStore → α} :
    Moves (OnState Q) (ofStore read) :=
  moves_call (fun _ _ t => Std.Refl.refl t) fun _ t => Std.Refl.refl t

instance moves_writeRows {ws : List Write} : Moves (OnState Q) (writeRows ws) :=
  moves_call (fun _ _ t => hQ.performAll t _) fun _ t => hQ.performAll t _

theorem moves_assign {f : IngestResult → IngestResult} (hf : ∀ r, (f r).error = r.error) :
    Moves (OnState Q) (assign f) :=
  moves_update fun t => hQ.assign t f (hf t.result)

instance moves_readRows {indices : List ℕ} : Moves (OnState Q) (readRows indices) := by
  induction indices with
  | nil => exact Moves.pure
  | cons index indices ih =>
    unfold readRows getTokenByIndex
    infer_instance

instance moves_backfillIndices {indices : List ℕ} :
    Moves (OnState Q) (backfillIndices indices) := by
  unfold backfillIndices presentIndices upsertTokens
  infer_instance

instance moves_runBackfillBatches {tokenCount batches : ℕ} :
    Moves (OnState Q) (runBackfillBatches tokenCount batches) := by
  induction batches with
  | zero => exact Moves.pure
  | succ batches ih =>
    unfold runBackfillBatches countTokens
    infer_instance

instance moves_backfillUnlessComplete {tokenCount : ℕ} :
    Moves (OnState Q) (backfillUnlessComplete tokenCount) := by
  have hassign : ∀ n, Moves (OnState Q) (assign fun result => { result with backfilled := n }) :=
    fun _ => moves_assign fun _ => rfl
  unfold backfillUnlessComplete getState runBackfill
  infer_instance

instance moves_applyMetadata {events : List (Option IndexerEvent)} :
    Moves (OnState Q) (applyMetadata events) := by
  induction events with
  | nil => exact Moves.pure
  | cons event events ih =>
    rcases event with _ | _ | ⟨address, metadataUri⟩
    · exact ih
    · exact ih
    · unfold applyMetadata setMetadataUri
      infer_instance

instance moves_applyPage {page : EventPage} : Moves (OnState Q) (applyPage page) := by
  unfold applyPage upsertCreated upsertTokens
  infer_instance

instance moves_reconcile {tokenCount : ℕ} : Moves (OnState Q) (reconcile tokenCount) := by
  have hassign : ∀ n, Moves (OnState Q) (assign fun result => { result with reconciled := n }) :=
    fun _ => moves_assign fun _ => rfl
  unfold reconcile countTokens presentIndices
  infer_instance

end

/-! ### The flag and the error -/

/-- Neither the flag nor the error of the result has changed. -/
structure Pending (t t' : Cycling) : Prop where
  flag : t'.store.state.backfillComplete = t.store.state.backfillComplete
  error : t'.result.error = t.result.error

instance : Ignores Pending where
  refl _ := ⟨rfl, rfl⟩
  trans _ _ _ h h' := ⟨h'.flag.trans h.flag, h'.error.trans h.error⟩
  performAll _ _ := ⟨rfl, rfl⟩
  assign _ _ hf := ⟨rfl, hf⟩

instance moves_runPages {cursor : Option String} {lastLedger : Option ℕ}
    {lastCloseTime : Option ℤ} {pages : ℕ} :
    Moves (OnState Pending) (runPages cursor lastLedger lastCloseTime pages) := by
  induction pages generalizing cursor lastLedger lastCloseTime with
  | zero => exact Moves.pure
  | succ pages ih =>
    have hread : Moves (OnState Pending) (getEventPage cursor) :=
      moves_call (fun _ _ _ => ⟨rfl, rfl⟩) fun _ _ => ⟨rfl, rfl⟩
    unfold runPages
    refine Moves.andThen hread fun page => Moves.andThen moves_applyPage fun _ => ?_
    refine Moves.andThen (moves_call (fun _ _ _ => ⟨rfl, rfl⟩) fun _ _ => ⟨rfl, rfl⟩) fun _ => ?_
    infer_instance

instance moves_runSteadyState : Moves (OnState Pending) runSteadyState := by
  unfold runSteadyState getState
  infer_instance

/-- The phases leave both alone: only the checkpoint that ends a cycle sets the flag. -/
theorem moves_runPhases : Moves (OnState Pending) runPhases := by
  unfold runPhases getTokenCount
  refine Moves.andThen moves_ofChain fun tokenCount => ?_
  refine Moves.andThen (moves_assign fun _ => rfl) fun _ => ?_
  refine Moves.andThen moves_backfillUnlessComplete fun _ => ?_
  refine Moves.andThen moves_runSteadyState fun eventsApplied => ?_
  refine Moves.andThen (moves_assign fun _ => rfl) fun _ => ?_
  refine Moves.andThen moves_reconcile fun indexed => ?_
  exact Moves.andThen (moves_assign fun _ => rfl) fun _ => Moves.pure

/-- A cycle whose `try` fails has not set the flag. -/
theorem flag_of_throws {r : Rejection} (h : runCycle.Throws env s r s') :
    s'.state.store.state.backfillComplete = s.state.store.state.backfillComplete := by
  rcases throws_bind.mp h with h | ⟨complete, s₁, hphases, hsave⟩
  · exact (moves_runPhases.rel h).flag
  · -- the last checkpoint rejects, and leaves the store alone
    obtain ⟨-, rfl⟩ := throws_call.mp hsave
    exact (moves_runPhases.rel hphases).flag

/-- A cycle whose `try` succeeds reports no error. -/
theorem error_of_returns {u : Unit} (h : runCycle.Returns env s u s') :
    s'.state.result.error = s.state.result.error := by
  obtain ⟨complete, s₁, hphases, hsave⟩ := returns_bind.mp h
  obtain ⟨-, -, rfl⟩ := returns_call.mp hsave
  exact (moves_runPhases.rel hphases).error

/-! ### The cursor -/

/-- No page is read, and the cursor is the same. -/
structure Quiet (t t' : Cycling) : Prop where
  cursor : t'.store.state.lastCursor = t.store.state.lastCursor
  pages : t'.pages = t.pages
  writes : t.writes <+: t'.writes

instance : Ignores Quiet where
  refl _ := ⟨rfl, rfl, List.prefix_refl _⟩
  trans _ _ _ h h' :=
    ⟨h'.cursor.trans h.cursor, h'.pages.trans h.pages, h.writes.trans h'.writes⟩
  performAll _ ws := ⟨rfl, rfl, List.prefix_append _ ws⟩
  assign _ _ _ := ⟨rfl, rfl, List.prefix_refl _⟩

theorem moves_saveState {patch : ℤ → IndexerState → IndexerState}
    (hpatch : ∀ now state, (patch now state).lastCursor = state.lastCursor) :
    Moves (OnState Quiet) (saveState patch) :=
  moves_call (fun _ _ _ => ⟨hpatch _ _, rfl, List.prefix_refl _⟩)
    fun _ t => Std.Refl.refl t

/-- The cursor of the last page, or the one before the pages. -/
def cursorAfter (cursor : Option String) (pages : List EventPage) : Option String :=
  (pages.getLast?.map EventPage.cursor).getD cursor

theorem cursorAfter_cons {cursor : Option String} {page : EventPage} {pages : List EventPage} :
    cursorAfter cursor (page :: pages) = cursorAfter page.cursor pages := by
  unfold cursorAfter
  cases pages with
  | nil => rfl
  | cons page' pages => rw [List.getLast?_cons_cons, List.getLast?_cons]; rfl

/-- The pages `read` have been read, and the pages `written` of them are written. -/
structure Paged (env : Surroundings) (t t' : Cycling) (read written : List EventPage) : Prop where
  pages : t'.pages = t.pages ++ read
  among : written <+: read
  follow : Follow env t.store.state.lastCursor read
  cursor : t'.store.state.lastCursor = cursorAfter t.store.state.lastCursor written
  writes : t.writes ++ written.flatMap EventPage.writes <+: t'.writes

theorem Paged.of_quiet {env : Surroundings} (h : Quiet t t') : Paged env t t' [] [] where
  pages := by rw [h.pages, List.append_nil]
  among := List.prefix_refl _
  follow := trivial
  cursor := h.cursor
  writes := by
    rw [List.flatMap_nil, List.append_nil]
    exact h.writes

@[simp] theorem Cycling.performAll_nil : t.performAll [] = t := by
  unfold Cycling.performAll
  rw [Indexer.performAll_nil]

@[simp] theorem Cycling.performAll_append {ws ws' : List Write} :
    (t.performAll ws).performAll ws' = t.performAll (ws ++ ws') := by
  unfold Cycling.performAll
  rw [← Indexer.performAll_append]

theorem returns_writeRows {ws : List Write} {u : Unit} (h : (writeRows ws).Returns env s u s') :
    s'.state = s.state.performAll ws := by
  obtain ⟨-, -, rfl⟩ := returns_call.mp h
  rfl

/-- The writes of the metadata in a page. -/
theorem returns_applyMetadata {events : List (Option IndexerEvent)} {u : Unit}
    (h : (applyMetadata events).Returns env s u s') :
    s'.state = s.state.performAll (events.reduceOption.filterMap IndexerEvent.metadataWrite) := by
  induction events generalizing s with
  | nil =>
    obtain ⟨-, rfl⟩ := returns_pure.mp h
    exact Cycling.performAll_nil.symm
  | cons event events ih =>
    rcases event with _ | _ | ⟨address, metadataUri⟩
    · exact ih h
    · exact ih h
    · obtain ⟨_, s₁, hset, hrest⟩ := returns_bind.mp h
      rw [ih hrest, returns_writeRows hset, Cycling.performAll_append]
      rfl

/-- A page that has been applied is written. -/
theorem returns_applyPage {page : EventPage} {u : Unit}
    (h : (applyPage page).Returns env s u s') : s'.state = s.state.performAll page.writes := by
  obtain ⟨_, s₁, hcreated, hmetadata⟩ := returns_bind.mp h
  have hrows : s₁.state = s.state.performAll (page.created.map .upsert) := by
    rcases returns_ite.mp hcreated with ⟨hnone, hpure⟩ | ⟨-, hupsert⟩
    · obtain ⟨-, rfl⟩ := returns_pure.mp hpure
      rw [hnone, List.map_nil, Cycling.performAll_nil]
    · exact returns_writeRows hupsert
  rw [returns_applyMetadata hmetadata, hrows, Cycling.performAll_append]
  rfl

/-- One more page in front. -/
theorem Paged.cons {env : Surroundings} {t₁ : Cycling} {page : EventPage}
    {read written : List EventPage} {n : ℕ}
    (hpage : page = (env.chain n).getEventPage t.store.state.lastCursor)
    (hpages : t₁.pages = t.pages ++ [page]) (hcursor : t₁.store.state.lastCursor = page.cursor)
    (hwrites : t₁.writes = t.writes ++ page.writes) (h : Paged env t₁ t' read written) :
    Paged env t t' (page :: read) (page :: written) where
  pages := by rw [h.pages, hpages, List.append_assoc, List.singleton_append]
  among := List.cons_prefix_cons.mpr ⟨rfl, h.among⟩
  follow := ⟨⟨n, hpage⟩, hcursor ▸ h.follow⟩
  cursor := by rw [h.cursor, hcursor, cursorAfter_cons]
  writes := by
    have hwritten := h.writes
    rwa [hwrites, List.append_assoc, ← List.flatMap_cons] at hwritten

/-- **The pages of a cycle.**  However the loop ends, its cursor is that of the last page that is
written, with the pages before it. -/
theorem paged_runPages {pages : ℕ} {cursor : Option String} {lastLedger : Option ℕ}
    {lastCloseTime : Option ℤ} {o : Except Rejection ℕ}
    (h : runPages cursor lastLedger lastCloseTime pages env s = some (o, s'))
    (hcursor : s.state.store.state.lastCursor = cursor) :
    ∃ read written, Paged env.answers s.state s'.state read written := by
  induction pages generalizing s cursor lastLedger lastCloseTime o with
  | zero =>
    obtain ⟨-, rfl⟩ := Prod.mk.inj (Option.some.inj h)
    exact ⟨[], [], .of_quiet (Std.Refl.refl _)⟩
  | succ pages ih =>
    rcases ends_bind.mp h with ⟨r, -, hread⟩ | ⟨page, s₁, hread, h⟩
    · obtain ⟨-, rfl⟩ := throws_call.mp hread
      exact ⟨[], [], .of_quiet (Std.Refl.refl _)⟩
    · obtain ⟨-, hpage, rfl⟩ := returns_call.mp hread
      dsimp only at hpage h
      rw [hpage] at h
      rw [← hcursor] at hpage
      -- the page has been read, and nothing of it is written yet
      have hunwritten : ∀ {t'}, Quiet { s.state with pages := s.state.pages ++ [page] } t' →
          Paged env.answers s.state t' [page] [] := fun hquiet => {
        pages := hquiet.pages
        among := List.nil_prefix
        follow := ⟨⟨s.calls, hpage.symm⟩, trivial⟩
        cursor := hquiet.cursor
        writes := by
          rw [List.flatMap_nil, List.append_nil]
          exact hquiet.writes }
      rcases ends_bind.mp h with ⟨r, -, happly⟩ | ⟨_, s₂, happly, h⟩
      · exact ⟨_, _, hunwritten (moves_applyPage.rel happly)⟩
      · have hquiet := moves_applyPage (Q := Quiet).rel happly
        have hwritten := returns_applyPage happly
        rcases ends_bind.mp h with ⟨r, -, hsave⟩ | ⟨_, s₃, hsave, h⟩
        · obtain ⟨-, rfl⟩ := throws_call.mp hsave
          exact ⟨_, _, hunwritten hquiet⟩
        · obtain ⟨-, -, rfl⟩ := returns_call.mp hsave
          have hrest : ∃ read written, Paged env.answers
              (s₂.state.setState { s₂.state.store.state with
                lastCursor := page.cursor
                lastLedger := page.latestLedger.or lastLedger
                lastLedgerCloseTime := page.latestLedgerCloseTime.or lastCloseTime })
              s'.state read written := by
            dsimp only at h
            split at h
            · obtain ⟨-, rfl⟩ := Prod.mk.inj (Option.some.inj h)
              exact ⟨[], [], .of_quiet (Std.Refl.refl _)⟩
            · rcases ends_bind.mp h with ⟨r, -, hpages⟩ | ⟨_, s₄, hpages, h⟩
              · exact ih hpages rfl
              · obtain ⟨-, rfl⟩ := Prod.mk.inj (Option.some.inj h)
                exact ih hpages rfl
          obtain ⟨read, written, hrest⟩ := hrest
          refine ⟨page :: read, page :: written, .cons hpage.symm ?_ rfl ?_ hrest⟩
          · exact hquiet.pages
          · show s₂.state.writes = _
            rw [hwritten]
            rfl

/-! ### A whole cycle -/

/-- A cycle up to `t'`: the pages, and steps before and after them that read none. -/
def Visited (env : Surroundings) (t t' : Cycling) : Prop :=
  ∃ t₁ t₂ read written, Quiet t t₁ ∧ Paged env t₁ t₂ read written ∧ Quiet t₂ t'

theorem Quiet.visited {env : Surroundings} (h : Quiet t t') : Visited env t t' :=
  ⟨t', t', [], [], h, .of_quiet (Std.Refl.refl _), Std.Refl.refl _⟩

/-- A program that reads the pages of a cycle. -/
def Visits {α : Type} (x : CycleM α) : Prop :=
  ∀ env s o s', x env s = some (o, s') → Visited env.answers s.state s'.state

variable {α β : Type}

theorem Visits.before {x : CycleM α} {f : α → CycleM β} (hx : Moves (OnState Quiet) x)
    (hf : ∀ a, Visits (f a)) : Visits (x >>= f) := by
  intro env s o s' h
  rcases ends_bind.mp h with ⟨r, -, h⟩ | ⟨a, s₁, h, hrest⟩
  · exact Quiet.visited (hx.rel h)
  · obtain ⟨t₁, t₂, read, written, hquiet, hpaged, hquiet'⟩ := hf a _ _ _ _ hrest
    exact ⟨t₁, t₂, read, written, IsTrans.trans _ _ _ (hx.rel h) hquiet, hpaged, hquiet'⟩

theorem Visits.after {x : CycleM α} {f : α → CycleM β} (hx : Visits x)
    (hf : ∀ a, Moves (OnState Quiet) (f a)) : Visits (x >>= f) := by
  intro env s o s' h
  rcases ends_bind.mp h with ⟨r, -, h⟩ | ⟨a, s₁, h, hrest⟩
  · exact hx _ _ _ _ h
  · obtain ⟨t₁, t₂, read, written, hquiet, hpaged, hquiet'⟩ := hx _ _ _ _ h
    exact ⟨t₁, t₂, read, written, hquiet, hpaged, IsTrans.trans _ _ _ hquiet' ((hf a).rel hrest)⟩

theorem Visits.guarded {x : CycleM α} {handler : Rejection → CycleM α} (hx : Visits x)
    (hhandler : ∀ r, Moves (OnState Quiet) (handler r)) : Visits (guarded x handler) := by
  have hattempt : Visits x.attempt := by
    intro env s o s' h
    obtain ⟨⟨o', s₁⟩, hrun, hsame⟩ := Option.map_eq_some_iff.mp h
    obtain ⟨-, rfl⟩ := Prod.mk.inj hsame
    exact hx _ _ _ _ hrun
  refine hattempt.after fun o => ?_
  cases o with
  | ok a => exact Moves.pure
  | error r => exact hhandler r

theorem visits_runSteadyState : Visits runSteadyState := by
  intro env s o s' h
  unfold runSteadyState getState ofStore at h
  rcases ends_bind.mp h with ⟨r, -, h⟩ | ⟨state, s₁, hstate, h⟩
  · exact Quiet.visited (moves_ofStore.rel h)
  · obtain ⟨-, hcursor, rfl⟩ := returns_call.mp hstate
    obtain ⟨read, written, hpaged⟩ := paged_runPages h (congrArg IndexerState.lastCursor hcursor)
    exact ⟨_, _, read, written, Std.Refl.refl _, hpaged, Std.Refl.refl _⟩

theorem visits_runPhases : Visits runPhases := by
  unfold runPhases getTokenCount
  refine .before moves_ofChain fun tokenCount => .before (moves_assign fun _ => rfl) fun _ => ?_
  refine .before moves_backfillUnlessComplete fun _ => ?_
  refine visits_runSteadyState.after fun eventsApplied => ?_
  refine Moves.andThen (moves_assign fun _ => rfl) fun _ => ?_
  refine Moves.andThen moves_reconcile fun indexed => ?_
  exact Moves.andThen (moves_assign fun _ => rfl) fun _ => Moves.pure

/-- The phases are what reads pages; the two checkpoints of `runIngest` keep the cursor. -/
theorem visits_runIngest : Visits runIngest := by
  have hcycle : Visits runCycle :=
    visits_runPhases.after fun complete => moves_saveState fun _ _ => rfl
  have herror : ∀ err : Rejection, Moves (OnState Quiet)
      (assign fun result => { result with error := some err.message }) :=
    fun _ => moves_update fun _ => ⟨rfl, rfl, List.prefix_refl _⟩
  have hcatch : ∀ err, Moves (OnState Quiet) (recordError err) := fun err =>
    Moves.andThen (herror err) fun _ => moves_saveState fun _ _ => rfl
  exact (hcycle.guarded hcatch).after fun _ => moves_look

/-- **However a cycle ends, its cursor is kept.** -/
theorem cursorKept_of_visited {env : Surroundings} {store : MemoryTokenStore}
    (h : Visited env (start store).state t') : CursorKept env store t' := by
  obtain ⟨t₁, t₂, read, written, hquiet, hpaged, hquiet'⟩ := h
  have hfirst : t₁.store.state.lastCursor = store.state.lastCursor := hquiet.cursor
  have hread : t'.pages = read := by
    rw [hquiet'.pages, hpaged.pages, hquiet.pages]
    rfl
  have hcursor : t'.store.state.lastCursor = cursorAfter store.state.lastCursor written := by
    rw [hquiet'.cursor, hpaged.cursor, hfirst]
  have hwrites : written.flatMap EventPage.writes <:+: t'.writes := by
    obtain ⟨after, hafter⟩ := hpaged.writes.trans hquiet'.writes
    exact ⟨t₁.writes, after, hafter⟩
  refine ⟨hread ▸ hfirst ▸ hpaged.follow, ?_⟩
  rcases List.eq_nil_or_concat' written with rfl | ⟨earlier, page, rfl⟩
  · exact .inl hcursor
  · refine .inr ⟨earlier, page, hread ▸ hpaged.among, ?_, hwrites⟩
    rw [hcursor, cursorAfter, List.getLast?_append_of_ne_nil _ (List.cons_ne_nil page []),
      List.getLast?_singleton]
    rfl

/-- The handler makes one call. -/
theorem resolves_recordError (r : Rejection) (s : Counted Cycling) :
    (∃ u s', (recordError r).Returns env s u s') ↔ env.rejects s.calls = none := by
  constructor
  · rintro ⟨u, s', h⟩
    obtain ⟨_, s₁, hassign, hsave⟩ := returns_bind.mp h
    obtain rfl := returns_modifyWorld.mp hassign
    exact (returns_call.mp hsave).1
  · intro hnone
    exact ⟨(), _, returns_bind.mpr ⟨(), _, returns_modifyWorld.mpr rfl,
      returns_call.mpr ⟨hnone, rfl, rfl⟩⟩⟩

/-- A run returns what its cycle or the handler of its error leaves. -/
theorem returns_runIngest_iff {result : IngestResult} : runIngest.Returns env s result s' ↔
    ∃ u, (guarded runCycle recordError).Returns env s u s' ∧ s'.state.result = result := by
  unfold runIngest
  rw [returns_bind]
  constructor
  · rintro ⟨u, s₁, hguarded, hlook⟩
    obtain ⟨hresult, rfl⟩ := Prod.mk.inj (Option.some.inj hlook)
    exact ⟨u, hguarded, Except.ok.inj hresult⟩
  · rintro ⟨u, hguarded, rfl⟩
    exact ⟨u, s', hguarded, rfl⟩

/-- A cycle that reports an error has not turned the flag on. -/
theorem flag_of_error {result : IngestResult} (h : runIngest.Returns env s result s')
    (hstart : s.state.result.error = none) (herror : result.error ≠ none) :
    s'.state.store.state.backfillComplete = s.state.store.state.backfillComplete := by
  obtain ⟨u, hguarded, rfl⟩ := returns_runIngest_iff.mp h
  rcases returns_guarded_iff.mp hguarded with hcycle | ⟨r, s₁, hcycle, hcatch⟩
  · exact absurd ((error_of_returns hcycle).trans hstart) herror
  · obtain ⟨_, s₂, hassign, hsave⟩ := returns_bind.mp hcatch
    obtain rfl := returns_modifyWorld.mp hassign
    obtain ⟨-, -, rfl⟩ := returns_call.mp hsave
    have hflag := flag_of_throws hcycle
    exact hflag

/-- **When a cycle is crash safe**: the call after the first one that rejects in the `try`, which is
the `saveState` of the error path, does not reject. -/
theorem crashSafe_iff {store : MemoryTokenStore} :
    CrashSafe env store ↔ Recovers runCycle env (start store) := by
  have hresolves : (∃ u s, (guarded runCycle recordError).Returns env (start store) u s) ↔
      Recovers runCycle env (start store) := resolves_guarded_iff resolves_recordError
  rw [← hresolves]
  constructor
  · rintro ⟨result, s, hreturns, -, -⟩
    obtain ⟨u, hguarded, -⟩ := returns_runIngest_iff.mp hreturns
    exact ⟨u, s, hguarded⟩
  · rintro ⟨u, s, hguarded⟩
    have hreturns : runIngest.Returns env (start store) s.state.result s :=
      returns_runIngest_iff.mpr ⟨u, hguarded, rfl⟩
    refine ⟨s.state.result, s, hreturns, ?_, fun herror hflag => ?_⟩
    · exact cursorKept_of_visited (visits_runIngest _ _ _ _ hreturns)
    · rw [flag_of_error hreturns rfl herror] at hflag
      exact hflag

/-! ### The error path rejects too -/

/-- The chain has no tokens and no events; the first two calls of a cycle reject. -/
def sampleOutage : Unreliable Surroundings Rejection where
  answers :=
    { chain := fun _ => ⟨0, fun _ => none, fun _ => ⟨[], none, none, none⟩⟩
      now := fun _ => 0 }
  rejects n := if n < 2 then some { message := "fetch failed" } else none

/-- A run that throws, since its error could not be recorded. -/
theorem not_crashSafe_sampleOutage : ¬ CrashSafe sampleOutage .empty := by
  rintro ⟨result, s, hreturns, -⟩
  cases hreturns

end StellarForge.Indexer.Interrupted
