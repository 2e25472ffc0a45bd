import StellarForge.Indexer.Checkpoints

/-!
# How a cycle ends

A cycle in which any call may reject, or from some call on all of them, as when the process is killed.
However it ends, it has written rows that it has read by their numbers, then pages in their turn, then a part
of the next page, and then again rows that it has read; and it has stored the cursor of the last page that
is written in full.

* `Advances`: what the loop over the pages leaves behind, and `advances_of_runPages` for the loop;
* `exists_ends_of_runIngest`: **how a cycle ends**;
* `Reflects.ends`: **after a cycle the rows reflect what its saved pages have reached**, wherever it has
  ended.
-/

namespace StellarForge.Indexer.Interrupted

open Collections Concurrency Soroban Contract MemoryTokenStore

/-- A row that the chain has answered for a number. -/
def RowRead (env : Surroundings) (row : IndexedToken) : Prop :=
  ∃ n i token, (env.chain n).getTokenByIndex i = some token ∧ row = { token with source := .backfill }

/-- A page that the chain has answered. -/
def PageRead (env : Surroundings) (page : EventPage) : Prop :=
  ∃ n cursor, page = (env.chain n).getEventPage cursor

/-- Rows have been written that were read by their numbers. -/
structure Backfilled (env : Surroundings) (t t' : Cycling) : Prop where
  cursor : t'.store.state.lastCursor = t.store.state.lastCursor
  tokens : ∃ rows : List IndexedToken, (∀ row ∈ rows, RowRead env row) ∧
    t'.store.tokens = replay t.store.tokens (rows.map .upsert)

/-- The pages `saved` of the stream have been written and their cursors stored, from `p` to `q`, and then
the writes `part` of the next page have been made. -/
structure Advances {ε : Type} (feed : Feed ε) (log : List ε) (env : Surroundings) (p q : ℕ)
    (saved : List EventPage) (part : List Write) (t t' : Cycling) : Prop where
  covers : Covers feed log p saved q
  read : ∀ page ∈ saved, PageRead env page
  within : part = [] ∨ ∃ r page, PageAt feed log q r page ∧ PageRead env page ∧ part <+: page.writes
  tokens : t'.store.tokens = replay t.store.tokens (saved.flatMap EventPage.writes ++ part)
  cursor : t'.store.state.lastCursor = cursorAfter t.store.state.lastCursor saved

/-- How a cycle ends: rows before the pages, and rows after them. -/
def Ends {ε : Type} (feed : Feed ε) (log : List ε) (env : Surroundings) (p q : ℕ) (saved : List EventPage)
    (part : List Write) (t t' : Cycling) : Prop :=
  ∃ t₁ t₂, Backfilled env t t₁ ∧ Advances feed log env p q saved part t₁ t₂ ∧ Backfilled env t₂ t'

section

variable {ε : Type} {feed : Feed ε} {log : List ε} {env : Unreliable Surroundings Rejection}
  {answers : Surroundings} {s s' : Counted Cycling} {t t₁ t' : Cycling} {p q low : ℕ} {page : EventPage}
  {saved : List EventPage} {part : List Write} {rows : List IndexedToken} {cursor : Option String}
  {α β : Type}

/-! ### Rows that are read -/

theorem Backfilled.of_same (hcursor : t'.store.state.lastCursor = t.store.state.lastCursor)
    (htokens : t'.store.tokens = t.store.tokens) : Backfilled answers t t' :=
  ⟨hcursor, [], by simp, htokens⟩

instance : Std.Refl (Backfilled answers) := ⟨fun _ => .of_same rfl rfl⟩

instance : IsTrans Cycling (Backfilled answers) where
  trans _ _ _ h h' := by
    obtain ⟨rows, hrows, htokens⟩ := h.tokens
    obtain ⟨rows', hrows', htokens'⟩ := h'.tokens
    refine ⟨h'.cursor.trans h.cursor, rows ++ rows', fun row hrow => ?_, ?_⟩
    · exact (List.mem_append.mp hrow).elim (hrows row) (hrows' row)
    · rw [htokens', htokens, List.map_append, replay, replay, replay, List.foldl_append]

/-- The environments in which the chain answers so. -/
abbrev Answering (answers : Surroundings) (env : Unreliable Surroundings Rejection) : Prop :=
  env.answers = answers

theorem movesIn_answering {x : CycleM α} (h : Moves (OnState (Backfilled answers)) x) :
    MovesIn (Answering answers) (OnState (Backfilled answers)) x :=
  ⟨fun _ hrun => h.rel hrun⟩

instance {read : ChainReader → α} : Moves (OnState (Backfilled answers)) (ofChain read) :=
  moves_call (fun _ _ t => Std.Refl.refl t) fun _ t => Std.Refl.refl t

instance {read : MemoryTokenStore → α} : Moves (OnState (Backfilled answers)) (ofStore read) :=
  moves_call (fun _ _ t => Std.Refl.refl t) fun _ t => Std.Refl.refl t

instance {f : IngestResult → IngestResult} : Moves (OnState (Backfilled answers)) (assign f) :=
  moves_update fun _ => .of_same rfl rfl

theorem backfilled_saveState {patch : ℤ → IndexerState → IndexerState}
    (hpatch : ∀ now state, (patch now state).lastCursor = state.lastCursor) :
    Moves (OnState (Backfilled answers)) (saveState patch) :=
  moves_call (fun _ _ _ => .of_same (hpatch _ _) rfl) fun _ t => Std.Refl.refl t

instance {indices : List ℕ} : Moves (OnState (Backfilled answers)) (readRows indices) := by
  induction indices with
  | nil => exact Moves.pure
  | cons index indices ih =>
    unfold readRows getTokenByIndex
    infer_instance

theorem returns_ofChain {read : ChainReader → α} {a : α} (h : (ofChain read).Returns env s a s') :
    read (env.answers.chain s.calls) = a := (returns_call.mp h).2.1

/-- A write that rejects has written a part of the rows. -/
theorem throws_writeRows {ws : List Write} {r : Rejection} (h : (writeRows ws).Throws env s r s') :
    s'.state = s.state.performAll (ws.take r.written) := by
  obtain ⟨-, rfl⟩ := throws_call.mp h
  rfl

/-- The rows that are read are what the chain has answered. -/
theorem rowRead_of_readRows {indices : List ℕ} (h : (readRows indices).Returns env s rows s') :
    ∀ row ∈ rows, RowRead env.answers row := by
  induction indices generalizing s rows s' with
  | nil =>
    obtain ⟨rfl, -⟩ := returns_pure.mp h
    exact fun row hrow => absurd hrow List.not_mem_nil
  | cons index indices ih =>
    obtain ⟨token, s₁, htoken, h⟩ := returns_bind.mp h
    obtain ⟨later, s₂, hlater, h⟩ := returns_bind.mp h
    obtain ⟨rfl, -⟩ := returns_pure.mp h
    have hread : (env.answers.chain s.calls).getTokenByIndex index = token := returns_ofChain htoken
    intro row hrow
    rcases List.mem_append.mp hrow with hrow | hrow
    · obtain ⟨found, hfound, rfl⟩ := Option.map_eq_some_iff.mp (Option.mem_toList.mp hrow)
      exact ⟨_, index, found, hread.trans hfound, rfl⟩
    · exact ih hlater row hrow

/-- Rows that have been read are written, all of them or a part. -/
theorem backfilled_upsertTokens (hrows : ∀ row ∈ rows, RowRead answers row) :
    Moves (OnState (Backfilled answers)) (upsertTokens rows) := by
  have hall (t : Cycling) : Backfilled answers t (t.performAll (rows.map .upsert)) :=
    ⟨rfl, rows, hrows, tokens_performAll⟩
  have htaken (r : Rejection) (t : Cycling) :
      Backfilled answers t (t.performAll ((rows.map .upsert).take r.written)) := by
    refine ⟨rfl, rows.take r.written, fun row hrow => hrows row (List.mem_of_mem_take hrow), ?_⟩
    rw [List.map_take]
    exact tokens_performAll
  unfold upsertTokens writeRows
  exact moves_call (fun _ _ t => hall t) htaken

instance {indices : List ℕ} :
    MovesIn (Answering answers) (OnState (Backfilled answers)) (backfillIndices indices) := by
  have hwrite (missing : List ℕ) : MovesIn (Answering answers) (OnState (Backfilled answers))
      (readRows missing >>= fun rows => upsertTokens rows >>= fun _ => pure rows.length) := by
    refine MovesIn.andThenOf (P := fun rows => ∀ row ∈ rows, RowRead answers row) inferInstance ?_ ?_
    · intro env s rows s' he hreturns
      rw [← he]
      exact rowRead_of_readRows hreturns
    · intro rows hrows
      exact .andThen (movesIn_answering (backfilled_upsertTokens hrows)) fun _ => inferInstance
  unfold backfillIndices presentIndices
  infer_instance

instance {tokenCount batches : ℕ} :
    MovesIn (Answering answers) (OnState (Backfilled answers)) (runBackfillBatches tokenCount batches) := by
  induction batches with
  | zero => exact movesIn_answering Moves.pure
  | succ batches ih =>
    unfold runBackfillBatches countTokens
    infer_instance

instance {tokenCount : ℕ} :
    MovesIn (Answering answers) (OnState (Backfilled answers)) (backfillUnlessComplete tokenCount) := by
  unfold backfillUnlessComplete getState runBackfill
  infer_instance

instance {tokenCount : ℕ} :
    MovesIn (Answering answers) (OnState (Backfilled answers)) (reconcile tokenCount) := by
  unfold reconcile countTokens presentIndices
  infer_instance

/-! ### The pages -/

/-- The writes of metadata are made one after another. -/
theorem exists_part_of_applyMetadata {events : List (Option IndexerEvent)} {o : Except Rejection Unit}
    (h : applyMetadata events env s = some (o, s')) :
    ∃ part, part <+: events.reduceOption.filterMap IndexerEvent.metadataWrite ∧
      s'.state = s.state.performAll part := by
  induction events generalizing s with
  | nil =>
    obtain ⟨-, rfl⟩ := Prod.mk.inj (Option.some.inj h)
    exact ⟨[], List.nil_prefix, Cycling.performAll_nil.symm⟩
  | cons event events ih =>
    rcases event with _ | _ | ⟨address, metadataUri⟩
    · exact ih h
    · exact ih h
    · have hsplit : (some (IndexerEvent.metadata address metadataUri) :: events).reduceOption.filterMap
          IndexerEvent.metadataWrite = [.setUri address metadataUri] ++
            events.reduceOption.filterMap IndexerEvent.metadataWrite := rfl
      rw [hsplit]
      rcases ends_bind.mp h with ⟨r, -, hset⟩ | ⟨_, s₁, hset, hrest⟩
      · exact ⟨_, (List.take_prefix r.written _).trans (List.prefix_append _ _), throws_writeRows hset⟩
      · obtain ⟨part, hpart, hs'⟩ := ih hrest
        refine ⟨_, (List.prefix_append_right_inj _).mpr hpart, ?_⟩
        rw [hs', returns_writeRows hset, Cycling.performAll_append]

/-- However the writing of a page ends, a part of its writes is made. -/
theorem exists_part_of_applyPage {o : Except Rejection Unit} (h : applyPage page env s = some (o, s')) :
    ∃ part, part <+: page.writes ∧ s'.state = s.state.performAll part := by
  rcases ends_bind.mp h with ⟨r, -, hcreated⟩ | ⟨_, s₁, hcreated, hmetadata⟩
  · rcases throws_ite.mp hcreated with ⟨-, hpure⟩ | ⟨-, hupsert⟩
    · cases hpure
    · exact ⟨_, (List.take_prefix r.written _).trans (List.prefix_append _ _), throws_writeRows hupsert⟩
  · have hrows : s₁.state = s.state.performAll (page.created.map .upsert) := by
      rcases returns_ite.mp hcreated with ⟨hnone, hpure⟩ | ⟨-, hupsert⟩
      · obtain ⟨-, rfl⟩ := returns_pure.mp hpure
        rw [hnone, List.map_nil, Cycling.performAll_nil]
      · exact returns_writeRows hupsert
    obtain ⟨part, hpart, hs'⟩ := exists_part_of_applyMetadata hmetadata
    refine ⟨page.created.map .upsert ++ part, (List.prefix_append_right_inj _).mpr hpart, ?_⟩
    rw [hs', hrows, Cycling.performAll_append]

theorem Advances.refl (t : Cycling) : Advances feed log answers p p [] [] t t where
  covers := .nil
  read := by simp
  within := .inl rfl
  tokens := rfl
  cursor := rfl

/-- The loop ends within a page. -/
theorem Advances.of_part (hpage : PageAt feed log p q page) (hread : PageRead answers page)
    (hpart : part <+: page.writes) (hcursor : t'.store.state.lastCursor = t.store.state.lastCursor)
    (htokens : t'.store.tokens = replay t.store.tokens part) :
    Advances feed log answers p p [] part t t' where
  covers := .nil
  read := by simp
  within := .inr ⟨q, page, hpage, hread, hpart⟩
  tokens := htokens
  cursor := hcursor

/-- One more page in front. -/
theorem Advances.cons {r : ℕ} (hpage : PageAt feed log p r page) (hread : PageRead answers page)
    (htokens : t₁.store.tokens = replay t.store.tokens page.writes)
    (hcursor : t₁.store.state.lastCursor = page.cursor) (h : Advances feed log answers r q saved part t₁ t') :
    Advances feed log answers p q (page :: saved) part t t' where
  covers := .cons hpage h.covers
  read page' hpage' := by
    rcases List.mem_cons.mp hpage' with rfl | hmem
    · exact hread
    · exact h.read page' hmem
  within := h.within
  tokens := by
    rw [h.tokens, htokens, List.flatMap_cons, List.append_assoc]
    exact (List.foldl_append ..).symm
  cursor := by rw [h.cursor, hcursor, cursorAfter_cons]

/-- **The loop over the pages**, however it ends. -/
theorem advances_of_runPages {pages : ℕ} {lastLedger : Option ℕ} {lastCloseTime : Option ℤ}
    {o : Except Rejection ℕ} (hchain : ∀ n, PagesThrough feed log low (env.answers.chain n))
    (hstart : StartsAt feed log low cursor p)
    (h : runPages cursor lastLedger lastCloseTime pages env s = some (o, s'))
    (hcursor : s.state.store.state.lastCursor = cursor) :
    ∃ q saved part, Advances feed log env.answers p q saved part s.state s'.state := by
  induction pages generalizing s cursor lastLedger lastCloseTime o p with
  | zero =>
    obtain ⟨-, rfl⟩ := Prod.mk.inj (Option.some.inj h)
    exact ⟨p, [], [], .refl _⟩
  | succ pages ih =>
    rcases ends_bind.mp h with ⟨r, -, hread⟩ | ⟨page, s₁, hread, h⟩
    · obtain ⟨-, rfl⟩ := throws_call.mp hread
      exact ⟨p, [], [], .refl _⟩
    · obtain ⟨-, hpage, rfl⟩ := returns_call.mp hread
      dsimp only at hpage h
      have hpageRead : PageRead env.answers page := ⟨s.calls, cursor, hpage.symm⟩
      obtain ⟨q, hat⟩ := (hchain s.calls).exists_pageAt hstart
      rw [hpage] at hat h
      rcases ends_bind.mp h with ⟨r, -, happly⟩ | ⟨_, s₂, happly, h⟩
      · obtain ⟨part, hpart, hs'⟩ := exists_part_of_applyPage happly
        have htokens := congrArg (fun t : Cycling => t.store.tokens) hs'
        have hlast := congrArg (fun t : Cycling => t.store.state.lastCursor) hs'
        exact ⟨p, [], part, .of_part hat hpageRead hpart hlast (htokens.trans tokens_performAll)⟩
      · have hwritten := returns_applyPage happly
        have htokens := (congrArg (fun t : Cycling => t.store.tokens) hwritten).trans tokens_performAll
        have hlast := congrArg (fun t : Cycling => t.store.state.lastCursor) hwritten
        rcases ends_bind.mp h with ⟨r, -, hsave⟩ | ⟨_, s₃, hsave, h⟩
        · -- the page is written in full, and its cursor is not stored
          obtain ⟨-, rfl⟩ := throws_call.mp hsave
          exact ⟨p, [], page.writes, .of_part hat hpageRead (List.prefix_refl _) hlast htokens⟩
        · obtain ⟨-, -, rfl⟩ := returns_call.mp hsave
          dsimp only at h
          split at h
          · obtain ⟨-, rfl⟩ := Prod.mk.inj (Option.some.inj h)
            refine ⟨q, [page], [], .cons hat hpageRead ?_ ?_ (.refl _)⟩
            · exact htokens
            · rfl
          · next hnext =>
            have hrest : ∃ r saved part, Advances feed log env.answers q r saved part
                (s₂.state.setState { s₂.state.store.state with
                  lastCursor := page.cursor
                  lastLedger := page.latestLedger.or lastLedger
                  lastLedgerCloseTime := page.latestLedgerCloseTime.or lastCloseTime }) s'.state := by
              rcases ends_bind.mp h with ⟨r, -, hpages⟩ | ⟨_, s₄, hpages, h⟩
              · exact ih (hat.startsAt hnext) hpages rfl
              · obtain ⟨-, rfl⟩ := Prod.mk.inj (Option.some.inj h)
                exact ih (hat.startsAt hnext) hpages rfl
            obtain ⟨r, saved, part, hrest⟩ := hrest
            refine ⟨r, page :: saved, part, .cons hat hpageRead ?_ ?_ hrest⟩
            · exact htokens
            · rfl

/-! ### A whole cycle -/

/-- A program that writes the pages of a cycle. -/
def Advancing (feed : Feed ε) (log : List ε) (low : ℕ) (x : CycleM α) : Prop :=
  ∀ env s o s' p, (∀ n, PagesThrough feed log low (env.answers.chain n)) →
    StartsAt feed log low s.state.store.state.lastCursor p → x env s = some (o, s') →
    ∃ q saved part, Ends feed log env.answers p q saved part s.state s'.state

theorem Backfilled.ends (h : Backfilled answers t t') : Ends feed log answers p p [] [] t t' :=
  ⟨t', t', h, .refl _, Std.Refl.refl _⟩

theorem Advancing.before {x : CycleM α} {f : α → CycleM β}
    (hx : ∀ answers, MovesIn (Answering answers) (OnState (Backfilled answers)) x)
    (hf : ∀ a, Advancing feed log low (f a)) : Advancing feed log low (x >>= f) := by
  intro env s o s' p hchain hstart h
  have hfirst {o : Except Rejection α} {s₁ : Counted Cycling} (h : x env s = some (o, s₁)) :
      Backfilled env.answers s.state s₁.state := (hx env.answers).rel (rfl : Answering env.answers env) h
  rcases ends_bind.mp h with ⟨r, -, h⟩ | ⟨a, s₁, h, hrest⟩
  · exact ⟨p, [], [], (hfirst h).ends⟩
  · have hbefore := hfirst h
    rw [← hbefore.cursor] at hstart
    obtain ⟨q, saved, part, t₁, t₂, hrows, hpages, hlater⟩ := hf a _ _ _ _ _ hchain hstart hrest
    exact ⟨q, saved, part, t₁, t₂, IsTrans.trans _ _ _ hbefore hrows, hpages, hlater⟩

theorem Advancing.after {x : CycleM α} {f : α → CycleM β} (hx : Advancing feed log low x)
    (hf : ∀ a answers, MovesIn (Answering answers) (OnState (Backfilled answers)) (f a)) :
    Advancing feed log low (x >>= f) := by
  intro env s o s' p hchain hstart h
  rcases ends_bind.mp h with ⟨r, -, h⟩ | ⟨a, s₁, h, hrest⟩
  · exact hx _ _ _ _ _ hchain hstart h
  · obtain ⟨q, saved, part, t₁, t₂, hrows, hpages, hlater⟩ := hx _ _ _ _ _ hchain hstart h
    have hlast : Backfilled env.answers s₁.state s'.state :=
      (hf a env.answers).rel (rfl : Answering env.answers env) hrest
    exact ⟨q, saved, part, t₁, t₂, hrows, hpages, IsTrans.trans _ _ _ hlater hlast⟩

theorem Advancing.guarded {x : CycleM α} {handler : Rejection → CycleM α} (hx : Advancing feed log low x)
    (hhandler : ∀ r answers, MovesIn (Answering answers) (OnState (Backfilled answers)) (handler r)) :
    Advancing feed log low (guarded x handler) := by
  have hattempt : Advancing feed log low x.attempt := by
    intro env s o s' p hchain hstart h
    obtain ⟨⟨o', s₁⟩, hrun, hsame⟩ := Option.map_eq_some_iff.mp h
    obtain ⟨-, rfl⟩ := Prod.mk.inj hsame
    exact hx _ _ _ _ _ hchain hstart hrun
  refine hattempt.after fun o answers => ?_
  cases o with
  | ok a => exact movesIn_answering Moves.pure
  | error r => exact hhandler r answers

/-- The pages of a run advance the cursor over what they have written. -/
theorem advancing_runSteadyState : Advancing feed log low runSteadyState := by
  intro env s o s' p hchain hstart h
  unfold runSteadyState getState ofStore at h
  rcases ends_bind.mp h with ⟨r, -, h⟩ | ⟨state, s₁, hstate, h⟩
  · obtain ⟨-, rfl⟩ := throws_call.mp h
    exact ⟨p, [], [], Backfilled.ends (Std.Refl.refl _)⟩
  · obtain ⟨-, hcursor, rfl⟩ := returns_call.mp hstate
    have hcursor := congrArg IndexerState.lastCursor hcursor
    rw [hcursor] at hstart
    obtain ⟨q, saved, part, hpages⟩ := advances_of_runPages hchain hstart h hcursor
    exact ⟨q, saved, part, _, _, Std.Refl.refl _, hpages, Std.Refl.refl _⟩

theorem advancing_runPhases : Advancing feed log low runPhases := by
  unfold runPhases getTokenCount
  refine .before (fun _ => inferInstance) fun tokenCount => ?_
  refine .before (fun _ => inferInstance) fun _ => .before (fun _ => inferInstance) fun _ => ?_
  refine advancing_runSteadyState.after fun eventsApplied answers => ?_
  exact .andThen inferInstance fun _ => .andThen inferInstance fun indexed =>
    .andThen inferInstance fun _ => inferInstance

theorem advancing_runIngest : Advancing feed log low runIngest := by
  have hcycle : Advancing feed log low runCycle :=
    advancing_runPhases.after fun complete answers => movesIn_answering (backfilled_saveState fun _ _ => rfl)
  have hcatch (err : Rejection) (answers : Surroundings) :
      MovesIn (Answering answers) (OnState (Backfilled answers)) (recordError err) :=
    .andThen inferInstance fun _ => movesIn_answering (backfilled_saveState fun _ _ => rfl)
  exact (hcycle.guarded hcatch).after fun _ answers => movesIn_answering moves_look

/-- **How a cycle ends**, over a chain that pages through the stream. -/
theorem exists_ends_of_runIngest {store : MemoryTokenStore} {o : Except Rejection IngestResult}
    (hchain : ∀ n, PagesThrough feed log low (env.answers.chain n))
    (hstart : StartsAt feed log low store.state.lastCursor p)
    (h : runIngest env (start store) = some (o, s')) :
    ∃ q saved part, Ends feed log env.answers p q saved part (start store).state s'.state :=
  advancing_runIngest _ _ _ _ _ hchain hstart h

/-! ### What a cycle leaves behind -/

/-- The writes of a cycle. -/
theorem Ends.exists_rows (h : Ends feed log answers p q saved part t t') :
    ∃ before after : List IndexedToken, (∀ row ∈ before ++ after, RowRead answers row) ∧
      t'.store.tokens = replay t.store.tokens
        (before.map .upsert ++ (saved.flatMap EventPage.writes ++ part) ++ after.map .upsert) := by
  obtain ⟨t₁, t₂, hbefore, hpages, hafter⟩ := h
  obtain ⟨before, hrows, htokens⟩ := hbefore.tokens
  obtain ⟨after, hrows', htokens'⟩ := hafter.tokens
  refine ⟨before, after, fun row hrow => ?_, ?_⟩
  · exact (List.mem_append.mp hrow).elim (hrows row) (hrows' row)
  · rw [htokens', hpages.tokens, htokens]
    simp only [replay, List.foldl_append]

/-- Behind a cycle there is the cursor of the last page that it has saved. -/
theorem Ends.lastCursor (h : Ends feed log answers p q saved part t t')
    (hcursor : ∀ token ∈ t.store.state.lastCursor, token = feed.pagingToken p) :
    ∀ token ∈ t'.store.state.lastCursor, token = feed.pagingToken q := by
  obtain ⟨t₁, t₂, hbefore, hpages, hafter⟩ := h
  rw [hafter.cursor, hpages.cursor, hbefore.cursor]
  exact hpages.covers.cursorAfter hcursor

/-- A cycle that has saved no page has the cursor that it began with. -/
theorem Ends.lastCursor_of_nil (h : Ends feed log answers p q [] part t t') :
    t'.store.state.lastCursor = t.store.state.lastCursor := by
  obtain ⟨t₁, t₂, hbefore, hpages, hafter⟩ := h
  rw [hafter.cursor, hpages.cursor, hbefore.cursor]
  rfl

/-- The rows that the chain answers for numbers carry no URI. -/
def Bare (answers : Surroundings) : Prop := ∀ row, RowRead answers row → row.metadataUri = none

theorem Reflects.backfilled {c : ℕ} (hbare : Bare answers) (h : Reflects feed log c t.store.tokens)
    (hrows : Backfilled answers t t') : Reflects feed log c t'.store.tokens := by
  obtain ⟨rows, hread, htokens⟩ := hrows.tokens
  rw [htokens]
  exact h.afterRows fun row hrow => hbare row (hread row hrow)

/-- **After a cycle the rows reflect what its saved pages have reached**, wherever it has ended. -/
theorem Reflects.ends (hlog : feed.Ordered log) (hbare : Bare answers)
    (h : Reflects feed log p t.store.tokens) (he : Ends feed log answers p q saved part t t') :
    Reflects feed log q t'.store.tokens := by
  obtain ⟨t₁, t₂, hbefore, hpages, hafter⟩ := he
  have hsaved := (h.backfilled hbare hbefore).afterPages hlog hpages.covers
  have hnext : Reflects feed log q t₂.store.tokens := by
    rw [hpages.tokens, replay, List.foldl_append]
    rcases hpages.within with rfl | ⟨r, page, hat, -, hpart⟩
    · exact hsaved
    · exact hsaved.afterPart hat hpart
  exact hnext.backfilled hbare hafter

/-- A cycle that has written nothing of a page leaves the rows what they were. -/
theorem Reflects.ends_nil {c : ℕ} (hbare : Bare answers) (h : Reflects feed log c t.store.tokens)
    (he : Ends feed log answers p q [] [] t t') : Reflects feed log c t'.store.tokens := by
  obtain ⟨t₁, t₂, hbefore, hpages, hafter⟩ := he
  have hsame : t₂.store.tokens = t₁.store.tokens := hpages.tokens
  have hfirst := h.backfilled hbare hbefore
  rw [← hsame] at hfirst
  exact hfirst.backfilled hbare hafter

end

end StellarForge.Indexer.Interrupted
