import StellarForge.Indexer.Completeness
import StellarForge.Indexer.Replay

/-!
# Where the rows come from

Whatever happens to a store, be it a cycle, a crash in the middle of one, or pages that are delivered
again, each of its row writes was made of something that the server has answered.

* `Write.ReadFrom rpc`: the row write was made of an answer of `rpc`;
* `exists_writes_of_step`: **the row writes of a step are made of answers of its server**;
* `uris_replay`: the URIs after some row writes are those before and those that were set.
-/

namespace StellarForge.Indexer

open Collections Soroban Contract MemoryTokenStore Transition

/-- A row write that a cycle may make of the answers of its server. -/
inductive Write.ReadFrom (rpc : SorobanRpc) : Write → Prop
  | backfill {index : ℕ} {token : IndexedToken} (h : getTokenByIndex rpc index = some token) :
    ReadFrom rpc (.upsert token)
  | created {start : EventsStart} {limit : ℕ} {response : EventsResponse} {raw : RawEvent}
    {token : IndexedToken} (hget : rpc.getEvents start limit = .ok response)
    (hraw : raw ∈ response.events) (h : readEvent rpc raw = .ok (some (.created token))) :
    ReadFrom rpc (.upsert token)
  | metadata {start : EventsStart} {limit : ℕ} {response : EventsResponse} {raw : RawEvent}
    {address uri : String} (hget : rpc.getEvents start limit = .ok response)
    (hraw : raw ∈ response.events) (h : readEvent rpc raw = .ok (some (.metadata address uri))) :
    ReadFrom rpc (.setUri address uri)

/-- The server of what happens to a store. -/
def IngestEvent.rpc : IngestEvent → SorobanRpc
  | .cycle rpc | .crash rpc | .replay rpc _ _ => rpc

/-- Row writes made of answers of the server lead from the rows of `s` to those of `s'`. -/
def Wrote (rpc : SorobanRpc) (s s' : Ingesting) : Prop :=
  ∃ ws, s'.writes = s.writes ++ ws ∧ s'.store.tokens = replay s.store.tokens ws ∧
    ∀ w ∈ ws, w.ReadFrom rpc

variable {rpc : SorobanRpc} {s s' s₁ s₂ : Ingesting} {cursor : Option String} {page : EventPage}
  {pages : List EventPage} {n : ℕ} {w : Write} {rows : List IndexedToken}

/-! ### What an event is read as -/

/-- The row of a `created` event. -/
theorem readEvent_eq_created {raw : RawEvent} {token : IndexedToken}
    (h : readEvent rpc raw = .ok (some (.created token))) :
    raw.action = "created" ∧ ∃ value, raw.value = some value ∧ token = {
      address := value[0]?.getD ""
      tokenIndex := (rpc.tokenIndex (value[0]?.getD "")).getD 0
      name := value[2]?.getD ""
      symbol := value[3]?.getD ""
      decimals := 0
      creator := value[1]?.getD ""
      createdAt := raw.ledgerClosedAt / 1000
      metadataUri := none
      source := .event } := by
  -- the one branch of the reader that makes a token
  rw [readEvent] at h
  split at h
  · next haction =>
    split at h
    · cases h
    · next value hvalue =>
      dsimp only at h
      split at h
      · cases h
      · cases h
        exact ⟨haction, value, hvalue, rfl⟩
  · split at h
    · split at h
      · cases h
      · dsimp only at h
        split at h <;> cases h
    · cases h

/-- The address and the URI of a `meta` event. -/
theorem readEvent_eq_metadata {raw : RawEvent} {address uri : String}
    (h : readEvent rpc raw = .ok (some (.metadata address uri))) :
    raw.action = "meta" ∧ ∃ value, raw.value = some value ∧ address = value[0]?.getD "" ∧
      uri = value[1]?.getD "" := by
  rw [readEvent] at h
  -- no other branch makes a URI event
  split at h
  · split at h
    · cases h
    · dsimp only at h
      split at h <;> cases h
  · split at h
    · next haction =>
      split at h
      · cases h
      · next value hvalue =>
        dsimp only at h
        split at h
        · cases h
          exact ⟨haction, value, hvalue, rfl, rfl⟩
        · cases h
    · cases h

/-! ### The writes of a page -/

/-- An event of a page was read from an event of the server. -/
theorem readEvent_of_mem {event : IndexerEvent} (hpage : getEventPage rpc cursor = .ok page)
    (hevent : event ∈ page.events) : ∃ start limit response raw,
      rpc.getEvents start limit = .ok response ∧ raw ∈ response.events ∧
      readEvent rpc raw = .ok (some event) := by
  obtain ⟨response, hget, hread⟩ := exists_of_bind_ok hpage
  obtain ⟨events, hevents, hresult⟩ := exists_of_bind_ok hread
  have hpageEvents : events.filterMap id = page.events := congrArg EventPage.events
    (Except.ok.inj hresult)
  rw [← hpageEvents] at hevent
  obtain ⟨read, hread, rfl⟩ := List.mem_filterMap.mp hevent
  obtain ⟨raw, hraw, h⟩ := exists_of_mem_mapM hevents (some event) hread
  exact ⟨_, _, response, raw, hget, hraw, h⟩

/-- What a page writes has been read from the chain. -/
theorem readFrom_of_page (hpage : getEventPage rpc cursor = .ok page) (hw : w ∈ page.writes) :
    w.ReadFrom rpc := by
  rw [EventPage.writes, List.mem_append] at hw
  rcases hw with hw | hw
  · obtain ⟨token, htoken, rfl⟩ := List.mem_map.mp hw
    obtain ⟨event, hevent, hcreated⟩ := List.mem_filterMap.mp htoken
    cases event with
    | metadata => cases hcreated
    | created row =>
      obtain rfl := Option.some.inj hcreated
      obtain ⟨_, _, _, _, hget, hraw, hread⟩ := readEvent_of_mem hpage hevent
      exact .created hget hraw hread
  · obtain ⟨event, hevent, hwrite⟩ := List.mem_filterMap.mp hw
    cases event with
    | created => cases hwrite
    | metadata address uri =>
      obtain rfl := Option.some.inj hwrite
      obtain ⟨_, _, _, _, hget, hraw, hread⟩ := readEvent_of_mem hpage hevent
      exact .metadata hget hraw hread

theorem readFrom_of_pages {k : ℕ} (hw : w ∈ pageWrites (pagesFrom rpc cursor k)) :
    w.ReadFrom rpc := by
  obtain ⟨page, hpage, hw⟩ := List.mem_flatMap.mp hw
  obtain ⟨_, hread⟩ := exists_of_mem_pagesFrom hpage
  exact readFrom_of_page hread hw

theorem readFrom_of_delivered (hw : w ∈ pageWrites (delivered rpc s)) : w.ReadFrom rpc := by
  rw [delivered] at hw
  split at hw
  · cases hw
  · exact readFrom_of_pages hw

/-! ### The writes of a step -/

/-- Two phases wrote what each of them did. -/
theorem Wrote.trans (h : Wrote rpc s s₁) (h' : Wrote rpc s₁ s₂) : Wrote rpc s s₂ := by
  obtain ⟨ws, hwrites, htokens, hread⟩ := h
  obtain ⟨ws', hwrites', htokens', hread'⟩ := h'
  refine ⟨ws ++ ws', ?_, ?_, fun w hw => ?_⟩
  · rw [hwrites', hwrites, List.append_assoc]
  · rw [htokens', htokens, replay, replay, replay, List.foldl_append]
  · rcases List.mem_append.mp hw with hw | hw
    · exact hread w hw
    · exact hread' w hw

theorem Wrote.of_same (hwrites : s'.writes = s.writes) (htokens : s'.store.tokens = s.store.tokens) :
    Wrote rpc s s' :=
  ⟨[], by rw [hwrites, List.append_nil], htokens, by simp⟩

/-- Rows that were read by their index. -/
theorem Wrote.of_rows (hwrites : s'.writes = s.writes ++ rows.map .upsert)
    (htokens : s'.store.tokens = replay s.store.tokens (rows.map .upsert))
    (hrows : ∀ row ∈ rows, ∃ i, getTokenByIndex rpc i = some row) : Wrote rpc s s' := by
  refine ⟨_, hwrites, htokens, fun w hw => ?_⟩
  obtain ⟨row, hrow, rfl⟩ := List.mem_map.mp hw
  obtain ⟨i, hi⟩ := hrows row hrow
  exact .backfill hi

theorem EventPhase.wrote (h : EventPhase rpc n s s₁ s₂) : Wrote rpc s s₂ := by
  have hsteady : Wrote rpc s₁ s₂ := ⟨_, h.writes, h.tokens, fun w hw => readFrom_of_delivered hw⟩
  rcases h.backfill with rfl | ⟨_, hbackfill⟩
  · exact hsteady
  · obtain ⟨rows, rfl, hrows⟩ := writes_of_backfill hbackfill
    refine Wrote.trans (.of_rows rfl rfl fun row hrow => ?_) hsteady
    obtain ⟨i, -, -, hi⟩ := hrows row hrow
    exact ⟨i, hi⟩

/-- **Whatever a cycle writes has been read from the chain.** -/
theorem wrote_of_cycle {result : IngestResult} (h : CycleOutcome rpc s result s') : Wrote rpc s s' := by
  cases h with
  | noCount _ _ hwrites htokens => exact .of_same hwrites htokens
  | stopped hphase _ _ hwrites htokens => exact hphase.wrote.trans (.of_same hwrites htokens)
  | finished hphase hrows hwrites htokens =>
    refine hphase.wrote.trans (.of_rows hwrites htokens fun row hrow => ?_)
    rw [hrows] at hrow
    split_ifs at hrow
    · obtain ⟨i, -, hi⟩ := mem_backfillRows hrow
      exact ⟨i, hi⟩
    · cases hrow

/-- **The row writes of a step are made of answers of its server**, also when the cycle crashes and when
pages are delivered again. -/
theorem exists_writes_of_step {e : IngestEvent} (h : IngestStep s e s') :
    ∃ ws, s'.store.tokens = replay s.store.tokens ws ∧ ∀ w ∈ ws, w.ReadFrom e.rpc := by
  cases e with
  | cycle rpc =>
    obtain ⟨_, houtcome⟩ := outcome_of_cycle h
    obtain ⟨ws, -, htokens, hread⟩ := wrote_of_cycle houtcome
    exact ⟨ws, htokens, hread⟩
  | crash rpc =>
    obtain ⟨result, s₁, ws, hrun, hprefix, -, htokens⟩ := h
    -- what was written before the crash is a part of what the whole cycle writes
    obtain ⟨_, houtcome⟩ := outcome_of_cycle ⟨result, hrun⟩
    obtain ⟨ws₁, hwrites, -, hread⟩ := wrote_of_cycle houtcome
    rw [hwrites, List.prefix_append_right_inj] at hprefix
    have hsubset := List.IsPrefix.subset hprefix
    exact ⟨ws, htokens, fun w hw => hread w (hsubset hw)⟩
  | replay rpc cursor pages =>
    obtain ⟨-, _, _, _, hpages⟩ := h
    exact ⟨_, (writes_of_pages hpages).2, fun w hw => readFrom_of_pages hw⟩

/-! ### The URIs of the rows -/

/-- No row that is written has a URI. -/
theorem Write.ReadFrom.bare {token : IndexedToken} (h : (Write.upsert token).ReadFrom rpc) :
    token.metadataUri = none := by
  cases h with
  | backfill hread => exact getTokenByIndex_bare hread
  | created _ _ hread => exact (readEvent_created hread).1

/-- The URIs after some writes are those before, those of written rows and those that were set. -/
theorem uris_replay {U : String → String → Prop} {tokens : Keyed IndexedToken.address}
    {ws : List Write} (h : Rows (fun row => ∀ uri ∈ row.metadataUri, U row.address uri) tokens)
    (hbare : BareRows ws) (hset : ∀ address uri, .setUri address uri ∈ ws → U address uri) :
    Rows (fun row => ∀ uri ∈ row.metadataUri, U row.address uri) (replay tokens ws) := by
  induction ws using List.reverseRecOn with
  | nil => exact h
  | append_singleton ws w ih =>
    have hbefore := ih (fun token hmem => hbare token (List.mem_append_left _ hmem))
      fun address uri hmem => hset address uri (List.mem_append_left _ hmem)
    have hlast : w ∈ ws ++ [w] := List.mem_append_right _ (List.mem_singleton_self w)
    rw [replay_concat]
    cases w with
    -- the stored URI survives an upsert without one
    | upsert token =>
      refine rows_set hbefore fun uri huri => ?_
      have hnone : token.metadataUri = none := hbare token hlast
      rw [hnone, Option.none_or] at huri
      obtain ⟨existing, hfind, huri⟩ := Option.bind_eq_some_iff.mp huri
      have hkey : existing.address = token.address := Keyed.key_of_find? hfind
      show U token.address uri
      rw [← hkey]
      exact hbefore existing (Keyed.find?_eq_some.mp hfind).1 uri huri
    -- only a row that exists gets the new URI
    | setUri address uri =>
      rw [Write.apply, setMetadataUri]
      rcases hfind : (replay tokens ws).find? address with _ | existing
      · exact hbefore
      · have hkey : existing.address = address := Keyed.key_of_find? hfind
        refine rows_set hbefore fun uri' huri' => ?_
        obtain rfl := Option.some.inj huri'
        show U existing.address uri
        rw [hkey]
        exact hset address uri hlast

end StellarForge.Indexer
