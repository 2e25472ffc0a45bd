import StellarForge.Indexer.Cycles

/-!
# Replayed pages

Pages of events are delivered at least once: after a crash, and whenever the cursor was reset at the
head of the stream, pages that were applied before are applied again.  Each write is an idempotent
upsert, but the pages of a range are not all the writes there were.

* `find?_replay`: the row of an address after a list of writes;
* `rowsKept_iff`: the pages after which every row is as good as before;
* `replaysKept_iff`: **the histories whose replays keep every row**;
* `not_replaysKept_sampleStream`: the first page of a stream whose second page has the newer URI.
-/

namespace StellarForge.Indexer

open Collections Soroban Contract MemoryTokenStore Transition

/-! ### What a replay must not do -/

/-- The row is what it was, or an index that had not been resolved is resolved. -/
def Kept (row row' : IndexedToken) : Prop :=
  row' = row ∨ row.tokenIndex = 0 ∧ row' = { row with tokenIndex := row'.tokenIndex }

/-- Every row is as good as before. -/
def RowsKept (s s' : Ingesting) : Prop :=
  ∀ row ∈ s.store.tokens.records,
    ∃ row' ∈ s'.store.tokens.records, row'.address = row.address ∧ Kept row row'

/-- The events of the pages have been applied, up to the index that was looked up. -/
def AlreadyApplied (s : Ingesting) (pages : List EventPage) : Prop :=
  ∀ page ∈ pages, ∀ event ∈ page.events, match event with
    | .created token => ∃ i, Write.upsert { token with tokenIndex := i } ∈ s.writes
    | .metadata address uri => Write.setUri address uri ∈ s.writes

/-- What happens to a store: a cycle, a cycle that crashed, or a range of pages that is delivered again,
from any cursor, with whatever the server answers by then. -/
inductive IngestEvent
  | cycle (rpc : SorobanRpc)
  | crash (rpc : SorobanRpc)
  | replay (rpc : SorobanRpc) (cursor : Option String) (pages : ℕ)

/-- A crashed cycle performed some of its row writes; which checkpoint it had saved is left open. -/
def Crashed (s : Ingesting) (rpc : SorobanRpc) (s' : Ingesting) : Prop :=
  ∃ result s₁ ws, runIngest rpc s = some (result, s₁) ∧ s.writes ++ ws <+: s₁.writes ∧
    s'.writes = s.writes ++ ws ∧ s'.store.tokens = replay s.store.tokens ws

/-- The pages of a range are applied again. -/
def Replayed (s : Ingesting) (rpc : SorobanRpc) (cursor : Option String) (pages : ℕ)
    (s' : Ingesting) : Prop :=
  AlreadyApplied s (pagesFrom rpc cursor pages) ∧ ∃ lastLedger lastCloseTime r,
    runPages cursor lastLedger lastCloseTime pages rpc s = some (r, s')

/-- A run, a crash, or a second delivery of pages. -/
def IngestStep (s : Ingesting) : IngestEvent → Ingesting → Prop
  | .cycle rpc, s' => Cycle s rpc s'
  | .crash rpc, s' => Crashed s rpc s'
  | .replay rpc cursor pages, s' => Replayed s rpc cursor pages s'

/-- Every replay of the history keeps every row. -/
def ReplaysKept (h : List IngestEvent) : Prop :=
  ∀ earlier later rpc cursor pages s s', h = later ++ .replay rpc cursor pages :: earlier →
    Run IngestStep .start earlier s → Replayed s rpc cursor pages s' → RowsKept s s'

/-- The row of the last `created` event for the address. -/
def lastCreated (pages : List EventPage) (a : String) : Option IndexedToken :=
  ((pages.flatMap fun page => createdTokens page.events).filter fun token =>
    token.address = a).getLast?

/-- The URI that a `meta` event sets for the address. -/
def IndexerEvent.uriFor (a : String) : IndexerEvent → Option String
  | .metadata address uri => if address = a then some uri else none
  | .created _ => none

/-- The URI of the last `meta` event for the address. -/
def lastUri (pages : List EventPage) (a : String) : Option String :=
  (pages.flatMap fun page => page.events.filterMap (IndexerEvent.uriFor a)).getLast?

/-- The last events of every stored token say what its row says. -/
def Agrees (s : Ingesting) (pages : List EventPage) : Prop :=
  ∀ row ∈ s.store.tokens.records,
    (∀ token, lastCreated pages row.address = some token →
      Kept row { token with metadataUri := row.metadataUri }) ∧
    ∀ uri, lastUri pages row.address = some uri → row.metadataUri = some uri

/-- The pages of every replay of the history agree with the rows. -/
def ReplaysAgree (h : List IngestEvent) : Prop :=
  ∀ earlier later rpc cursor pages s, h = later ++ .replay rpc cursor pages :: earlier →
    Run IngestStep .start earlier s → AlreadyApplied s (pagesFrom rpc cursor pages) →
    Agrees s (pagesFrom rpc cursor pages)

section

variable {tokens : Keyed IndexedToken.address} {rpc : SorobanRpc} {s s' : Ingesting}
  {ws : List Write} {pages : List EventPage} {row token : IndexedToken} {a : String}

/-! ### The row of an address -/

/-- The row that an upsert of the address writes. -/
def Write.upserted (a : String) : Write → Option IndexedToken
  | .upsert token => if token.address = a then some token else none
  | .setUri .. => none

/-- The URI that a write sets for the address. -/
def Write.uriFor (a : String) : Write → Option String
  | .setUri address uri => if address = a then some uri else none
  | .upsert _ => none

/-- The row of the last upsert of the address. -/
def lastUpsert (ws : List Write) (a : String) : Option IndexedToken :=
  (ws.filterMap (Write.upserted a)).getLast?

/-- The URI that the address was last set to. -/
def lastSetUri (ws : List Write) (a : String) : Option String :=
  (ws.filterMap (Write.uriFor a)).getLast?

theorem find?_setMetadataUri_of_ne {address uri : String} (hne : address ≠ a) :
    (setMetadataUri tokens address uri).find? a = tokens.find? a := by
  rw [setMetadataUri]
  rcases hfind : tokens.find? address with _ | existing
  · rfl
  · have hkey : existing.address = address := Keyed.key_of_find? hfind
    show (tokens.set { existing with metadataUri := some uri }).find? a = tokens.find? a
    rw [Keyed.find?_set, if_neg]
    show a ≠ existing.address
    rw [hkey]
    exact hne.symm

/-- The row of a stored address after some writes: the last upsert, with the last URI. -/
theorem find?_replay (hbare : BareRows ws) (hrow : tokens.find? a = some row) :
    (replay tokens ws).find? a = some
      { (lastUpsert ws a).getD row with metadataUri := (lastSetUri ws a).or row.metadataUri } := by
  -- the writes from the last one back: it decides the row, the earlier ones by induction
  induction ws using List.reverseRecOn with
  | nil => simpa [replay, lastUpsert, lastSetUri] using hrow
  | append_singleton ws w ih =>
    have hbefore := ih fun token hmem => hbare token (List.mem_append_left _ hmem)
    rw [replay_concat]
    cases w with
    -- an upsert without a URI keeps the one that is stored
    | upsert token =>
      have hnone : token.metadataUri = none :=
        hbare token (List.mem_append_right _ (List.mem_singleton_self _))
      rw [Write.apply, upsertToken, Keyed.find?_set]
      by_cases ha : token.address = a
      · subst ha
        simp [hbefore, hnone, lastUpsert, lastSetUri, Write.upserted, Write.uriFor]
      · rw [if_neg fun h => ha h.symm, hbefore]
        simp [ha, lastUpsert, lastSetUri, Write.upserted, Write.uriFor]
    -- a URI is set on the row that exists
    | setUri address uri =>
      rw [Write.apply]
      by_cases ha : address = a
      · subst ha
        have hkey := Keyed.key_of_find? hbefore
        rw [setMetadataUri, hbefore]
        show ((replay tokens ws).set _).find? address = _
        rw [Keyed.find?_set, if_pos hkey.symm]
        simp [lastUpsert, lastSetUri, Write.upserted, Write.uriFor]
      · rw [find?_setMetadataUri_of_ne ha, hbefore]
        simp [ha, lastUpsert, lastSetUri, Write.upserted, Write.uriFor]

/-! ### The events of the pages -/

/-- The upserts of a page are its `created` events. -/
theorem upserts_writes (page : EventPage) :
    page.writes.filterMap (Write.upserted a) =
      (createdTokens page.events).filter fun token => token.address = a := by
  have hmeta : (page.events.filterMap IndexerEvent.metadataWrite).filterMap (Write.upserted a) =
      [] := by
    rw [List.filterMap_eq_nil_iff]
    intro w hw
    obtain ⟨event, -, heq⟩ := List.mem_filterMap.mp hw
    cases event <;> cases heq
    rfl
  rw [EventPage.writes, List.filterMap_append, hmeta, List.append_nil, List.filterMap_map,
    ← List.filterMap_eq_filter]
  congr 1
  funext token
  simp [Write.upserted, Option.guard]

/-- The URIs that the writes of a page set are those of its `meta` events. -/
theorem setUris_writes (page : EventPage) :
    page.writes.filterMap (Write.uriFor a) = page.events.filterMap (IndexerEvent.uriFor a) := by
  have hcreated : ((createdTokens page.events).map Write.upsert).filterMap (Write.uriFor a) =
      [] := by
    rw [List.filterMap_eq_nil_iff]
    intro w hw
    obtain ⟨token, -, rfl⟩ := List.mem_map.mp hw
    rfl
  rw [EventPage.writes, List.filterMap_append, hcreated, List.nil_append, List.filterMap_filterMap]
  congr 1
  funext event
  cases event <;> rfl

theorem lastUpsert_pageWrites : lastUpsert (pageWrites pages) a = lastCreated pages a := by
  rw [lastUpsert, lastCreated, pageWrites, List.filterMap_flatMap, List.filter_flatMap]
  simp only [upserts_writes]

theorem lastSetUri_pageWrites : lastSetUri (pageWrites pages) a = lastUri pages a := by
  rw [lastSetUri, lastUri, pageWrites, List.filterMap_flatMap]
  simp only [setUris_writes]

theorem bareRows_pagesFrom {cursor : Option String} {k : ℕ} :
    BareRows (pageWrites (pagesFrom rpc cursor k)) := by
  intro token hmem
  obtain ⟨page, hpage, htoken⟩ := mem_pageWrites_upsert.mp hmem
  obtain ⟨cursor, hread⟩ := exists_of_mem_pagesFrom hpage
  exact createdTokens_bare hread token htoken

/-- The row after a replay is as good as before when both of its parts are. -/
theorem kept_merge {created : Option IndexedToken} {uri : Option String} :
    Kept row { created.getD row with metadataUri := uri.or row.metadataUri } ↔
      (∀ token, created = some token → Kept row { token with metadataUri := row.metadataUri }) ∧
        ∀ u, uri = some u → row.metadataUri = some u := by
  constructor
  · intro h
    -- the merged URI is the one of the row, whichever part it comes from
    have huri : uri.or row.metadataUri = row.metadataUri := by
      rcases h with h | ⟨-, h⟩
      · exact congrArg IndexedToken.metadataUri h
      · exact congrArg IndexedToken.metadataUri h
    rw [huri] at h
    refine ⟨fun token htoken => ?_, fun u hu => ?_⟩
    · rwa [htoken] at h
    · rw [hu] at huri
      exact huri.symm
  · -- a URI that was written again is the one already there
    rintro ⟨hcreated, huri⟩
    have huri : uri.or row.metadataUri = row.metadataUri := by
      rcases uri with _ | u
      · rfl
      · exact (huri u rfl).symm
    rw [huri]
    rcases created with _ | token
    · exact .inl rfl
    · exact hcreated token rfl

/-- A replay keeps every row when the last events of every stored token say what its row says. -/
theorem rowsKept_iff {cursor : Option String} {lastLedger : Option ℕ} {lastCloseTime : Option ℤ}
    {k : ℕ} {r : Except String ℕ}
    (h : runPages cursor lastLedger lastCloseTime k rpc s = some (r, s')) :
    RowsKept s s' ↔ Agrees s (pagesFrom rpc cursor k) := by
  obtain ⟨-, htokens⟩ := writes_of_pages h
  -- the row of a stored address after the replay
  have hafter : ∀ row ∈ s.store.tokens.records, s'.store.tokens.find? row.address = some
      { (lastCreated (pagesFrom rpc cursor k) row.address).getD row with
        metadataUri := (lastUri (pagesFrom rpc cursor k) row.address).or row.metadataUri } := by
    intro row hrow
    have hfind : s.store.tokens.find? row.address = some row := Keyed.find?_eq_some.mpr ⟨hrow, rfl⟩
    rw [htokens, find?_replay bareRows_pagesFrom hfind, lastUpsert_pageWrites,
      lastSetUri_pageWrites]
  constructor
  · intro hkept row hrow
    obtain ⟨row', hrow', haddress, hrow'kept⟩ := hkept row hrow
    have hfind : s'.store.tokens.find? row.address = some row' :=
      Keyed.find?_eq_some.mpr ⟨hrow', haddress⟩
    obtain rfl := Option.some.inj ((hafter row hrow).symm.trans hfind)
    exact kept_merge.mp hrow'kept
  · intro hagrees row hrow
    refine ⟨_, (Keyed.find?_eq_some.mp (hafter row hrow)).1,
      (Keyed.find?_eq_some.mp (hafter row hrow)).2, ?_⟩
    exact kept_merge.mpr (hagrees row hrow)

/-- **The histories whose replays keep every row.** -/
theorem replaysKept_iff {h : List IngestEvent} : ReplaysKept h ↔ ReplaysAgree h := by
  constructor
  · intro hkept earlier later rpc cursor pages s heq hrun happlied
    have hends : runPages cursor none none pages rpc s ≠ none := not_traps_runPages
    obtain ⟨⟨r, s'⟩, hpages⟩ := Option.ne_none_iff_exists'.mp hends
    apply (rowsKept_iff hpages).mp
    exact hkept earlier later rpc cursor pages s s' heq hrun ⟨happlied, none, none, r, hpages⟩
  · rintro hagree earlier later rpc cursor pages s s' heq hrun
      ⟨happlied, lastLedger, lastCloseTime, r, hpages⟩
    apply (rowsKept_iff hpages).mpr
    exact hagree earlier later rpc cursor pages s heq hrun happlied

end

/-! ### The first page of a stream -/

/-- An event that the indexer does not use. -/
def sampleMinted (i : ℕ) : RawEvent := ⟨"mint", none, 1700000000000 + i, "100-m"⟩

/-- A stream of two pages: the token and its first URI, and then its second one. -/
def sampleStream : SorobanRpc where
  tokenCount := .ok 1
  tokenInfo _ := some ⟨"Token", "TOK", 0, "GCREATOR", 1700000000⟩
  tokenAddress i := if i = 1 then some "CTOKEN" else none
  tokenIndex a := if a = "CTOKEN" then some 1 else none
  getEvents
    | .cursor _, _ => .ok ⟨[⟨"meta", some ["CTOKEN", "ipfs://second"], 1700000200000, "101-1"⟩],
        some 200⟩
    | _, _ => .ok ⟨⟨"created", some ["CTOKEN", "GCREATOR", "Token", "TOK"], 1700000000000, "100-1"⟩ ::
        ⟨"meta", some ["CTOKEN", "ipfs://first"], 1700000000000, "100-2"⟩ ::
        (List.range 98).map sampleMinted, some 200⟩
  startLedger := none
  now := 1700000300000

/-- The row that the stream's `created` event inserts. -/
def sampleCreated : IndexedToken where
  address := "CTOKEN"
  tokenIndex := 1
  name := "Token"
  symbol := "TOK"
  decimals := 0
  creator := "GCREATOR"
  createdAt := 1700000000
  metadataUri := none
  source := .event

/-- The first page brings the first URI back. -/
theorem not_replaysKept_sampleStream :
    ¬ ReplaysKept [.replay sampleStream none 1, .cycle sampleStream] := by
  intro hsafe
  -- one cycle, then its first page once more
  obtain ⟨result, s, r, s', hcycle, hpages, hwrites, hbefore, hafter⟩ : ∃ result s r s',
      runIngest sampleStream .start = some (result, s) ∧
      runPages none none none 1 sampleStream s = some (r, s') ∧
      s.writes.tail = [.upsert sampleCreated, .setUri "CTOKEN" "ipfs://first",
        .setUri "CTOKEN" "ipfs://second"] ∧
      s.store.tokens.records.map IndexedToken.metadataUri = [some "ipfs://second"] ∧
      s'.store.tokens.records.map IndexedToken.metadataUri = [some "ipfs://first"] :=
    ⟨_, _, _, _, rfl, rfl, rfl, rfl, rfl⟩
  have hrun : Run IngestStep .start [.cycle sampleStream] s := Run.snoc .nil ⟨result, hcycle⟩
  -- every event of that page had been applied
  have happlied : AlreadyApplied s (pagesFrom sampleStream none 1) := by
    intro page hpage event hevent
    have hevents : (pagesFrom sampleStream none 1).flatMap EventPage.events =
        [.created sampleCreated, .metadata "CTOKEN" "ipfs://first"] := rfl
    have hmem : event ∈ [.created sampleCreated, .metadata "CTOKEN" "ipfs://first"] :=
      hevents ▸ List.mem_flatMap.mpr ⟨page, hpage, hevent⟩
    simp only [List.mem_cons, List.not_mem_nil, or_false] at hmem
    rcases hmem with rfl | rfl
    · refine ⟨1, List.mem_of_mem_tail ?_⟩
      rw [hwrites]
      exact List.mem_cons_self ..
    · apply List.mem_of_mem_tail
      rw [hwrites]
      simp
  -- the row kept the newer URI before, and has the older one after
  have hkept := hsafe [.cycle sampleStream] [] sampleStream none 1 s s' rfl hrun
    ⟨happlied, none, none, r, hpages⟩
  obtain ⟨row, hrow, huri⟩ : ∃ row ∈ s.store.tokens.records,
      row.metadataUri = some "ipfs://second" := by
    apply List.mem_map.mp
    rw [hbefore]
    exact List.mem_singleton_self _
  obtain ⟨row', hrow', -, h⟩ := hkept row hrow
  have huri' : row'.metadataUri ∈ s'.store.tokens.records.map IndexedToken.metadataUri :=
    List.mem_map.mpr ⟨row', hrow', rfl⟩
  have hsame : row'.metadataUri = row.metadataUri := by
    rcases h with h | ⟨-, h⟩
    · rw [h]
    · rw [h]
  rw [hafter, List.mem_singleton, hsame, huri] at huri'
  exact absurd huri' (by decide)

end StellarForge.Indexer
