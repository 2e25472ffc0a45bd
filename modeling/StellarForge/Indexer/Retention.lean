import StellarForge.Collections.Text
import StellarForge.Indexer.Checkpoints
import StellarForge.Indexer.Undisturbed

/-!
# Readiness and the retention window

A server keeps the events of the factory for a while only.  A cycle without a stored cursor starts at the
first event that is left, so what an index lacks by then it is never told; and a `meta` event that comes
before the row of its token is no use either.  Readiness sees neither.

* `ServedCycle`: a cycle, and which of the events of the factory its pages bring;
* `Brought`: the last cycle that brought metadata of a token said this, and the token had a row by then;
* `uriOf_of_cycle`: what a cycle makes of a URI;
* `uriOf_eq_some_iff_brought`: **the URIs that the rows have are those that were brought**;
* `referenceSet_complete_iff`: **the histories after which a ready store has the current URIs**;
* `not_complete_sampleChain`: a token whose `meta` event is older than the retention window.
-/

namespace StellarForge.Indexer

open Collections Soroban Contract MemoryTokenStore Transition
open Interrupted (Feed PageAt Covers StartsAt ofRpcPage)

/-! ### Cycles with a correct server -/

/-- One cycle: the server that it meets and the store that it finds.  The factory has emitted `size` events
by then, of which the server has dropped the first `dropped`; the pages of the cycle are the events from
`start` to `stop`. -/
structure ServedCycle where
  rpc : SorobanRpc
  before : MemoryTokenStore
  size : ℕ
  dropped : ℕ
  start : ℕ
  stop : ℕ

/-- The cycle is the next step. -/
def ServedCycle.Step (s : Ingesting) (c : ServedCycle) (s' : Ingesting) : Prop :=
  c.before = s.store ∧ Cycle s c.rpc s'

/-- The pages that the cycle applies. -/
def ServedCycle.pages (c : ServedCycle) : List EventPage := delivered c.rpc ⟨c.before, []⟩

/-- The events that its pages bring. -/
def ServedCycle.events {ε : Type} (c : ServedCycle) (log : List ε) : List ε :=
  (log.take c.stop).drop c.start

/-- The chain reader is correct in this cycle: its pages follow one another through the events of the factory,
from behind the stored cursor on, or else from the first event inside the retention window on. -/
structure ServedCycle.Correct {ε : Type} (feed : Feed ε) (log : List ε) (c : ServedCycle) : Prop where
  size_le : c.size ≤ log.length
  stop_le : c.stop ≤ c.size
  starts : StartsAt feed log c.dropped c.before.state.lastCursor c.start
  covers : Covers feed log c.start (c.pages.map ofRpcPage) c.stop

/-- The events of a factory: metadata is set after the creation, and a token is created once. -/
structure FactoryLog {ε : Type} (feed : Feed ε) (log : List ε) : Prop where
  ordered : feed.Ordered log
  once : (log.filterMap feed.creates).Nodup

/-- The token has a row by the time its metadata comes: it was stored before the cycle, or the cycle has
backfilled it, or its creation is among the events. -/
def ServedCycle.RowStored {ε : Type} (feed : Feed ε) (log : List ε) (c : ServedCycle) (a : String) : Prop :=
  (c.before.tokens.find? a).isSome = true ∨
    a ∈ (backfilledRows c.rpc c.before).map IndexedToken.address ∨
    a ∈ (c.events log).filterMap feed.creates

instance {ε : Type} {feed : Feed ε} {log : List ε} {c : ServedCycle} {a : String} :
    Decidable (c.RowStored feed log a) :=
  inferInstanceAs (Decidable (_ ∨ _ ∨ _))

/-- Of the cycles, latest first, the last one that brought metadata of `a` said `u` in the end, and `a` had
a row by then. -/
def Brought {ε : Type} (feed : Feed ε) (log : List ε) (h : List ServedCycle) (a u : String) : Prop :=
  ∃ c ∈ h.find? fun c => (lastValue (feed.uri a) (c.events log)).isSome,
    lastValue (feed.uri a) (c.events log) = some u ∧ c.RowStored feed log a

section

variable {ε : Type} {feed : Feed ε} {log : List ε} {p q : ℕ} {pages : List Interrupted.EventPage}
  {tokens : Keyed IndexedToken.address} {rpc : SorobanRpc} {c : ServedCycle} {h : List ServedCycle}
  {s s' : Ingesting} {a u : String}

/-! ### Pages that follow one another -/

theorem le_of_covers (hpages : Covers feed log p pages q) : p ≤ q := by
  induction hpages with
  | nil => exact le_rfl
  | cons hpage _ ih => exact hpage.le.trans ih

/-- A stretch is its first part and the rest. -/
theorem stretch_append {r : ℕ} (hpq : p ≤ q) (hqr : q ≤ r) :
    (log.take r).drop p = (log.take q).drop p ++ (log.take r).drop q := by
  have htake : log.take r = log.take q ++ (log.take r).drop q := take_eq_append_stretch hqr
  by_cases hlength : q ≤ log.length
  · conv_lhs => rw [htake]
    rw [List.drop_append_of_le_length]
    rw [List.length_take, min_eq_left hlength]
    exact hpq
  · -- the log ends before the second part begins
    have hsame : log.take r = log.take q := by
      rw [List.take_of_length_le (by omega), List.take_of_length_le (by omega)]
    have hnil : (log.take r).drop q = [] := by
      rw [List.drop_eq_nil_iff, List.length_take]
      omega
    rw [hnil, hsame, List.append_nil]

/-- What was created before does not come again. -/
theorem not_created_again (hlog : FactoryLog feed log) {r : ℕ} (hqr : q ≤ r)
    (hcreated : a ∈ (log.take q).filterMap feed.creates) :
    a ∉ ((log.take r).drop q).filterMap feed.creates := by
  have hnodup : ((log.take r).filterMap feed.creates).Nodup :=
    hlog.once.sublist (List.Sublist.filterMap _ (List.take_sublist _ _))
  rw [take_eq_append_stretch hqr, List.filterMap_append, List.nodup_append] at hnodup
  exact fun hagain => hnodup.2.2 a hcreated a hagain rfl

/-- The rows after some pages. -/
theorem isSome_find?_of_covers (hpages : Covers feed log p pages q) :
    ((replay tokens (pages.flatMap Interrupted.EventPage.writes)).find? a).isSome = true ↔
      (tokens.find? a).isSome = true ∨ a ∈ ((log.take q).drop p).filterMap feed.creates := by
  induction hpages generalizing tokens with
  | nil =>
    rw [List.drop_eq_nil_of_le (List.length_take_le _ _)]
    simp [replay]
  | @cons p q r page pages hpage hrest ih =>
    rw [List.flatMap_cons, replay, List.foldl_append]
    refine ih.trans ?_
    rw [show List.foldl Write.apply tokens page.writes = replay tokens page.writes from rfl,
      hpage.isSome_find?_writes, stretch_append hpage.le (le_of_covers hrest), List.filterMap_append,
      List.mem_append, or_assoc]

/-- **The URI of an address after some pages**: the last that they say, if the address has a row then. -/
theorem uriOf_of_covers (hlog : FactoryLog feed log) (hpages : Covers feed log p pages q) :
    uriOf (replay tokens (pages.flatMap Interrupted.EventPage.writes)) a =
      if ((replay tokens (pages.flatMap Interrupted.EventPage.writes)).find? a).isSome = true
      then (lastValue (feed.uri a) ((log.take q).drop p)).or (uriOf tokens a) else uriOf tokens a := by
  induction hpages generalizing tokens with
  | nil =>
    rw [List.drop_eq_nil_of_le (List.length_take_le _ _)]
    simp [replay]
  | @cons p q r page pages hpage hrest ih =>
    have hsplit : replay tokens ((page :: pages).flatMap Interrupted.EventPage.writes) =
        replay (replay tokens page.writes) (pages.flatMap Interrupted.EventPage.writes) := by
      rw [List.flatMap_cons, replay, replay, replay, List.foldl_append]
    rw [hsplit, ih, stretch_append hpage.le (le_of_covers hrest), lastValue_append]
    have hrows : ((replay (replay tokens page.writes)
        (pages.flatMap Interrupted.EventPage.writes)).find? a).isSome = true ↔ _ :=
      isSome_find?_of_covers hrest
    split_ifs with hrow
    · rw [hpage.uriOf_writes]
      split_ifs with hfirst
      · rw [Option.or_assoc]
      · -- the row comes with a later page, so this one says nothing of the address
        have hlater : a ∈ ((log.take r).drop q).filterMap feed.creates :=
          (hrows.mp hrow).resolve_left hfirst
        have hnone : lastValue (feed.uri a) ((log.take q).drop p) = none := by
          rcases hvalue : lastValue (feed.uri a) ((log.take q).drop p) with _ | v
          · rfl
          · exfalso
            refine not_created_again hlog (le_of_covers hrest) (hlog.ordered q a ?_) hlater
            rw [lastValue_take_of_le hpage.le, hvalue, Option.some_or]
            exact Option.some_ne_none v
        rw [hnone, Option.or_none]
    · rw [hpage.uriOf_writes, if_neg fun hfirst => hrow (hrows.mpr (.inl hfirst))]

/-! ### A cycle -/

/-- The pages of a cycle write what they write as pages of a chain reader. -/
theorem pageWrites_delivered : pageWrites (delivered rpc s) =
    ((delivered rpc s).map ofRpcPage).flatMap Interrupted.EventPage.writes := by
  rw [pageWrites, List.flatMap_map]
  apply List.flatMap_congr
  intro page hpage
  have hread : ∃ cursor, getEventPage rpc cursor = .ok page := by
    rw [delivered] at hpage
    split at hpage
    · cases hpage
    · exact exists_of_mem_pagesFrom hpage
  obtain ⟨cursor, hread⟩ := hread
  rw [Interrupted.EventPage.writes, Interrupted.created_ofRpcPage hread,
    Interrupted.reduceOption_ofRpcPage, EventPage.writes]

theorem metadataUri_of_mem_backfillRows {store : MemoryTokenStore} {indices : List ℕ}
    {row : IndexedToken} (hrow : row ∈ backfillRows rpc store indices) : row.metadataUri = none := by
  obtain ⟨i, -, hread⟩ := mem_backfillRows hrow
  exact getTokenByIndex_bare hread

/-- A back-filled row has no URI. -/
theorem metadataUri_of_mem_batchRows {n batches : ℕ} {store : MemoryTokenStore} {row : IndexedToken}
    (hrow : row ∈ batchRows rpc n batches store) : row.metadataUri = none := by
  induction batches generalizing store with
  | zero => cases hrow
  | succ batches ih =>
    rw [batchRows] at hrow
    dsimp only at hrow
    split_ifs at hrow
    · cases hrow
    · cases hrow
    · rcases List.mem_append.mp hrow with hrow | hrow
      · exact metadataUri_of_mem_backfillRows hrow
      · exact ih hrow

theorem metadataUri_of_mem_backfilledRows {store : MemoryTokenStore} {row : IndexedToken}
    (hrow : row ∈ backfilledRows rpc store) : row.metadataUri = none := by
  rw [backfilledRows] at hrow
  split at hrow
  · cases hrow
  · split_ifs at hrow
    · cases hrow
    · exact metadataUri_of_mem_batchRows hrow

/-- What a cycle makes of the rows: the backfill, the pages, and rows of the reconciliation. -/
theorem tokens_of_cycle (hcycle : Cycle s rpc s') : ∃ rows : List IndexedToken,
    (∀ row ∈ rows, row.metadataUri = none) ∧ s'.store.tokens =
      replay (replay (replay s.store.tokens ((backfilledRows rpc s.store).map .upsert))
        (pageWrites (delivered rpc s))) (rows.map .upsert) := by
  obtain ⟨result, hcycle⟩ := hcycle
  rcases result with err | result
  · exact absurd hcycle not_throws_runIngest
  · -- backfill and pages are written before anything can stop the cycle
    have hphase {n : ℕ} {s₁ s₂ : Ingesting} (h : EventPhase rpc n s s₁ s₂) : s₂.store.tokens =
        replay (replay s.store.tokens ((backfilledRows rpc s.store).map .upsert))
          (pageWrites (delivered rpc s)) := by
      rw [h.tokens, h.rows, tokens_performAll]
    cases cycle_cases hcycle with
    | @noCount err hcount hresult hwrites htokens =>
      refine ⟨[], by simp, ?_⟩
      rw [htokens, backfilledRows, delivered, hcount]
      rfl
    | stopped h hpage hresult hwrites htokens =>
      refine ⟨[], by simp, ?_⟩
      rw [htokens, hphase h]
      rfl
    -- the rows of the reconciliation carry no URI
    | @finished n s₁ s₂ h rows hrows hwrites htokens hcount hresult =>
      refine ⟨rows, fun row hrow => ?_, ?_⟩
      · rw [hrows] at hrow
        split_ifs at hrow
        · exact metadataUri_of_mem_backfillRows hrow
        · cases hrow
      · rw [htokens, hphase h]

theorem uriOf_eq_none_of_find?_eq_none (hnone : ¬ (tokens.find? a).isSome = true) :
    uriOf tokens a = none := by
  rw [uriOf, Option.not_isSome_iff_eq_none.mp hnone]
  rfl

/-- **What a cycle makes of a URI**: the last that its events say, if the token has a row by then. -/
theorem uriOf_of_cycle (hlog : FactoryLog feed log) (hcorrect : c.Correct feed log)
    (hstep : ServedCycle.Step s c s') :
    (c.RowStored feed log a → uriOf s'.store.tokens a =
        (lastValue (feed.uri a) (c.events log)).or (uriOf s.store.tokens a)) ∧
      (¬ c.RowStored feed log a → uriOf s'.store.tokens a = none) := by
  obtain ⟨hbefore, hcycle⟩ := hstep
  obtain ⟨rows, hrows, htokens⟩ := tokens_of_cycle hcycle
  have hpages : (delivered c.rpc s).map ofRpcPage = c.pages.map ofRpcPage := by
    rw [ServedCycle.pages, hbefore]
    rfl
  -- the rows when the reconciliation begins, and what they say
  have hstored : ((replay (replay s.store.tokens ((backfilledRows c.rpc s.store).map .upsert))
      (pageWrites (delivered c.rpc s))).find? a).isSome = true ↔ c.RowStored feed log a := by
    rw [pageWrites_delivered, hpages, isSome_find?_of_covers hcorrect.covers,
      Interrupted.isSome_find?_replay_rows, or_assoc, ServedCycle.RowStored, hbefore]
    rfl
  have huri : uriOf s'.store.tokens a = if c.RowStored feed log a
      then (lastValue (feed.uri a) (c.events log)).or (uriOf s.store.tokens a)
      else uriOf s.store.tokens a := by
    rw [htokens, Interrupted.uriOf_replay_rows hrows]
    simp only [← hstored]
    rw [pageWrites_delivered, hpages, uriOf_of_covers hlog hcorrect.covers,
      Interrupted.uriOf_replay_rows fun row => metadataUri_of_mem_backfilledRows]
    rfl
  constructor
  · intro hrow
    rw [huri, if_pos hrow]
  · intro hrow
    rw [huri, if_neg hrow]
    -- a row from before would be one by then
    apply uriOf_eq_none_of_find?_eq_none
    rw [← hbefore]
    exact fun hold => hrow (.inl hold)

/-! ### Any number of cycles -/

theorem not_brought_nil : ¬ Brought feed log [] a u := by
  rintro ⟨c, hc, -⟩
  cases hc

theorem brought_cons_of_none (hnone : lastValue (feed.uri a) (c.events log) = none) :
    Brought feed log (c :: h) a u ↔ Brought feed log h a u := by
  have hskip : (lastValue (feed.uri a) (c.events log)).isSome = false := by rw [hnone, Option.isSome_none]
  rw [Brought, Brought, List.find?_cons, hskip]

theorem brought_cons_of_some {v : String} (hsome : lastValue (feed.uri a) (c.events log) = some v) :
    Brought feed log (c :: h) a u ↔ v = u ∧ c.RowStored feed log a := by
  have htake : (lastValue (feed.uri a) (c.events log)).isSome = true := by rw [hsome, Option.isSome_some]
  rw [Brought, List.find?_cons, htake]
  simp only [Option.mem_some_iff, exists_eq_left', hsome, Option.some.injEq]

/-- **The URIs that the rows have are those that were brought.** -/
theorem uriOf_eq_some_iff_brought (hlog : FactoryLog feed log) (hcorrect : ∀ c ∈ h, c.Correct feed log)
    (hrun : Run ServedCycle.Step .start h s) :
    uriOf s.store.tokens a = some u ↔ Brought feed log h a u := by
  -- by induction on the cycles, the latest first
  induction hrun with
  | nil =>
    have hnone : uriOf Ingesting.start.store.tokens a = none := rfl
    rw [hnone]
    exact iff_of_false (Option.some_ne_none u).symm not_brought_nil
  | @snoc h c s s' _ hstep ih =>
    have hearlier := ih fun c hc => hcorrect c (List.mem_cons_of_mem _ hc)
    obtain ⟨hrow, hno⟩ := uriOf_of_cycle (a := a) hlog (hcorrect c List.mem_cons_self) hstep
    -- a cycle without an event for the token changes its row at most by creating it
    rcases hvalue : lastValue (feed.uri a) (c.events log) with _ | v
    · rw [brought_cons_of_none hvalue, ← hearlier]
      by_cases hstored : c.RowStored feed log a
      · rw [hrow hstored, hvalue, Option.none_or]
      · have hold : ¬ (s.store.tokens.find? a).isSome = true := by
          rw [← hstep.1]
          exact fun hold => hstored (.inl hold)
        rw [hno hstored, uriOf_eq_none_of_find?_eq_none hold]
    · -- with one, the row has that value if it was stored by then
      rw [brought_cons_of_some hvalue]
      by_cases hstored : c.RowStored feed log a
      · rw [hrow hstored, hvalue, Option.some_or, Option.some.injEq, and_iff_left hstored]
      · rw [hno hstored]
        exact iff_of_false (Option.some_ne_none u).symm fun h => hstored h.2

/-- The store has the current URI of every token that has one. -/
def ReferenceSetComplete (currentUri : String → Option String) (s : Ingesting) : Prop :=
  ∀ a u, currentUri a = some u → uriOf s.store.tokens a = some u

/-- **When a ready store has the current URIs**: for every token that has one, the last cycle that brought
metadata of the token said this URI, and the token had a row by then. -/
theorem referenceSet_complete_iff (hlog : FactoryLog feed log) (health : StoreHealth) (now : ℤ)
    (hcorrect : ∀ c ∈ h, c.Correct feed log) (hrun : Run ServedCycle.Step .start h s) :
    ((checkReconciliationReadiness health (.ok s.store.state) now).ready = true →
        ReferenceSetComplete (fun a => lastValue (feed.uri a) log) s) ↔
      ((checkReconciliationReadiness health (.ok s.store.state) now).ready = true →
        ∀ a u, lastValue (feed.uri a) log = some u → Brought feed log h a u) := by
  simp only [ReferenceSetComplete, uriOf_eq_some_iff_brought hlog hcorrect hrun]

end

/-! ### A server with a retention window -/

/-- A factory: its tokens by index, its events with their ledgers, and how many ledgers the server
retains the events of. -/
structure Chain where
  tokens : List (String × TokenInfoView)
  events : List (ℕ × RawEvent)
  latestLedger : ℕ
  retention : ℕ
  now : ℤ

/-- The events that the server still has. -/
def Chain.retained (chain : Chain) : List RawEvent :=
  (chain.events.filter fun event => chain.latestLedger < event.1 + chain.retention).map Prod.snd

/-- A correct server for the factory. -/
def Chain.rpc (chain : Chain) : SorobanRpc where
  tokenCount := .ok chain.tokens.length
  tokenInfo index := if index = 0 then none else chain.tokens[index - 1]?.map Prod.snd
  tokenAddress index := if index = 0 then none else chain.tokens[index - 1]?.map Prod.fst
  tokenIndex address := (chain.tokens.findIdx? fun token => token.1 = address).map (· + 1)
  getEvents start limit :=
    let after := match start with
      | .cursor pagingToken =>
        (chain.retained.dropWhile fun (event : RawEvent) => event.pagingToken ≠ pagingToken).drop 1
      | _ => chain.retained
    .ok { events := after.take limit, latestLedger := some chain.latestLedger }
  startLedger := none
  now := chain.now

/-- What an event tells of the tokens; the event that has `n` before it is marked `n + 1`. -/
def rawFeed : Feed (ℕ × RawEvent) where
  creates event := if event.2.action = "created" then event.2.value.bind (·[0]?) else none
  uri a event :=
    if event.2.action = "meta" then
      event.2.value.bind fun value => if value[0]? = some a then value[1]? else none
    else none
  pagingToken n := toString n
  inj _ _ h := Text.toString_nat_inj h

/-- The durable store is in use. -/
def healthyStore : StoreHealth := ⟨true, true, none⟩

/-- The token's creation. -/
def sampleCreation : ℕ × RawEvent :=
  (100, ⟨"created", some ["CTOKEN", "GCREATOR", "Token", "TOK"], 1700000000000, "1"⟩)

/-- Its metadata, set at a ledger. -/
def sampleMetadata (ledger : ℕ) : ℕ × RawEvent :=
  (ledger, ⟨"meta", some ["CTOKEN", "ipfs://QmDocument"], 1700000005000, "2"⟩)

/-- The factory of the one token; the server keeps a week. -/
def sampleChain (events : List (ℕ × RawEvent)) (latestLedger : ℕ) : Chain where
  tokens := [("CTOKEN", ⟨"Token", "TOK", 7, "GCREATOR", 1700000000⟩)]
  events := events
  latestLedger := latestLedger
  retention := 120960
  now := 1700000005000

theorem factoryLog_sample (ledger : ℕ) : FactoryLog rawFeed [sampleCreation, sampleMetadata ledger] where
  ordered n a ha := by
    rcases n with _ | n
    · exact absurd rfl ha
    · rcases n with _ | n
      · -- the first event sets nothing
        exact absurd rfl ha
      · have htoken : a = "CTOKEN" := by
          by_contra hne
          have hne' : ¬ "CTOKEN" = a := fun h => hne h.symm
          simp [lastValue, rawFeed, sampleCreation, sampleMetadata, hne'] at ha
        rw [htoken]
        exact List.mem_cons_self
  once := by
    show ["CTOKEN"].Nodup
    decide

/-- The row that the backfill inserts. -/
def sampleRow : IndexedToken where
  address := "CTOKEN"
  tokenIndex := 1
  name := "Token"
  symbol := "TOK"
  decimals := 7
  creator := "GCREATOR"
  createdAt := 1700000000
  metadataUri := none
  source := .backfill

/-! ### A token older than the retention window -/

/-- One cycle on a new store; the creation and the metadata are older than a week. -/
def sampleLate : ServedCycle where
  rpc := (sampleChain [sampleCreation, sampleMetadata 101] 500000).rpc
  before := .empty
  size := 2
  dropped := 2
  start := 2
  stop := 2

/-- The store after it. -/
def sampleLateStore : MemoryTokenStore where
  tokens := upsertToken .empty sampleRow
  state :=
    { lastCursor := none
      lastLedger := some 500000
      lastLedgerCloseTime := some 1700000005000
      lastRunAt := some 1700000005000
      lastError := none
      backfillComplete := true }

theorem correct_sampleLate : sampleLate.Correct rawFeed [sampleCreation, sampleMetadata 101] where
  size_le := Nat.le_refl _
  stop_le := Nat.le_refl _
  starts := ⟨Nat.le_refl _, nofun, fun _ => rfl⟩
  covers :=
    .cons ⟨Nat.le_refl _, Nat.le_refl _, rfl, by decide, fun _ => rfl, nofun⟩ .nil

theorem run_sampleLate : Run ServedCycle.Step .start [sampleLate]
    ⟨sampleLateStore, [.upsert sampleRow]⟩ :=
  .snoc .nil ⟨rfl, _, rfl⟩

/-- The cycle backfills the token, the store is ready, and the token's URI is missing. -/
theorem not_complete_sampleChain :
    ¬ ∀ h s, FactoryLog rawFeed [sampleCreation, sampleMetadata 101] →
      (∀ c ∈ h, c.Correct rawFeed [sampleCreation, sampleMetadata 101]) →
      Run ServedCycle.Step .start h s →
      (checkReconciliationReadiness healthyStore (.ok s.store.state) 1700000005000).ready = true →
      ReferenceSetComplete
        (fun a => lastValue (rawFeed.uri a) [sampleCreation, sampleMetadata 101]) s := by
  intro hcomplete
  have hcorrect : ∀ c ∈ [sampleLate],
      c.Correct rawFeed [sampleCreation, sampleMetadata 101] := by
    intro c hc
    rw [List.mem_singleton.mp hc]
    exact correct_sampleLate
  have huri := hcomplete _ _ (factoryLog_sample 101) hcorrect run_sampleLate (by decide) "CTOKEN"
    "ipfs://QmDocument" rfl
  have hnone : uriOf sampleLateStore.tokens "CTOKEN" = none := rfl
  rw [hnone] at huri
  cases huri

/-! ### A token whose row is there in time

The first cycle finds the token just created, the second one its metadata.  By then the creation has left
the retention window, but the row is stored. -/

/-- A run that finds the creation. -/
def sampleFirst : ServedCycle where
  rpc := (sampleChain [sampleCreation] 105).rpc
  before := .empty
  size := 1
  dropped := 0
  start := 0
  stop := 1

/-- The row that the `created` event makes of the backfilled one. -/
def sampleEventRow : IndexedToken := { sampleRow with decimals := 0, source := .event }

/-- The store after it. -/
def sampleFirstStore : MemoryTokenStore where
  tokens := upsertToken (upsertToken .empty sampleRow) sampleEventRow
  state :=
    { lastCursor := none
      lastLedger := some 105
      lastLedgerCloseTime := some 1700000000000
      lastRunAt := some 1700000005000
      lastError := none
      backfillComplete := true }

/-- A run that finds the metadata, long after. -/
def sampleSecond : ServedCycle where
  rpc := (sampleChain [sampleCreation, sampleMetadata 150000] 200000).rpc
  before := sampleFirstStore
  size := 2
  dropped := 1
  start := 1
  stop := 2

/-- The store after it. -/
def sampleSecondStore : MemoryTokenStore where
  tokens := setMetadataUri sampleFirstStore.tokens "CTOKEN" "ipfs://QmDocument"
  state :=
    { lastCursor := none
      lastLedger := some 200000
      lastLedgerCloseTime := some 1700000005000
      lastRunAt := some 1700000005000
      lastError := none
      backfillComplete := true }

theorem correct_sampleFirst : sampleFirst.Correct rawFeed [sampleCreation, sampleMetadata 150000] where
  size_le := by decide
  stop_le := Nat.le_refl _
  starts := ⟨by decide, nofun, fun _ => rfl⟩
  covers := .cons ⟨by decide, by decide, rfl, by decide, fun _ => rfl, nofun⟩ .nil

theorem correct_sampleSecond : sampleSecond.Correct rawFeed [sampleCreation, sampleMetadata 150000] where
  size_le := Nat.le_refl _
  stop_le := Nat.le_refl _
  starts := ⟨by decide, nofun, fun _ => rfl⟩
  covers := by
    refine .cons ⟨by decide, by decide, rfl, by decide, fun a => ?_, nofun⟩ .nil
    show List.filterMap (IndexerEvent.uriFor a) [IndexerEvent.metadata "CTOKEN" "ipfs://QmDocument"] =
      List.filterMap (rawFeed.uri a) [sampleMetadata 150000]
    by_cases ha : "CTOKEN" = a
    · subst ha
      rfl
    · simp [IndexerEvent.uriFor, rawFeed, sampleMetadata, ha]

theorem run_sampleSecond : Run ServedCycle.Step .start [sampleSecond, sampleFirst]
    ⟨sampleSecondStore, [.upsert sampleRow, .upsert sampleEventRow,
      .setUri "CTOKEN" "ipfs://QmDocument"]⟩ :=
  .snoc (.snoc .nil ⟨rfl, _, rfl⟩) ⟨rfl, _, rfl⟩

/-- The second cycle brings the metadata, and the row has been stored by the first. -/
theorem brought_sampleSecond {a u : String}
    (hvalue : lastValue (rawFeed.uri a) [sampleCreation, sampleMetadata 150000] = some u) :
    Brought rawFeed [sampleCreation, sampleMetadata 150000] [sampleSecond, sampleFirst] a u := by
  have htoken : a = "CTOKEN" :=
    List.mem_singleton.mp ((factoryLog_sample 150000).ordered 2 a (by
      show lastValue (rawFeed.uri a) [sampleCreation, sampleMetadata 150000] ≠ none
      rw [hvalue]
      exact Option.some_ne_none u))
  subst htoken
  exact ⟨sampleSecond, rfl, hvalue, .inl rfl⟩

/-- The store is ready, and has the current URI. -/
theorem referenceSet_complete_iff_sampleChain :
    (checkReconciliationReadiness healthyStore (.ok sampleSecondStore.state) 1700000005000).ready = true ∧
      ReferenceSetComplete
        (fun a => lastValue (rawFeed.uri a) [sampleCreation, sampleMetadata 150000])
        ⟨sampleSecondStore, [.upsert sampleRow, .upsert sampleEventRow,
          .setUri "CTOKEN" "ipfs://QmDocument"]⟩ := by
  have hready : (checkReconciliationReadiness healthyStore (.ok sampleSecondStore.state)
      1700000005000).ready = true := by decide
  have hcorrect : ∀ c ∈ [sampleSecond, sampleFirst],
      c.Correct rawFeed [sampleCreation, sampleMetadata 150000] := by
    intro c hc
    rcases List.mem_cons.mp hc with rfl | hc
    · exact correct_sampleSecond
    · rw [List.mem_singleton.mp hc]
      exact correct_sampleFirst
  refine ⟨hready, (referenceSet_complete_iff (factoryLog_sample 150000) healthyStore 1700000005000 hcorrect
    run_sampleSecond).mpr ?_ hready⟩
  intro _ a u hvalue
  exact brought_sampleSecond hvalue

end StellarForge.Indexer
