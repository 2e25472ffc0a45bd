import StellarForge.Collections.Keyset
import StellarForge.Collections.Text
import StellarForge.Indexer.StoreAgreement

/-!
# Paging through the events of a token

A caller follows `nextCursor` from the first page of `listEvents` on.  The rows are ordered by ledger and
topic, and keyed by ledger and topic; the cursor is a ledger.

* `serves_events`: the pages of either store are those of keyset pagination;
* `pagesLosslessly_iff`: **every event is visited exactly once if and only if no two of them share their
  ledger and topic, and no page ends inside a ledger**;
* `not_pagesLosslessly_sampleEvents`: two events of one ledger, one event a page.
-/

namespace StellarForge.Indexer

open Collections MemoryStore PostgresStore

variable {P : Type} {tokenAddress : String} {limit : ℤ}

/-! ### Following the cursor -/

/-- `Number(text)`, for a text of decimal digits. -/
def number (text : String) : ℕ := Text.decimal text.toList

theorem number_toString (n : ℕ) : number (toString n) = n := by
  show Text.decimal (Nat.repr n).toList = n
  rw [Nat.toList_repr, Text.decimal_toDigits]

/-- The rows of a listing, and its cursor. -/
def Listing.page {α : Type} (listing : Listing α) : Page String α :=
  ⟨listing.rows, listing.nextCursor⟩

theorem page_listing {α : Type} (cursorOf : α → ℕ) (k : ℕ) (rows : List α) :
    (listing cursorOf k rows).page = Page.first (fun n : ℕ => toString n) cursorOf k rows := rfl

theorem pageLimit_pos (limit : ℤ) : 0 < pageLimit limit := by
  have h : 1 ≤ min (max limit 1) MAX_PAGE_LIMIT :=
    le_min (le_max_right ..) (by decide)
  rw [pageLimit]
  omega

/-- The page of events that an answer is. -/
def Answer.eventPage : Answer P → Option (Page String (StoredEvent P))
  | .events listing => some listing.page
  | _ => none

/-- The request for the events from a `nextCursor` on. -/
def eventsFrom (tokenAddress : String) (limit : ℤ) (cursor : Option String) : StoreOp P :=
  .listEvents { tokenAddress, cursor := cursor.map fun text => (number text : ℤ), limit }

/-- The pages of events that a store answers, which does not change. -/
def eventPages (answer : StoreOp P → Option (Answer P)) (tokenAddress : String) (limit : ℤ) :
    ℕ → Option String → Option (Page String (StoredEvent P)) :=
  fun _ cursor => (answer (eventsFrom tokenAddress limit cursor)).bind Answer.eventPage

/-- Following the cursor from the first page on ends, visits every one of the events exactly once, and
goes down the ledgers. -/
def PagesLosslessly (answer : StoreOp P → Option (Answer P)) (tokenAddress : String) (limit : ℤ)
    (events : List (StoredEvent P)) : Prop :=
  ∃ pages, Walk (eventPages answer tokenAddress limit) 0 none pages ∧ pages.flatten.Perm events ∧
    pages.flatten.Pairwise fun a b => b.ledgerSeq ≤ a.ledgerSeq

/-- The options of a request from a ledger on. -/
def optionsFrom (tokenAddress : String) (limit : ℤ) (cursor : Option ℕ) : ListEventsOptions where
  tokenAddress := tokenAddress
  cursor := cursor.map fun ledger : ℕ => (ledger : ℤ)
  limit := limit

theorem eventsFrom_map (cursor : Option ℕ) :
    (eventsFrom tokenAddress limit (cursor.map fun n : ℕ => toString n) : StoreOp P) =
      .listEvents (optionsFrom tokenAddress limit cursor) := by
  cases cursor with
  | none => rfl
  | some n =>
    show StoreOp.listEvents _ = _
    rw [Option.map_map, Option.map_some, Function.comp_apply, number_toString]
    rfl

/-! ### The rows of a listing -/

section

variable {le : Collation} {events : List (StoredEvent P)} {event : StoredEvent P}
  {options : ListEventsOptions}

theorem mem_eventRows : event ∈ eventRows le events options ↔
    event ∈ events ∧ event.tokenAddress = options.tokenAddress ∧
      below options.cursor event.ledgerSeq = true := by
  rw [eventRows, List.mem_mergeSort, List.mem_filter, List.mem_filter, decide_eq_true_iff, and_assoc]

/-- A listing of events begins with the latest ones. -/
theorem sorted_eventRows : (eventRows le events options).Pairwise fun a b =>
    b.ledgerSeq ≤ a.ledgerSeq := by
  apply pairwise_mergeSort
  · intro a b h
    rw [StoredEvent.before, Bool.or_eq_true, Bool.and_eq_true, decide_eq_true_iff,
      decide_eq_true_iff] at h
    rcases h with h | ⟨h, -⟩
    · exact h.le
    · exact h.le
  · intro a b h
    rw [StoredEvent.before, Bool.or_eq_true, decide_eq_true_iff, not_or] at h
    exact not_lt.mp h.1

/-- The rows beneath a ledger are those of the listing without a cursor. -/
theorem eventRows_perm_filter {cursor : Option ℕ} {n : ℕ} (hle : ∀ m ∈ cursor, n ≤ m) :
    (eventRows le events (optionsFrom tokenAddress limit (some n))).Perm
      ((eventRows le events (optionsFrom tokenAddress limit cursor)).filter fun event =>
        event.ledgerSeq < n) := by
  have hbelow (event : StoredEvent P) :
      below (optionsFrom tokenAddress limit (some n)).cursor event.ledgerSeq =
        (decide (event.ledgerSeq < n) &&
          below (optionsFrom tokenAddress limit cursor).cursor event.ledgerSeq) := by
    rcases cursor with _ | m
    · simp [below, optionsFrom]
    · have hm := hle m rfl
      by_cases hlt : event.ledgerSeq < n
      · simp [below, optionsFrom, hlt, hlt.trans_le hm]
      · simp [below, optionsFrom, hlt]
  rw [eventRows, eventRows]
  apply (List.mergeSort_perm _ _).trans
  refine List.Perm.trans ?_ ((List.mergeSort_perm _ _).filter _).symm
  simp only [hbelow]
  rw [← List.filter_filter]
  exact List.Perm.refl _

/-! ### The walk -/

variable {answer : StoreOp P → Option (Answer P)}

/-- The store answers the listings that start from a ledger of one of the events by their rows. -/
def AnswersRows (answer : StoreOp P → Option (Answer P)) (le : Collation)
    (events : List (StoredEvent P)) (tokenAddress : String) (limit : ℤ) : Prop :=
  ∀ cursor : Option ℕ, (∀ n ∈ cursor, ∃ event ∈ events, event.ledgerSeq = n) →
    answer (.listEvents (optionsFrom tokenAddress limit cursor)) =
      some (.events (listing StoredEvent.ledgerSeq (pageLimit limit)
        (eventRows le events (optionsFrom tokenAddress limit cursor))))

/-- The pages are those of keyset pagination over the ledgers. -/
theorem serves_events (h : AnswersRows answer le events tokenAddress limit) :
    Serves (fun n : ℕ => toString n) StoredEvent.ledgerSeq (pageLimit limit)
      (fun _ cursor => eventRows le events (optionsFrom tokenAddress limit cursor))
      (eventPages answer tokenAddress limit) where
  size_pos := pageLimit_pos limit
  sorted _ _ := sorted_eventRows
  beneath _ n event hmem := by
    have hbelow := (mem_eventRows.mp hmem).2.2
    simpa [below, optionsFrom] using hbelow
  fetch_eq {i c} hc := by
    rw [eventPages, eventsFrom_map, h c]
    · rfl
    · intro n hn
      cases hc with
      | first => cases hn
      | next _ hz =>
        obtain rfl := Option.some.inj hn
        exact ⟨_, (mem_eventRows.mp hz).1, rfl⟩

/-- The listing without a cursor has all events of the token. -/
theorem eventRows_perm (haddress : ∀ event ∈ events, event.tokenAddress = tokenAddress) :
    (eventRows le events (optionsFrom tokenAddress limit none)).Perm events := by
  apply (List.mergeSort_perm _ _).trans
  rw [List.filter_eq_self.mpr, List.filter_eq_self.mpr]
  · exact fun event hmem => decide_eq_true (haddress event hmem)
  · exact fun event _ => rfl

/-- What is visited of some events, if those that are kept are among them. -/
theorem pagesLosslessly_iff_of_kept {kept : List (StoredEvent P)} (hnodup : events.Nodup)
    (haddress : ∀ event ∈ events, event.tokenAddress = tokenAddress) (hkept : kept.Nodup)
    (hsub : ∀ event ∈ kept, event ∈ events)
    (h : AnswersRows answer le kept tokenAddress limit) :
    PagesLosslessly answer tokenAddress limit events ↔
      kept.Perm events ∧ ∀ ledger, ¬ Cuts StoredEvent.ledgerSeq (pageLimit limit) events ledger := by
  have hserves := serves_events h
  have hfirst : (eventRows le kept (optionsFrom tokenAddress limit none)).Perm kept :=
    eventRows_perm fun event hmem => haddress event (hsub event hmem)
  have hiff {pages : List (List (StoredEvent P))}
      (hw : Walk (eventPages answer tokenAddress limit) 0 none pages) :=
    hserves.perm_iff (fun {i c z} _ hz => eventRows_perm_filter fun m hm =>
      (hserves.lt_of_mem (i := i) hz m hm).le) (c := none) hw .first
  constructor
  · -- pages that lose nothing give back every event that was kept
    rintro ⟨pages, hw, hperm, -⟩
    have hall : kept.Perm events := by
      rw [List.perm_ext_iff_of_nodup hkept hnodup]
      intro event
      refine ⟨hsub event, fun hmem => ?_⟩
      obtain ⟨j, c, -, hrow⟩ :=
        hserves.mem_rows_of_mem (c := none) hw .first (hperm.mem_iff.mpr hmem)
      exact (mem_eventRows.mp hrow).1
    refine ⟨hall, fun ledger => ?_⟩
    rw [← Cuts.congr (hfirst.trans hall)]
    exact (hiff hw).mp (hperm.trans (hfirst.trans hall).symm) ledger
  · -- conversely the walk ends, and only a ledger cut by the limit loses events
    rintro ⟨hall, hcuts⟩
    obtain ⟨pages, hw⟩ := hserves.exists_walk (c := none) .first
    refine ⟨pages, hw, ?_, hserves.sorted_walk (c := none) hw .first⟩
    refine ((hiff hw).mpr fun ledger => ?_).trans (hfirst.trans hall)
    rw [Cuts.congr (hfirst.trans hall)]
    exact hcuts ledger

end

/-! ### Ingesting the events -/

section

variable {le : Collation} {events : List (StoredEvent P)} {batches : List (List (StoredEvent P))}
  {db : Database P}

/-- The in-memory store after some batches. -/
def ingested (localeCompare : Collation) (batches : List (List (StoredEvent P))) : MemoryStore P :=
  batches.foldl (fun store batch => (store.step localeCompare (.upsertEvents batch)).2) .empty

/-- The tables after some batches. -/
def ingestedRows (db : Database P) (batches : List (List (StoredEvent P))) : PostgresStore P :=
  batches.foldl (fun store batch => (store.step db (.upsertEvents batch)).2) .migrated

theorem events_foldl_upsertEvent {store : MemoryStore P} {batch : List (StoredEvent P)} :
    (batch.foldl upsertEvent store).events = batch.foldl Keyed.set store.events := by
  induction batch generalizing store with
  | nil => rfl
  | cons event batch ih => exact ih

theorem events_ingested : (ingested le batches).events = batches.flatten.foldl Keyed.set .empty := by
  have h (store : MemoryStore P) :
      (batches.foldl (fun store batch => (store.step le (.upsertEvents batch)).2) store).events =
        batches.flatten.foldl Keyed.set store.events := by
    induction batches generalizing store with
    | nil => rfl
    | cons batch batches ih =>
      rw [List.foldl_cons, ih, List.flatten_cons, List.foldl_append]
      exact congrArg (fun kept => batches.flatten.foldl Keyed.set kept) events_foldl_upsertEvent
  exact h .empty

/-- Where the address is one, the key of an event is its ledger and its topic. -/
theorem eventKey_inj {event event' : StoredEvent P}
    (haddress : event.tokenAddress = event'.tokenAddress) :
    event.eventKey = event'.eventKey ↔
      event.ledgerSeq = event'.ledgerSeq ∧ event.topic = event'.topic := by
  constructor
  · intro h
    have hrest := String.ofList_injective h
    rw [haddress, List.append_cancel_left_eq] at hrest
    obtain ⟨hledger, htopic⟩ :=
      append_nul_inj (nul_notMem_toString _) (nul_notMem_toString _) (List.cons.inj hrest).2
    exact ⟨Text.toString_nat_inj (String.toList_inj.mp hledger), String.toList_inj.mp htopic⟩
  · rintro ⟨hledger, htopic⟩
    rw [StoredEvent.eventKey, StoredEvent.eventKey, haddress, hledger, htopic]

/-- The map keeps all events if and only if no two of them have the same ledger and topic. -/
theorem records_ingested_perm_iff (hnodup : events.Nodup)
    (haddress : ∀ event ∈ events, event.tokenAddress = tokenAddress)
    (hbatches : ∀ event, event ∈ batches.flatten ↔ event ∈ events) :
    (ingested le batches).events.records.Perm events ↔
      (events.map fun event => (event.ledgerSeq, event.topic)).Nodup := by
  -- all events are of one token, so the key is ledger and topic
  have hkey {a b : StoredEvent P} (ha : a ∈ events) (hb : b ∈ events) :
      a.eventKey = b.eventKey ↔ (a.ledgerSeq, a.topic) = (b.ledgerSeq, b.topic) := by
    rw [eventKey_inj ((haddress a ha).trans (haddress b hb).symm), Prod.mk.injEq]
  rw [List.nodup_map_iff_inj_on hnodup]
  constructor
  · intro hperm a ha b hb hab
    exact Keyed.eq_of_key_eq (hperm.mem_iff.mpr ha) (hperm.mem_iff.mpr hb) ((hkey ha hb).mpr hab)
  · -- different keys, so no event overwrites another
    intro hinj
    rw [List.perm_ext_iff_of_nodup (Keyed.nodup_records _) hnodup, events_ingested]
    intro event
    rw [Keyed.mem_foldl_set, hbatches]
    · exact or_iff_right List.not_mem_nil
    · rintro a (ha | ha) b (hb | hb) hab
      · cases ha
      · cases ha
      · cases hb
      · rw [hbatches] at ha hb
        exact hinj a ha b hb ((hkey ha hb).mp hab)

theorem mem_records_ingested (hbatches : ∀ event, event ∈ batches.flatten ↔ event ∈ events)
    {event : StoredEvent P} (h : event ∈ (ingested le batches).events.records) : event ∈ events := by
  rw [events_ingested] at h
  rcases Keyed.mem_of_mem_foldl_set h with h | h
  · cases h
  · exact (hbatches event).mp h

/-- The tables hold what the in-memory store holds. -/
theorem mirrors_ingested (hfit : ∀ event ∈ batches.flatten, EventFits db event) :
    Mirrors db (ingested le batches) (ingestedRows db batches) := by
  have h (store : MemoryStore P) (rows : PostgresStore P) (hmirrors : Mirrors db store rows) :
      Mirrors db
        (batches.foldl (fun store batch => (store.step le (.upsertEvents batch)).2) store)
        (batches.foldl (fun store batch => (store.step db (.upsertEvents batch)).2) rows) := by
    induction batches generalizing store rows with
    | nil => exact hmirrors
    | cons batch batches ih =>
      rw [List.flatten_cons, List.forall_mem_append] at hfit
      have hfits : OpFits db le store (.upsertEvents batch) := hfit.1
      exact ih hfit.2 _ _ (mirrors_step hmirrors hfits).2
  exact h .empty .migrated mirrors_migrated

theorem answersRows_ingested (le : Collation) (batches : List (List (StoredEvent P))) :
    AnswersRows (fun op => some ((ingested le batches).step le op).1) le
      (ingested le batches).events.records tokenAddress limit := fun _ _ => rfl

/-- The database answers as the store in memory does. -/
theorem answersRows_ingestedRows (hbatches : ∀ event, event ∈ batches.flatten ↔ event ∈ events)
    (htext : db.text tokenAddress = true)
    (hfit : ∀ event ∈ events, EventFits db event ∧ db.jsonb event.payload = some event.payload) :
    AnswersRows (fun op => ((ingestedRows db batches).step db op).1) db.collation
      (ingested db.collation batches).events.records tokenAddress limit := by
  -- the database holds the rows of the memory store, since all fit its columns
  have hmirrors : Mirrors db (ingested db.collation batches) (ingestedRows db batches) :=
    mirrors_ingested fun event hmem => (hfit event ((hbatches event).mp hmem)).1
  have hrecords : (ingestedRows db batches).events.records =
      (ingested db.collation batches).events.records := by
    rw [hmirrors.events]
    apply map_readBack
    intro event hmem
    rw [StoredEvent.readBack, (hfit event (mem_records_ingested hbatches hmem)).2]
    rfl
  intro cursor hcursor
  -- the parameters of each query fit as well
  have hparameters : db.text (optionsFrom tokenAddress limit cursor).tokenAddress = true ∧
      ∀ c ∈ (optionsFrom tokenAddress limit cursor).cursor, bigint c := by
    refine ⟨htext, fun c hc => ?_⟩
    obtain ⟨n, hn, rfl⟩ := Option.map_eq_some_iff.mp hc
    obtain ⟨event, hmem, rfl⟩ := hcursor n hn
    exact (hfit event (mem_records_ingested hbatches hmem)).1.2.2.2.1
  dsimp only
  rw [PostgresStore.step, query_fits hparameters, selectEvents, listing_take, hrecords]
  rfl

/-- No two events have the same ledger and topic, and no page ends inside a ledger. -/
def Pageable (limit : ℤ) (events : List (StoredEvent P)) : Prop :=
  (events.map fun event => (event.ledgerSeq, event.topic)).Nodup ∧
    ∀ ledger, ¬ Cuts StoredEvent.ledgerSeq (pageLimit limit) events ledger

/-- The two stores after any batches of the events. -/
theorem pageable_iff (le : Collation) (hnodup : events.Nodup)
    (haddress : ∀ event ∈ events, event.tokenAddress = tokenAddress)
    (hbatches : ∀ event, event ∈ batches.flatten ↔ event ∈ events)
    {answer : StoreOp P → Option (Answer P)}
    (h : AnswersRows answer le (ingested le batches).events.records tokenAddress limit) :
    PagesLosslessly answer tokenAddress limit events ↔ Pageable limit events := by
  rw [pagesLosslessly_iff_of_kept hnodup haddress (Keyed.nodup_records _)
    (fun event => mem_records_ingested hbatches) h, records_ingested_perm_iff hnodup haddress hbatches]
  rfl

/-- **When the events of a token page losslessly**, after any batches and repetitions of them: in
either store, if and only if no two have the same ledger and topic and no page ends inside a ledger. -/
theorem pagesLosslessly_iff (localeCompare : Collation) (limit : ℤ) (hnodup : events.Nodup)
    (haddress : ∀ event ∈ events, event.tokenAddress = tokenAddress)
    (hbatches : ∀ event, event ∈ batches.flatten ↔ event ∈ events) :
    (PagesLosslessly (fun op => some ((ingested localeCompare batches).step localeCompare op).1)
        tokenAddress limit events ↔ Pageable limit events) ∧
      ∀ db : Database P, db.text tokenAddress = true →
        (∀ event ∈ events, EventFits db event ∧ db.jsonb event.payload = some event.payload) →
        (PagesLosslessly (fun op => ((ingestedRows db batches).step db op).1)
          tokenAddress limit events ↔ Pageable limit events) := by
  constructor
  · exact pageable_iff localeCompare hnodup haddress hbatches (answersRows_ingested _ _)
  · intro db htext hfit
    exact pageable_iff db.collation hnodup haddress hbatches
      (answersRows_ingestedRows hbatches htext hfit)

end

/-! ### Two events of one ledger -/

/-- An event of a token. -/
def sampleEvent (ledgerSeq : ℕ) (topic : String) : StoredEvent String where
  tokenAddress := "CTOKEN"
  ledgerSeq := ledgerSeq
  topic := topic
  payload := "1000"
  txHash := some "abc123"

/-- With one event a page, the second event of the ledger is never visited. -/
theorem not_pagesLosslessly_sampleEvents : ¬ PagesLosslessly
    (fun op => some ((ingested (fun a b => decide (a ≤ b))
      [[sampleEvent 100 "mint", sampleEvent 100 "burn"]]).step (fun a b => decide (a ≤ b)) op).1)
    "CTOKEN" 1 [sampleEvent 100 "mint", sampleEvent 100 "burn"] := by
  intro h
  have hpageable : Pageable 1 [sampleEvent 100 "mint", sampleEvent 100 "burn"] :=
    (pageable_iff _ (by decide) (by decide) (fun event => by simp) (answersRows_ingested _ _)).mp h
  -- the first page ends after one of the two
  exact hpageable.2 100 ⟨1, by decide, by decide⟩

/-- Two events of two ledgers, one of them ingested twice. -/
theorem pagesLosslessly_iff_sampleEvents :
    PagesLosslessly (fun op => ((ingestedRows sampleDatabase
        [[sampleEvent 100 "mint"], [sampleEvent 101 "burn", sampleEvent 100 "mint"]]).step
          sampleDatabase op).1) "CTOKEN" 1 [sampleEvent 100 "mint", sampleEvent 101 "burn"] ↔
      Pageable 1 [sampleEvent 100 "mint", sampleEvent 101 "burn"] :=
  (pagesLosslessly_iff (fun a b => decide (a ≤ b)) 1 (by decide) (by decide) fun event => by
    simp only [List.flatten_cons, List.flatten_nil, List.mem_append, List.mem_cons]
    tauto).2 sampleDatabase (by decide) (by decide)

end StellarForge.Indexer
