import StellarForge.Collections.Text
import StellarForge.Indexer.PostgresStore

/-!
# When the two stores agree

The in-memory store accepts whatever it is given.  The tables have a unique index of tokens, bounded
integers, texts without NUL characters and payloads that go through JSON.

* `Mirrors`: the tables hold what the in-memory store holds, the payloads as they are read back;
* `mirrors_step`: an operation that fits is answered alike, and keeps the two stores mirrored;
* `disagrees_step`: an operation that does not fit is answered differently;
* `agree_iff`: **the sequences of operations that both stores answer alike, step by step**;
* `not_agree_sampleOps`: two rows with the same index.
-/

namespace StellarForge.Indexer

open Collections MemoryStore PostgresStore

variable {P : Type}

/-- The two stores run the operations and answer alike at every step. -/
def Agree (db : Database P) (localeCompare : Collation) (m : MemoryStore P) (p : PostgresStore P) :
    List (StoreOp P) → Prop
  | [] => True
  | op :: ops => (p.step db op).1 = some (m.step localeCompare op).1 ∧
    Agree db localeCompare (m.step localeCompare op).2 (p.step db op).2 ops

/-! ### Operations that fit -/

/-- Every element fits when its turn comes. -/
def EachFits {σ α : Type} (fits : σ → α → Prop) (write : σ → α → σ) (s : σ) : List α → Prop
  | [] => True
  | x :: xs => fits s x ∧ EachFits fits write (write s x) xs

/-- The row fits its columns, and does not take the index of another token. -/
def RowFits (db : Database P) (m : MemoryStore P) (token : IndexedToken) : Prop :=
  TokenFits db token ∧ Table.Free m.tokens IndexedToken.tokenIndex token

/-- The first events of a listing. -/
def firstEvents (le : Collation) (m : MemoryStore P) (options : ListEventsOptions) :
    List (StoredEvent P) :=
  (eventRows le m.events.records options).take (pageLimit options.limit)

/-- The operation fits the tables, in the state of the in-memory store. -/
def OpFits (db : Database P) (localeCompare : Collation) (m : MemoryStore P) : StoreOp P → Prop
  | .upsertTokens tokens => EachFits (RowFits db) upsertRow m tokens
  | .setMetadataUri address metadataUri => db.text address ∧ db.text metadataUri
  | .getToken address => db.text address
  | .listTokens options => (∀ creator ∈ options.creator.filter (· ≠ ""), db.text creator) ∧
    ∀ cursor ∈ options.cursor, integer cursor
  | .countTokens => integer m.countTokens
  | .presentIndices indices => ∀ i ∈ indices, integer i
  | .getState => True
  | .saveState patch => PatchFits db patch
  | .upsertEvents stored => ∀ event ∈ stored, EventFits db event
  | .listEvents options => (db.text options.tokenAddress ∧ ∀ cursor ∈ options.cursor, bigint cursor) ∧
    -- the two collations put the same events first, and their payloads survive the database
    firstEvents localeCompare m options = firstEvents db.collation m options ∧
    ∀ event ∈ firstEvents localeCompare m options, db.jsonb event.payload = some event.payload

/-- Every operation fits when its turn comes. -/
def Fit (db : Database P) (localeCompare : Collation) (m : MemoryStore P) : List (StoreOp P) → Prop
  | [] => True
  | op :: ops => OpFits db localeCompare m op ∧ Fit db localeCompare (m.step localeCompare op).2 ops

/-! ### Mirrored stores -/

/-- An event as it is read back. -/
def StoredEvent.readBack (db : Database P) (event : StoredEvent P) : StoredEvent P :=
  { event with payload := (db.jsonb event.payload).getD event.payload }

/-- The tables hold what the in-memory store holds. -/
structure Mirrors (db : Database P) (m : MemoryStore P) (p : PostgresStore P) : Prop where
  tokens : p.tokens.toKeyed = m.tokens
  state : p.indexerState = some m.state
  events : p.events.records = m.events.records.map (StoredEvent.readBack db)
  fit : ∀ event ∈ m.events.records, EventFits db event

section

variable {db : Database P} {le : Collation} {m m' : MemoryStore P} {p p' : PostgresStore P}
  {token : IndexedToken} {event event' : StoredEvent P}

theorem mirrors_migrated : Mirrors db MemoryStore.empty PostgresStore.migrated where
  tokens := rfl
  state := rfl
  events := rfl
  fit := nofun

/-! #### Statements -/

/-- What holds of one statement holds of a list of them. -/
theorem each_spec {α : Type} {statement : PostgresStore P → α → Option (PostgresStore P)}
    {write : MemoryStore P → α → MemoryStore P} {fits : MemoryStore P → α → Prop} {xs : List α}
    (hfits : ∀ {m p x}, Mirrors db m p → fits m x →
      ∃ p', statement p x = some p' ∧ Mirrors db (write m x) p')
    (hfails : ∀ {m p x}, Mirrors db m p → ¬ fits m x → statement p x = none)
    (h : Mirrors db m p) :
    ((each statement p xs).1 = true ↔ EachFits fits write m xs) ∧
      (EachFits fits write m xs → Mirrors db (xs.foldl write m) (each statement p xs).2) := by
  induction xs generalizing m p with
  | nil => exact ⟨iff_of_true rfl trivial, fun _ => h⟩
  | cons x xs ih =>
    rw [each]
    by_cases hx : fits m x
    · obtain ⟨p', hstatement, h'⟩ := hfits h hx
      rw [hstatement]
      obtain ⟨hok, hmirrors⟩ := ih h'
      exact ⟨hok.trans (and_iff_right hx).symm, fun hrest => hmirrors hrest.2⟩
    · rw [hfails h hx]
      exact ⟨iff_of_false Bool.false_ne_true fun hrest => hx hrest.1, fun hrest => absurd hrest.1 hx⟩

/-- A row whose index is free can be put into the table. -/
theorem exists_put (row : IndexedToken) (h : Mirrors db m p)
    (hfree : Table.Free m.tokens IndexedToken.tokenIndex row) :
    ∃ tokens, p.tokens.put row = some tokens ∧ tokens.toKeyed = m.tokens.set row := by
  rcases hput : p.tokens.put row with _ | tokens
  · rw [Table.put_eq_none, h.tokens] at hput
    exact absurd hfree hput
  · obtain ⟨-, htokens⟩ := Table.put_eq_some.mp hput
    rw [h.tokens] at htokens
    exact ⟨tokens, rfl, htokens⟩

/-- The statement for a row sets it where it fits. -/
theorem insertToken_fits (h : Mirrors db m p) (hfits : RowFits db m token) :
    ∃ p', insertToken db p token = some p' ∧ Mirrors db (m.upsertRow token) p' := by
  obtain ⟨hcolumns, hfree⟩ := hfits
  obtain ⟨tokens, hput, htokens⟩ := exists_put
    { token with
      metadataUri := token.metadataUri.or
        ((m.tokens.find? token.address).bind IndexedToken.metadataUri) } h hfree
  refine ⟨{ p with tokens }, ?_, ⟨htokens, h.state, h.events, h.fit⟩⟩
  rw [insertToken, if_pos hcolumns]
  dsimp only
  rw [h.tokens, hput, Option.map_some]

theorem insertToken_fails (h : Mirrors db m p) (hfits : ¬ RowFits db m token) :
    insertToken db p token = none := by
  rw [insertToken]
  split_ifs with hcolumns
  · rw [Option.map_eq_none_iff, Table.put_eq_none, h.tokens]
    exact fun hfree => hfits ⟨hcolumns, hfree⟩
  · rfl

/-! #### Event keys -/

/-- The text before the first NUL character, and what follows it. -/
theorem append_nul_inj {a b x y : List Char} (ha : '\x00' ∉ a) (hb : '\x00' ∉ b)
    (h : a ++ '\x00' :: x = b ++ '\x00' :: y) : a = b ∧ x = y := by
  induction a generalizing b with
  | nil =>
    cases b with
    | nil => exact ⟨rfl, (List.cons.inj h).2⟩
    | cons c b =>
      have hc : '\x00' = c := (List.cons.inj h).1
      exact absurd (List.mem_cons.mpr (.inl hc)) hb
  | cons c a ih =>
    cases b with
    | nil =>
      have hc : c = '\x00' := (List.cons.inj h).1
      exact absurd (List.mem_cons.mpr (.inl hc.symm)) ha
    | cons d b =>
      obtain ⟨hcd, hrest⟩ := List.cons.inj h
      obtain ⟨hab, hxy⟩ := ih (fun hmem => ha (List.mem_cons_of_mem _ hmem))
        (fun hmem => hb (List.mem_cons_of_mem _ hmem)) hrest
      exact ⟨by rw [hcd, hab], hxy⟩

theorem nul_notMem_toString (n : ℕ) : '\x00' ∉ (toString n).toList := by
  intro h
  have hdigit := Nat.isDigit_of_mem_toDigits (by decide) (by decide) (Nat.toList_repr ▸ h)
  exact absurd hdigit (by decide)

/-- Where the addresses have no NUL characters, the key of the map is the primary key. -/
theorem eventKey_eq_iff (ha : db.text event.tokenAddress = true)
    (hb : db.text event'.tokenAddress = true) :
    event.primaryKey = event'.primaryKey ↔ event.eventKey = event'.eventKey := by
  constructor
  · intro h
    obtain ⟨haddress, hrest⟩ := Prod.mk.inj h
    obtain ⟨hledger, htopic⟩ := Prod.mk.inj hrest
    rw [StoredEvent.eventKey, StoredEvent.eventKey, haddress, hledger, htopic]
  · intro h
    obtain ⟨haddress, hrest⟩ := append_nul_inj (db.text_nul ha) (db.text_nul hb)
      (String.ofList_injective h)
    obtain ⟨hledger, htopic⟩ := append_nul_inj (nul_notMem_toString _) (nul_notMem_toString _) hrest
    rw [StoredEvent.primaryKey, StoredEvent.primaryKey, String.toList_inj.mp haddress,
      Text.toString_nat_inj (String.toList_inj.mp hledger), String.toList_inj.mp htopic]

/-- An event that fits is inserted into both stores. -/
theorem insertEvent_fits (h : Mirrors db m p) (hfits : EventFits db event) :
    ∃ p', insertEvent db p event = some p' ∧ Mirrors db (m.upsertEvent event) p' := by
  obtain ⟨payload, hpayload⟩ := Option.isSome_iff_exists.mp hfits.2.2.2.2
  have hread : event.readBack db = { event with payload } := by
    rw [StoredEvent.readBack, hpayload, Option.getD_some]
  refine ⟨{ p with events := p.events.set (event.readBack db) }, ?_, ⟨h.tokens, h.state, ?_, ?_⟩⟩
  · rw [insertEvent, if_pos hfits, hpayload, Option.map_some, hread]
  · apply Keyed.records_set_map h.events
    intro event' hmem
    exact eventKey_eq_iff (h.fit event' hmem).1 hfits.1
  · intro event' hmem
    rcases Keyed.mem_set.mp hmem with rfl | ⟨hmem, -⟩
    · exact hfits
    · exact h.fit event' hmem

theorem insertEvent_fails (hfits : ¬ EventFits db event) : insertEvent db p event = none := by
  rw [insertEvent, if_neg hfits]

theorem eachFits_const {α : Type} {fits : α → Prop} {write : MemoryStore P → α → MemoryStore P}
    {xs : List α} : EachFits (fun _ x => fits x) write m xs ↔ ∀ x ∈ xs, fits x := by
  induction xs generalizing m with
  | nil => exact iff_of_true trivial nofun
  | cons x xs ih => rw [EachFits, ih, List.forall_mem_cons]

/-! #### Listings -/

/-- One more row tells whether there is another page. -/
theorem listing_take {α : Type} {cursorOf : α → ℕ} {limit : ℕ} {rows : List α} :
    listing cursorOf limit (rows.take (limit + 1)) = listing cursorOf limit rows := by
  have hrows : (rows.take (limit + 1)).take limit = rows.take limit := by
    rw [List.take_take, Nat.min_eq_left (Nat.le_succ limit)]
  have hmore : limit < (rows.take (limit + 1)).length ↔ limit < rows.length := by
    rw [List.length_take]
    omega
  simp only [listing, hrows, hmore]

/-- The events that the database lists are those of the in-memory store, as they are read back. -/
theorem eventRows_readBack {rows : List (StoredEvent P)} {options : ListEventsOptions} :
    eventRows le (rows.map (StoredEvent.readBack db)) options =
      (eventRows le rows options).map (StoredEvent.readBack db) := by
  rw [eventRows, eventRows, List.filter_map, List.filter_map, List.map_mergeSort]
  · rfl
  · exact fun _ _ _ _ => rfl

theorem mem_of_mem_firstEvents {options : ListEventsOptions}
    (h : event ∈ firstEvents le m options) : event ∈ m.events.records := by
  have hrows := List.mem_mergeSort.mp (List.mem_of_mem_take h)
  exact (List.mem_filter.mp (List.mem_filter.mp hrows).1).1

/-- An event that is read back as a stored one is unchanged. -/
theorem jsonb_of_readBack_mem (h : Mirrors db m p) (hmem : event ∈ m.events.records)
    (hread : event.readBack db ∈ m.events.records) :
    event.readBack db = event ∧ db.jsonb event.payload = some event.payload := by
  have hsame : event.readBack db = event := Keyed.eq_of_key_eq hread hmem rfl
  obtain ⟨payload, hpayload⟩ := Option.isSome_iff_exists.mp (h.fit event hmem).2.2.2.2
  have hvalue : (db.jsonb event.payload).getD event.payload = event.payload :=
    congrArg StoredEvent.payload hsame
  rw [hpayload, Option.getD_some] at hvalue
  exact ⟨hsame, by rw [hpayload, hvalue]⟩

theorem map_readBack {rows : List (StoredEvent P)}
    (h : ∀ event ∈ rows, event.readBack db = event) : rows.map (StoredEvent.readBack db) = rows := by
  have hid : rows.map (StoredEvent.readBack db) = rows.map id := List.map_congr_left h
  rw [hid, List.map_id]

/-- The pages of events are the same. -/
theorem listing_events_iff {le' : Collation} {options : ListEventsOptions} (h : Mirrors db m p) :
    listing StoredEvent.ledgerSeq (pageLimit options.limit)
        (eventRows le' p.events.records options) =
      listing StoredEvent.ledgerSeq (pageLimit options.limit)
        (eventRows le m.events.records options) ↔
      firstEvents le m options = firstEvents le' m options ∧
        ∀ event ∈ firstEvents le m options, db.jsonb event.payload = some event.payload := by
  rw [h.events, eventRows_readBack]
  constructor
  · -- rows read back in the order of the database are the rows of memory
    intro heq
    have hrows : (firstEvents le' m options).map (StoredEvent.readBack db) =
        firstEvents le m options := by
      rw [firstEvents, List.map_take]
      exact congrArg Listing.rows heq
    have hsame : ∀ event ∈ firstEvents le' m options,
        event.readBack db = event ∧ db.jsonb event.payload = some event.payload := by
      intro event hmem
      have hlisted : event.readBack db ∈ firstEvents le m options := by
        rw [← hrows]
        exact List.mem_map_of_mem hmem
      -- so each payload reads back as itself
      exact jsonb_of_readBack_mem h (mem_of_mem_firstEvents hmem) (mem_of_mem_firstEvents hlisted)
    have hid : (firstEvents le' m options).map (StoredEvent.readBack db) =
        firstEvents le' m options :=
      map_readBack fun event hmem => (hsame event hmem).1
    have horder : firstEvents le m options = firstEvents le' m options := hrows.symm.trans hid
    exact ⟨horder, fun event hmem => (hsame event (horder ▸ hmem)).2⟩
  · -- conversely the same rows in the same order, and as many of them
    rintro ⟨horder, hpayload⟩
    have hid : (firstEvents le' m options).map (StoredEvent.readBack db) =
        firstEvents le m options := by
      rw [← horder]
      apply map_readBack
      intro event hmem
      rw [StoredEvent.readBack, hpayload event hmem]
      rfl
    have hlength : (eventRows le' m.events.records options).length =
        (eventRows le m.events.records options).length := by
      rw [eventRows, eventRows, List.length_mergeSort, List.length_mergeSort]
    rw [firstEvents, List.map_take] at hid
    rw [listing, listing, hid, List.length_map, hlength, firstEvents]

/-! ### One operation -/

theorem mem_records_tokens (h : Mirrors db m p) {row row' : IndexedToken}
    (hrow : row ∈ m.tokens.records) (hrow' : row' ∈ m.tokens.records)
    (hindex : row.tokenIndex = row'.tokenIndex) : row = row' := by
  rw [← h.tokens] at hrow hrow'
  exact p.tokens.eq_of_unique_eq hrow hrow' hindex

/-- Setting a URI keeps the index of its row free. -/
theorem mirrors_updateMetadataUri (address uri : String) (h : Mirrors db m p) :
    ∃ p', p.updateMetadataUri address uri = some p' ∧
      Mirrors db { m with tokens := MemoryTokenStore.setMetadataUri m.tokens address uri } p' := by
  rw [updateMetadataUri, h.tokens, MemoryTokenStore.setMetadataUri]
  rcases hfind : m.tokens.find? address with _ | row
  · exact ⟨p, rfl, ⟨h.tokens, h.state, h.events, h.fit⟩⟩
  · have hrow := (Keyed.find?_eq_some.mp hfind).1
    have hfree : Table.Free m.tokens IndexedToken.tokenIndex
        { row with metadataUri := some uri } := by
      intro row' hrow' hindex
      have hsame : row' = row := mem_records_tokens h hrow' hrow hindex
      rw [hsame]
    obtain ⟨tokens, hput, htokens⟩ := exists_put _ h hfree
    refine ⟨{ p with tokens }, ?_, ⟨htokens, h.state, h.events, h.fit⟩⟩
    show (p.tokens.put _).map _ = _
    rw [hput, Option.map_some]

theorem each_insertToken (tokens : List IndexedToken) (h : Mirrors db m p) :
    ((each (insertToken db) p tokens).1 = true ↔ EachFits (RowFits db) upsertRow m tokens) ∧
      (EachFits (RowFits db) upsertRow m tokens →
        Mirrors db (tokens.foldl upsertRow m) (each (insertToken db) p tokens).2) :=
  each_spec (fun h hx => insertToken_fits h hx) (fun h hx => insertToken_fails h hx) h

theorem each_insertEvent (stored : List (StoredEvent P)) (h : Mirrors db m p) :
    ((each (insertEvent db) p stored).1 = true ↔ ∀ event ∈ stored, EventFits db event) ∧
      ((∀ event ∈ stored, EventFits db event) →
        Mirrors db (stored.foldl upsertEvent m) (each (insertEvent db) p stored).2) := by
  have hspec : ((each (insertEvent db) p stored).1 = true ↔
        EachFits (fun _ event => EventFits db event) upsertEvent m stored) ∧
      (EachFits (fun _ event => EventFits db event) upsertEvent m stored →
        Mirrors db (stored.foldl upsertEvent m) (each (insertEvent db) p stored).2) := by
    apply each_spec
    · exact fun h hx => insertEvent_fits h hx
    · exact fun _ hx => insertEvent_fails hx
    · exact h
  rwa [eachFits_const] at hspec

theorem written_of_ok {result : Bool × PostgresStore P} (h : result.1 = true) :
    written result = (some .done, result.2) := by
  rw [written, if_pos h]

theorem written_of_not_ok {result : Bool × PostgresStore P} (h : ¬ result.1 = true) :
    written result = (none, result.2) := by
  rw [written, if_neg h]

/-- A query whose parameters fit. -/
theorem query_fits {fits : Prop} [Decidable fits] {answer : Answer P} (h : fits) :
    query fits answer p = (some answer, p) := by
  rw [query, if_pos h]

theorem query_fails {fits : Prop} [Decidable fits] {answer : Answer P} (h : ¬ fits) :
    query fits answer p = (none, p) := by
  rw [query, if_neg h]

theorem length_tokens (h : Mirrors db m p) : p.tokens.length = m.countTokens := by
  rw [h.tokens]
  rfl

theorem patchFits_empty : PatchFits db {} := by
  simp [PatchFits]

/-- **An operation that fits** is answered alike. -/
theorem mirrors_step {op : StoreOp P} (h : Mirrors db m p) (hfits : OpFits db le m op) :
    (p.step db op).1 = some (m.step le op).1 ∧ Mirrors db (m.step le op).2 (p.step db op).2 := by
  have hrecords : p.tokens.records = m.tokens.records := congrArg Keyed.records h.tokens
  -- writes first: what fits is written to both, reads leave both as they are
  cases op with
  | upsertTokens tokens =>
    obtain ⟨hok, hmirrors⟩ := each_insertToken tokens h
    rw [PostgresStore.step, written_of_ok (hok.mpr hfits)]
    exact ⟨rfl, hmirrors hfits⟩
  | setMetadataUri address uri =>
    rw [OpFits] at hfits
    obtain ⟨p', hupdate, hmirrors⟩ := mirrors_updateMetadataUri address uri h
    rw [PostgresStore.step, if_pos hfits, hupdate]
    exact ⟨rfl, hmirrors⟩
  | getToken address =>
    rw [OpFits] at hfits
    rw [PostgresStore.step, query_fits hfits, h.tokens]
    exact ⟨rfl, h⟩
  | listTokens options =>
    rw [OpFits] at hfits
    rw [PostgresStore.step, query_fits hfits, selectTokens, listing_take, hrecords]
    exact ⟨rfl, h⟩
  | countTokens =>
    rw [OpFits] at hfits
    rw [PostgresStore.step, length_tokens h, query_fits hfits]
    exact ⟨rfl, h⟩
  | presentIndices indices =>
    rw [OpFits] at hfits
    rw [PostgresStore.step, query_fits hfits, hrecords]
    exact ⟨rfl, h⟩
  | getState =>
    rw [PostgresStore.step, h.state]
    exact ⟨rfl, h⟩
  -- the state is one row, and an empty patch writes none
  | saveState patch =>
    rw [PostgresStore.step]
    split_ifs with hempty hpatch
    · rw [hempty]
      exact ⟨rfl, ⟨h.tokens, h.state, h.events, h.fit⟩⟩
    · refine ⟨rfl, ⟨h.tokens, ?_, h.events, h.fit⟩⟩
      rw [insertState, h.state]
      rfl
    · exact absurd hfits hpatch
  | upsertEvents stored =>
    obtain ⟨hok, hmirrors⟩ := each_insertEvent stored h
    rw [PostgresStore.step, written_of_ok (hok.mpr hfits)]
    exact ⟨rfl, hmirrors hfits⟩
  | listEvents options =>
    obtain ⟨hparameters, hpage⟩ := hfits
    rw [PostgresStore.step, query_fits hparameters, selectEvents, listing_take,
      (listing_events_iff h).mpr hpage]
    exact ⟨rfl, h⟩

/-- **An operation that does not fit** is answered differently. -/
theorem disagrees_step {op : StoreOp P} (h : Mirrors db m p) (hfits : ¬ OpFits db le m op) :
    (p.step db op).1 ≠ some (m.step le op).1 := by
  -- where the operation does not fit, the database answers with an error and memory does not
  cases op with
  | upsertTokens tokens =>
    obtain ⟨hok, -⟩ := each_insertToken tokens h
    rw [PostgresStore.step, written_of_not_ok (mt hok.mp hfits)]
    exact (Option.some_ne_none _).symm
  | setMetadataUri address uri =>
    rw [OpFits] at hfits
    rw [PostgresStore.step, if_neg hfits]
    exact (Option.some_ne_none _).symm
  | getToken address =>
    rw [OpFits] at hfits
    rw [PostgresStore.step, query_fails hfits]
    exact (Option.some_ne_none _).symm
  | listTokens options =>
    rw [OpFits] at hfits
    rw [PostgresStore.step, query_fails hfits]
    exact (Option.some_ne_none _).symm
  | countTokens =>
    rw [OpFits] at hfits
    rw [PostgresStore.step, length_tokens h, query_fails hfits]
    exact (Option.some_ne_none _).symm
  | presentIndices indices =>
    rw [OpFits] at hfits
    rw [PostgresStore.step, query_fails hfits]
    exact (Option.some_ne_none _).symm
  | getState => exact absurd trivial hfits
  | saveState patch =>
    rw [PostgresStore.step]
    split_ifs with hempty hpatch
    · rw [hempty] at hfits
      exact absurd patchFits_empty hfits
    · exact absurd hpatch hfits
    · exact (Option.some_ne_none _).symm
  | upsertEvents stored =>
    obtain ⟨hok, -⟩ := each_insertEvent stored h
    rw [PostgresStore.step, written_of_not_ok (mt hok.mp hfits)]
    exact (Option.some_ne_none _).symm
  | listEvents options =>
    rw [PostgresStore.step]
    -- either a parameter does not fit its column, or the page reads differently
    by_cases hparameters : db.text options.tokenAddress = true ∧
        ∀ cursor ∈ options.cursor, bigint cursor
    · rw [query_fits hparameters, selectEvents, listing_take]
      intro heq
      have hlisting := Answer.events.inj (Option.some.inj heq)
      exact hfits ⟨hparameters, (listing_events_iff h).mp hlisting⟩
    · rw [query_fails hparameters]
      exact (Option.some_ne_none _).symm

/-! ### Sequences of operations -/

/-- From mirrored stores, the operations are answered alike exactly when they fit. -/
theorem agree_iff_fit {ops : List (StoreOp P)} (h : Mirrors db m p) :
    Agree db le m p ops ↔ Fit db le m ops := by
  induction ops generalizing m p with
  | nil => exact Iff.rfl
  | cons op ops ih =>
    constructor
    · rintro ⟨hanswer, hrest⟩
      have hfits : OpFits db le m op := by
        by_contra hnot
        exact disagrees_step h hnot hanswer
      exact ⟨hfits, (ih (mirrors_step h hfits).2).mp hrest⟩
    · rintro ⟨hfits, hrest⟩
      obtain ⟨hanswer, h'⟩ := mirrors_step h hfits
      exact ⟨hanswer, (ih h').mpr hrest⟩

/-- **When the two stores agree**, from a new in-memory store and the migrated tables on. -/
theorem agree_iff {ops : List (StoreOp P)} :
    Agree db le MemoryStore.empty PostgresStore.migrated ops ↔ Fit db le MemoryStore.empty ops :=
  agree_iff_fit mirrors_migrated

end

/-! ### Two rows with the same index -/

/-- A database that reads back every payload as it was written. -/
def sampleDatabase : Database String where
  text s := !s.toList.contains '\x00'
  text_nul h := by simpa using h
  timestamptz _ := true
  jsonb := some
  collation a b := decide (a ≤ b)

/-- The row of a `created` event whose look-up failed. -/
def sampleUnresolved (address : String) : IndexedToken where
  address := address
  tokenIndex := 0
  name := "Token"
  symbol := "TOK"
  decimals := 0
  creator := "GCREATOR"
  createdAt := 1700000000
  metadataUri := none
  source := .event

/-- The unique index of the table refuses the second row. -/
theorem not_agree_sampleOps : ¬ Agree sampleDatabase (fun a b => decide (a ≤ b)) MemoryStore.empty
    PostgresStore.migrated [.upsertTokens [sampleUnresolved "CFIRST", sampleUnresolved "CSECOND"]] := by
  intro h
  have hrejects : (PostgresStore.migrated.step sampleDatabase
      (.upsertTokens [sampleUnresolved "CFIRST", sampleUnresolved "CSECOND"])).1 = none := by
    decide
  rw [Agree, hrejects] at h
  exact absurd h.1.symm (Option.some_ne_none _)

end StellarForge.Indexer
