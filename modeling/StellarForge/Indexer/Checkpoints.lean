import StellarForge.Collections.Latest
import StellarForge.Indexer.CrashSafety
import StellarForge.Indexer.Replay

/-!
# What a checkpoint promises

A cycle reads the event stream from the stored cursor, page by page, and stores the cursor of each page that
it has written.  `Reflects feed log c tokens` is what the rows then are to the first `c` events: every token
that they create has a row, and the URI that a row has, or lacks, stood at some time since.

* `Covers`: pages that follow one another in the stream;
* `Reflects.afterPage`, `Reflects.afterPart`: a page that is written in its turn, and a part of one;
* `Reflects.afterPages`: **when pages have been written in their turn, the rows reflect what they have
  reached.**
-/

namespace StellarForge.Indexer.Interrupted

open Collections MemoryTokenStore

/-! ### The stream -/

/-- What the events of a stream say of the tokens, and the paging token behind the first `n` of them. -/
structure Feed (ε : Type) where
  creates : ε → Option String
  uri : String → ε → Option String
  pagingToken : ℕ → String
  inj : Function.Injective pagingToken

/-- Metadata is set only after the creation. -/
def Feed.Ordered {ε : Type} (feed : Feed ε) (log : List ε) : Prop :=
  ∀ n a, lastValue (feed.uri a) (log.take n) ≠ none → a ∈ (log.take n).filterMap feed.creates

/-- The page is the stretch of the stream from `p` to `q`. -/
structure PageAt {ε : Type} (feed : Feed ε) (log : List ε) (p q : ℕ) (page : EventPage) : Prop where
  le : p ≤ q
  le_length : q ≤ log.length
  created : page.created.map IndexedToken.address = ((log.take q).drop p).filterMap feed.creates
  bare : ∀ row ∈ page.created, row.metadataUri = none
  uris : ∀ a, page.events.reduceOption.filterMap (IndexerEvent.uriFor a) =
    ((log.take q).drop p).filterMap (feed.uri a)
  cursor : ∀ token ∈ page.cursor, token = feed.pagingToken q

/-- The pages follow one another from `p` to `q`. -/
inductive Covers {ε : Type} (feed : Feed ε) (log : List ε) : ℕ → List EventPage → ℕ → Prop
  | nil {p : ℕ} : Covers feed log p [] p
  | cons {p q r : ℕ} {page : EventPage} {pages : List EventPage} (h : PageAt feed log p q page)
    (hpages : Covers feed log q pages r) : Covers feed log p (page :: pages) r

/-- The chain pages through the stream, of which it has dropped the first `low` events. -/
structure PagesThrough {ε : Type} (feed : Feed ε) (log : List ε) (low : ℕ) (chain : ChainReader) :
    Prop where
  cursor : ∀ {p : ℕ}, p ≤ log.length →
    ∃ q, PageAt feed log p q (chain.getEventPage (some (feed.pagingToken p)))
  start : ∃ q, PageAt feed log low q (chain.getEventPage none)

/-- Where the stream is read from the cursor. -/
structure StartsAt {ε : Type} (feed : Feed ε) (log : List ε) (low : ℕ) (cursor : Option String) (p : ℕ) :
    Prop where
  le_length : p ≤ log.length
  resumes : ∀ token ∈ cursor, token = feed.pagingToken p
  starts : cursor = none → p = low

/-- The rows show of the first `c` events what there is to show, and nothing that is older. -/
structure Reflects {ε : Type} (feed : Feed ε) (log : List ε) (c : ℕ)
    (tokens : Keyed IndexedToken.address) : Prop where
  created : ∀ a ∈ (log.take c).filterMap feed.creates, (tokens.find? a).isSome = true
  uri : ∀ a, Since (feed.uri a) log c (uriOf tokens a)

section

variable {ε : Type} {feed : Feed ε} {log : List ε} {chain : ChainReader} {c p q r low : ℕ}
  {page : EventPage} {pages : List EventPage} {part ws : List Write} {rows : List IndexedToken}
  {cursor : Option String} {tokens : Keyed IndexedToken.address} {a : String}

/-! ### Pages -/

theorem Covers.le_length (h : Covers feed log p pages q) (hp : p ≤ log.length) : q ≤ log.length := by
  induction h with
  | nil => exact hp
  | cons h _ ih => exact ih h.le_length

/-- Behind the pages there is the cursor of the last one. -/
theorem Covers.cursorAfter (h : Covers feed log p pages q)
    (hcursor : ∀ token ∈ cursor, token = feed.pagingToken p) :
    ∀ token ∈ cursorAfter cursor pages, token = feed.pagingToken q := by
  induction h generalizing cursor with
  | nil => exact hcursor
  | @cons p q r page pages h _ ih =>
    rw [cursorAfter_cons]
    exact ih h.cursor

/-- The page that is read from the cursor. -/
theorem PagesThrough.exists_pageAt (h : PagesThrough feed log low chain)
    (hstart : StartsAt feed log low cursor p) : ∃ q, PageAt feed log p q (chain.getEventPage cursor) := by
  rcases cursor with _ | token
  · obtain rfl := hstart.starts rfl
    exact h.start
  · obtain rfl := hstart.resumes token rfl
    exact h.cursor hstart.le_length

/-- Where the next page is read. -/
theorem PageAt.startsAt (h : PageAt feed log p q page) (hnext : page.cursor ≠ none) :
    StartsAt feed log low page.cursor q :=
  ⟨h.le_length, h.cursor, fun hnone => absurd hnone hnext⟩

/-! ### What the writes do to the URIs -/

/-- Rows that carry no URI change none. -/
theorem uriOf_replay_rows (hrows : ∀ row ∈ rows, row.metadataUri = none) :
    uriOf (replay tokens (rows.map .upsert)) a = uriOf tokens a := by
  induction rows generalizing tokens with
  | nil => rfl
  | cons row rows ih =>
    have hrest : uriOf (replay (upsertToken tokens row) (rows.map .upsert)) a =
        uriOf (upsertToken tokens row) a := ih fun row hrow => hrows row (List.mem_cons_of_mem _ hrow)
    exact hrest.trans (uriOf_upsertToken (hrows row List.mem_cons_self))

theorem isSome_find?_replay_rows : ((replay tokens (rows.map .upsert)).find? a).isSome = true ↔
    (tokens.find? a).isSome = true ∨ a ∈ rows.map IndexedToken.address := by
  rw [isSome_find?_replay_iff]
  refine or_congr Iff.rfl ⟨?_, fun h => ?_⟩
  · rintro ⟨token, htoken, rfl⟩
    obtain ⟨row, hrow, heq⟩ := List.mem_map.mp htoken
    cases heq
    exact List.mem_map_of_mem hrow
  · obtain ⟨row, hrow, rfl⟩ := List.mem_map.mp h
    exact ⟨row, List.mem_map_of_mem hrow, rfl⟩

/-- Writes of URIs are seen where there is a row. -/
theorem uriOf_replay_uris (hws : ∀ token, Write.upsert token ∉ ws) :
    uriOf (replay tokens ws) a =
      if (tokens.find? a).isSome then (lastSetUri ws a).or (uriOf tokens a) else uriOf tokens a := by
  have hbare : BareRows ws := fun token htoken => absurd htoken (hws token)
  split_ifs with hrow
  · obtain ⟨row, hrow⟩ := Option.isSome_iff_exists.mp hrow
    have hafter := find?_replay hbare hrow
    rw [uriOf, hafter, uriOf, hrow]
    rfl
  · have hnone : tokens.find? a = none := by simpa using hrow
    have hafter : (replay tokens ws).find? a = none := by
      rw [← Option.not_isSome_iff_eq_none, isSome_find?_replay_iff]
      rintro (h | ⟨token, htoken, -⟩)
      · exact hrow h
      · exact hws token htoken
    rw [uriOf, hafter, uriOf, hnone]

theorem isSome_find?_replay_uris (hws : ∀ token, Write.upsert token ∉ ws) :
    ((replay tokens ws).find? a).isSome = (tokens.find? a).isSome := by
  rw [Bool.eq_iff_iff, isSome_find?_replay_iff]
  exact or_iff_left fun ⟨token, htoken, _⟩ => hws token htoken

theorem upsert_notMem_metadataWrites {events : List IndexerEvent} (token : IndexedToken) :
    Write.upsert token ∉ events.filterMap IndexerEvent.metadataWrite := by
  intro h
  obtain ⟨event, -, heq⟩ := List.mem_filterMap.mp h
  cases event <;> cases heq

/-- The URIs that the events of a page set. -/
theorem uriFor_metadataWrites {events : List IndexerEvent} :
    (events.filterMap IndexerEvent.metadataWrite).filterMap (Write.uriFor a) =
      events.filterMap (IndexerEvent.uriFor a) := by
  rw [List.filterMap_filterMap]
  apply List.filterMap_congr
  intro event _
  cases event <;> rfl

/-! ### Rows that are read -/

theorem Reflects.mono (h : Reflects feed log c tokens) (hle : p ≤ c) : Reflects feed log p tokens where
  created a ha := by
    refine h.created a ?_
    rw [take_eq_append_stretch hle, List.filterMap_append]
    exact List.mem_append_left _ ha
  uri a := (h.uri a).mono hle

/-- Rows are written that carry no URI. -/
theorem Reflects.afterRows (h : Reflects feed log c tokens) (hrows : ∀ row ∈ rows, row.metadataUri = none) :
    Reflects feed log c (replay tokens (rows.map .upsert)) where
  created a ha := isSome_find?_replay_rows.mpr (.inl (h.created a ha))
  uri a := by
    rw [uriOf_replay_rows hrows]
    exact h.uri a

/-! ### Pages that are written -/

theorem PageAt.lastSetUri_eq (h : PageAt feed log p q page) :
    lastSetUri (page.events.reduceOption.filterMap IndexerEvent.metadataWrite) a =
      lastValue (feed.uri a) ((log.take q).drop p) := by
  rw [lastSetUri, uriFor_metadataWrites, h.uris, lastValue]

theorem replay_writes (tokens : Keyed IndexedToken.address) (page : EventPage) :
    replay tokens page.writes = replay (replay tokens (page.created.map .upsert))
      (page.events.reduceOption.filterMap IndexerEvent.metadataWrite) := by
  rw [EventPage.writes, replay, replay, replay, List.foldl_append]

/-- The rows after a page: those that were there, and those that its events create. -/
theorem PageAt.isSome_find?_writes (h : PageAt feed log p q page) :
    ((replay tokens page.writes).find? a).isSome = true ↔
      (tokens.find? a).isSome = true ∨ a ∈ ((log.take q).drop p).filterMap feed.creates := by
  rw [replay_writes, isSome_find?_replay_uris upsert_notMem_metadataWrites, isSome_find?_replay_rows,
    h.created]

/-- The URI after a page: its last event for the address counts if there is a row by then. -/
theorem PageAt.uriOf_writes (h : PageAt feed log p q page) :
    uriOf (replay tokens page.writes) a = if ((replay tokens page.writes).find? a).isSome = true
      then (lastValue (feed.uri a) ((log.take q).drop p)).or (uriOf tokens a) else uriOf tokens a := by
  have hrow : ((replay tokens page.writes).find? a).isSome =
      ((replay tokens (page.created.map .upsert)).find? a).isSome := by
    rw [replay_writes, isSome_find?_replay_uris upsert_notMem_metadataWrites]
  rw [hrow, replay_writes, uriOf_replay_uris upsert_notMem_metadataWrites, uriOf_replay_rows h.bare,
    h.lastSetUri_eq]

/-- **A page is written in its turn.** -/
theorem Reflects.afterPage (hlog : feed.Ordered log) (h : Reflects feed log p tokens)
    (hpage : PageAt feed log p q page) :
    Reflects feed log q (replay tokens page.writes) := by
  have hcreated (a : String) (ha : a ∈ (log.take q).filterMap feed.creates) :
      ((replay tokens page.writes).find? a).isSome = true := by
    rw [take_eq_append_stretch hpage.le, List.filterMap_append, List.mem_append] at ha
    exact hpage.isSome_find?_writes.mpr (ha.imp_left (h.created a))
  refine ⟨hcreated, fun a => ?_⟩
  have hnext := (h.uri a).advance hpage.le hpage.le_length
  have hsame : uriOf (replay tokens page.writes) a =
      (lastValue (feed.uri a) ((log.take q).drop p)).or (uriOf tokens a) := by
    rw [hpage.uriOf_writes]
    split_ifs with hrows
    · rfl
    · -- without a row the token is not created yet, so there is nothing to show
      have hnone : lastValue (feed.uri a) (log.take q) = none := by
        by_contra hne
        exact hrows (hcreated a (hlog q a hne))
      rw [lastValue_take_of_le hpage.le, Option.or_eq_none_iff] at hnone
      rw [hnone.1, Option.none_or]
  rw [hsame]
  exact hnext

/-- The first writes of URIs are those of a stretch from `p` on. -/
theorem PageAt.exists_stretch (h : PageAt feed log p q page) (n : ℕ) :
    ∃ r, p ≤ r ∧ r ≤ q ∧
      lastSetUri ((page.events.reduceOption.filterMap IndexerEvent.metadataWrite).take n) a =
        lastValue (feed.uri a) ((log.take r).drop p) := by
  -- the writes made so far are a prefix of what the log says between `p` and `q`
  have hprefix : ((page.events.reduceOption.filterMap IndexerEvent.metadataWrite).take n).filterMap
      (Write.uriFor a) <+: ((log.take q).drop p).filterMap (feed.uri a) := by
    rw [← h.uris, ← uriFor_metadataWrites]
    exact List.IsPrefix.filterMap _ (List.take_prefix _ _)
  obtain ⟨later, hlater⟩ := hprefix
  obtain ⟨first, second, hsplit, hfirst, -⟩ := List.filterMap_eq_append_iff.mp hlater.symm
  have hlength : p + first.length ≤ q := by
    have hle : first.length ≤ ((log.take q).drop p).length := by
      rw [hsplit, List.length_append]
      exact Nat.le_add_right _ _
    rw [List.length_drop, List.length_take] at hle
    have hle' := h.le
    omega
  -- so they end at a place of the log in between
  have hstretch : (log.take (p + first.length)).drop p = first := by
    have hsame : ((log.take q).drop p).take first.length = first := by rw [hsplit, List.take_left]
    rw [List.drop_take] at hsame ⊢
    rw [List.take_take, min_eq_left (by omega)] at hsame
    rw [Nat.add_sub_cancel_left]
    exact hsame
  refine ⟨p + first.length, Nat.le_add_right _ _, hlength, ?_⟩
  rw [hstretch, lastValue, hfirst, lastSetUri]

/-- A part of a page is written. -/
theorem Reflects.afterPart (h : Reflects feed log p tokens) (hpage : PageAt feed log p q page)
    (hpart : part <+: page.writes) : Reflects feed log p (replay tokens part) := by
  obtain ⟨n, rfl⟩ : ∃ n, part = page.writes.take n := ⟨_, List.prefix_iff_eq_take.mp hpart⟩
  -- a part of the writes: rows first, then URIs; the cut is in one of the two
  rw [EventPage.writes, List.take_append, List.length_map, ← List.map_take, replay, List.foldl_append]
  have hrows : ∀ row ∈ page.created.take n, row.metadataUri = none :=
    fun row hrow => hpage.bare row (List.mem_of_mem_take hrow)
  have hafter := h.afterRows hrows
  generalize n - page.created.length = k
  have huris (token : IndexedToken) : Write.upsert token ∉
      (page.events.reduceOption.filterMap IndexerEvent.metadataWrite).take k :=
    fun hmem => upsert_notMem_metadataWrites token (List.mem_of_mem_take hmem)
  constructor
  · -- URIs neither make nor remove a row
    intro a ha
    show ((replay _ _).find? a).isSome = true
    rw [isSome_find?_replay_uris huris]
    exact hafter.created a ha
  · intro a
    show Since (feed.uri a) log p (uriOf (replay _ _) a)
    rw [uriOf_replay_uris huris]
    split_ifs
    · obtain ⟨r, hr, hrq, hlast⟩ := hpage.exists_stretch (a := a) k
      rw [hlast]
      exact (hafter.uri a).segment le_rfl hr (hrq.trans hpage.le_length)
    · exact hafter.uri a

/-! ### Pages in their turn -/

/-- **When pages have been written in their turn**, the rows reflect what they have reached. -/
theorem Reflects.afterPages (hlog : feed.Ordered log) (h : Reflects feed log p tokens)
    (hpages : Covers feed log p pages q) :
    Reflects feed log q (replay tokens (pages.flatMap EventPage.writes)) := by
  induction hpages generalizing tokens with
  | nil => exact h
  | @cons p q r page pages hpage _ ih =>
    have hrest := ih (h.afterPage hlog hpage)
    rw [List.flatMap_cons, replay, List.foldl_append]
    exact hrest

/-- The stream grows. -/
theorem Reflects.append (h : Reflects feed log c tokens) (hc : c ≤ log.length) (new : List ε) :
    Reflects feed (log ++ new) c tokens where
  created a ha := by
    rw [List.take_append_of_le_length hc] at ha
    exact h.created a ha
  uri a := (h.uri a).append new

end

end StellarForge.Indexer.Interrupted
