import StellarForge.Frontend.Events

/-!
# The event history that the frontend collects

A node serves a stream of events in pages; the frontend follows the cursor until a page holds fewer
events than it asked for.  It counts the events that it could parse.

* `fetchAllContractEvents_eq`: what is collected is `collect` of the served pages;
* `historyComplete_iff`: **every event that can be parsed is collected exactly once if and only if none
  of them comes after a page that stops**;
* `not_historyComplete_sampleStream`: an unknown topic on the first of two pages.
-/

namespace StellarForge.Frontend

open Collections

/-! ### The node -/

/-- A stream of events, oldest first, cut into the pages that the node serves; no two events have the
same token. -/
structure ServedStream where
  pages : List (List RpcEventResponse)
  tokens_nodup : (pages.flatten.map RpcEventResponse.pagingToken).Nodup

/-- The token of the last event of a page. -/
def lastToken (page : List RpcEventResponse) : Option String :=
  page.getLast?.map RpcEventResponse.pagingToken

/-- The page after the one that ends with the cursor, or the first; past the last one the page is
empty. -/
def ServedStream.getEvents (stream : ServedStream) (_limit : ℕ) (cursor : Option String) :
    Option (List RpcEventResponse) :=
  some <| match cursor with
    | none => stream.pages.headD []
    | some token =>
      (stream.pages.dropWhile fun page => decide (lastToken page ≠ some token)).tail.headD []

variable {sdk : EventSdk} {pageSize : ℕ} {stream : ServedStream} {page : List RpcEventResponse}
  {earlier later : List (List RpcEventResponse)} {token : String}

/-- An earlier page has another last token. -/
theorem lastToken_ne (hpages : stream.pages = earlier ++ page :: later)
    (hlast : lastToken page = some token) {p : List RpcEventResponse} (hp : p ∈ earlier) :
    lastToken p ≠ some token := by
  intro heq
  obtain ⟨e, he, htoken⟩ := Option.map_eq_some_iff.mp hlast
  obtain ⟨e', he', htoken'⟩ := Option.map_eq_some_iff.mp heq
  have hmem : token ∈ earlier.flatten.map RpcEventResponse.pagingToken := by
    rw [← htoken']
    exact List.mem_map_of_mem (List.mem_flatten.mpr ⟨p, hp, List.mem_of_getLast? he'⟩)
  have hmem' : token ∈ (page :: later).flatten.map RpcEventResponse.pagingToken := by
    rw [← htoken]
    apply List.mem_map_of_mem
    exact List.mem_flatten.mpr ⟨page, List.mem_cons_self, List.mem_of_getLast? he⟩
  have hnodup := stream.tokens_nodup
  rw [hpages, List.flatten_append, List.map_append, List.nodup_append] at hnodup
  exact hnodup.2.2 token hmem token hmem' rfl

/-- After a page the node serves the next one. -/
theorem getEvents_after (hpages : stream.pages = earlier ++ page :: later)
    (hlast : lastToken page = some token) :
    stream.getEvents pageSize (some token) = some (later.headD []) := by
  have hdrop : stream.pages.dropWhile (fun page => decide (lastToken page ≠ some token)) =
      page :: later := by
    rw [hpages, List.dropWhile_append_of_pos]
    · exact List.dropWhile_cons_of_neg (by simpa using hlast)
    · intro p hp
      exact decide_eq_true (lastToken_ne hpages hlast hp)
  rw [ServedStream.getEvents, hdrop]
  rfl

/-! ### The walk -/

/-- The events of a page, as `getContractEvents` returns them. -/
def pageEvents (sdk : EventSdk) (page : List RpcEventResponse) : List ContractEvent :=
  (page.filterMap (parseRpcEvent sdk)).mergeSort fun a b => b.ledger ≤ a.ledger

/-- After this page the walk ends: fewer events could be parsed than were asked for, or there is no
cursor. -/
def Stops (sdk : EventSdk) (pageSize : ℕ) (page : List RpcEventResponse) : Bool :=
  decide ((page.filterMap (parseRpcEvent sdk)).length < pageSize ∨
    (lastToken page).filter (· ≠ "") = none)

theorem length_pageEvents : (pageEvents sdk page).length =
    (page.filterMap (parseRpcEvent sdk)).length := by
  rw [pageEvents, List.length_mergeSort]

theorem stops_nil : Stops sdk pageSize [] = true := by
  apply decide_eq_true
  exact .inr rfl

/-- One round of the loop, when the node serves `page`. -/
theorem collectEvents_succ {fuel : ℕ} {cursor : Option String} {collected : List ContractEvent}
    (hserved : stream.getEvents pageSize (cursor.filter (· ≠ "")) = some page) :
    collectEvents (getContractEvents sdk stream.getEvents) pageSize (fuel + 1) cursor collected =
      if Stops sdk pageSize page then some (collected ++ pageEvents sdk page)
      else collectEvents (getContractEvents sdk stream.getEvents) pageSize fuel (lastToken page)
        (collected ++ pageEvents sdk page) := by
  have hresult : getContractEvents sdk stream.getEvents pageSize cursor =
      some ⟨pageEvents sdk page, lastToken page⟩ := by
    rw [getContractEvents, hserved]
    rfl
  rw [collectEvents, hresult]
  show (if (pageEvents sdk page).length < pageSize ∨ (lastToken page).filter (· ≠ "") = none
    then _ else _) = _
  -- the source counts the events that parse, not those served
  rw [length_pageEvents]
  by_cases hstops : (page.filterMap (parseRpcEvent sdk)).length < pageSize ∨
      (lastToken page).filter (· ≠ "") = none
  · have htrue : Stops sdk pageSize page = true := decide_eq_true hstops
    rw [if_pos hstops, if_pos htrue]
  · have hfalse : Stops sdk pageSize page = false := decide_eq_false hstops
    rw [if_neg hstops, hfalse, if_neg Bool.false_ne_true]

/-- From the first of the pages that are left, the loop collects up to one that stops. -/
theorem collectEvents_eq (hpages : stream.pages = earlier ++ later) {fuel : ℕ}
    {cursor : Option String} {collected : List ContractEvent}
    (hserved : stream.getEvents pageSize (cursor.filter (· ≠ "")) = some (later.headD [])) :
    collectEvents (getContractEvents sdk stream.getEvents) pageSize fuel cursor collected =
      some (collected ++
        collect (Stops sdk pageSize) (pageEvents sdk) (later.take fuel)) := by
  induction fuel generalizing earlier later cursor collected with
  | zero =>
    show some collected = some (collected ++ [])
    rw [List.append_nil]
  | succ fuel ih =>
    rw [collectEvents_succ hserved]
    cases later with
    | nil =>
      have hnil : pageEvents sdk [] = [] := List.mergeSort_nil
      rw [List.headD_nil, if_pos stops_nil, hnil, List.take_nil]
      rfl
    | cons page later =>
      rw [List.headD_cons, List.take_succ_cons]
      cases hstops : Stops sdk pageSize page with
      | true => rw [if_pos rfl, collect_cons_of_stops hstops]
      | false =>
        rw [if_neg Bool.false_ne_true, collect_cons_of_not_stops hstops, ← List.append_assoc]
        -- the page has a last event, with a token that is not empty
        have hcursor : (lastToken page).filter (· ≠ "") ≠ none :=
          (not_or.mp (of_decide_eq_false hstops)).2
        obtain ⟨token, htoken⟩ := Option.ne_none_iff_exists'.mp hcursor
        have hlast : lastToken page = some token := (Option.filter_eq_some_iff.mp htoken).1
        have hpages' : stream.pages = (earlier ++ [page]) ++ later := by
          rw [hpages, List.append_assoc, List.singleton_append]
        apply ih hpages'
        rw [htoken]
        exact getEvents_after hpages hlast

theorem fetchAllContractEvents_eq (sdk : EventSdk) (pageSize : ℕ) (stream : ServedStream) :
    fetchAllContractEvents (getContractEvents sdk stream.getEvents) pageSize =
      some (collect (Stops sdk pageSize) (pageEvents sdk) (stream.pages.take MAX_PAGES)) := by
  have hpages : stream.pages = [] ++ stream.pages := rfl
  rw [fetchAllContractEvents, collectEvents_eq hpages rfl]
  rfl

/-! ### Completeness -/

/-- The events that can be parsed, of the pages that the frontend is willing to read. -/
def parseableEvents (sdk : EventSdk) (stream : ServedStream) : List ContractEvent :=
  (stream.pages.take MAX_PAGES).flatten.filterMap (parseRpcEvent sdk)

/-- The history is returned, and is made of these events, each of them once. -/
def HistoryComplete (sdk : EventSdk) (pageSize : ℕ) (stream : ServedStream) : Prop :=
  ∃ history, fetchAllContractEvents (getContractEvents sdk stream.getEvents) pageSize =
    some history ∧ history.Perm (parseableEvents sdk stream)

/-- After a page with fewer than `pageSize` events that can be parsed, or with no cursor, no event can
be parsed. -/
def NothingAfterShortPage (sdk : EventSdk) (pageSize : ℕ) (pages : List (List RpcEventResponse)) :
    Prop :=
  ∀ earlier page later, pages = earlier ++ page :: later →
    (page.filterMap (parseRpcEvent sdk)).length < pageSize ∨
      (∀ event ∈ page.getLast?, event.pagingToken = "") →
    ∀ event ∈ later.flatten, parseRpcEvent sdk event = none

/-- The pages that end a walk. -/
theorem stops_iff : Stops sdk pageSize page = true ↔
    (page.filterMap (parseRpcEvent sdk)).length < pageSize ∨
      ∀ event ∈ page.getLast?, event.pagingToken = "" := by
  rw [Stops, decide_eq_true_eq]
  refine or_congr Iff.rfl ?_
  rw [Option.filter_eq_none_iff]
  constructor
  · intro h event hevent
    have htoken : lastToken page = some event.pagingToken := by
      rw [lastToken, Option.mem_def.mp hevent, Option.map_some]
    simpa using h _ htoken
  · intro h token htoken
    obtain ⟨event, hevent, rfl⟩ := Option.map_eq_some_iff.mp htoken
    simpa using h event hevent

theorem flatMap_pageEvents_perm (sdk : EventSdk) (pages : List (List RpcEventResponse)) :
    (pages.flatMap (pageEvents sdk)).Perm (pages.flatten.filterMap (parseRpcEvent sdk)) := by
  induction pages with
  | nil => exact .refl _
  | cons page pages ih =>
    rw [List.flatMap_cons, List.flatten_cons, List.filterMap_append]
    exact (List.mergeSort_perm ..).append ih

/-- Pages without events are pages of which nothing can be decoded. -/
theorem flatMap_pageEvents_eq_nil {pages : List (List RpcEventResponse)} :
    pages.flatMap (pageEvents sdk) = [] ↔
      ∀ event ∈ pages.flatten, parseRpcEvent sdk event = none := by
  have hperm := flatMap_pageEvents_perm sdk pages
  rw [← List.filterMap_eq_nil_iff]
  constructor
  · intro h
    rw [h] at hperm
    exact hperm.nil_eq.symm
  · intro h
    rw [h] at hperm
    exact hperm.eq_nil

/-- **The history is complete if and only if no event that can be parsed comes after a page that has
fewer than `pageSize` of them, or that has no cursor.** -/
theorem historyComplete_iff (sdk : EventSdk) (pageSize : ℕ) (stream : ServedStream) :
    HistoryComplete sdk pageSize stream ↔
      NothingAfterShortPage sdk pageSize (stream.pages.take MAX_PAGES) := by
  have hall := flatMap_pageEvents_perm sdk (stream.pages.take MAX_PAGES)
  have hcomplete : HistoryComplete sdk pageSize stream ↔
      (collect (Stops sdk pageSize) (pageEvents sdk) (stream.pages.take MAX_PAGES)).Perm
        ((stream.pages.take MAX_PAGES).flatMap (pageEvents sdk)) := by
    constructor
    · rintro ⟨history, hfetch, hperm⟩
      rw [fetchAllContractEvents_eq] at hfetch
      rw [Option.some.inj hfetch]
      exact hperm.trans hall.symm
    · intro hperm
      exact ⟨_, fetchAllContractEvents_eq sdk pageSize stream, hperm.trans hall⟩
  rw [hcomplete, collect_perm_iff]
  constructor
  · intro h earlier page later hpages hstops
    exact flatMap_pageEvents_eq_nil.mp (h earlier page later hpages (stops_iff.mpr hstops))
  · intro h earlier page later hpages hstops
    exact flatMap_pageEvents_eq_nil.mpr (h earlier page later hpages (stops_iff.mp hstops))

/-! ### An unknown topic -/

/-- Topics stand for themselves, and all payloads are empty. -/
def sampleSdk : EventSdk where
  fromXDR text := some (if text = "" then .vec [] else .sym text)
  encodeEd25519PublicKey _ := ""
  getTime _ := none

/-- An event of a token, with nothing in it but its topic. -/
def sampleEvent (token topic : String) : RpcEventResponse where
  id := token
  ledger := 1
  ledgerClosedAt := ""
  pagingToken := token
  txHash := ""
  topic := ["factory", topic]
  value := ""

/-- The first page holds a topic that is not known. -/
def sampleStream : ServedStream where
  pages := [[sampleEvent "1" "created", sampleEvent "2" "renamed"], [sampleEvent "3" "created"]]
  tokens_nodup := by decide

/-- Of two tokens the second is missing. -/
theorem not_historyComplete_sampleStream :
    ¬ ∀ sdk pageSize stream, (∀ page ∈ stream.pages, page.length ≤ pageSize) →
      HistoryComplete sdk pageSize stream := by
  intro h
  obtain ⟨history, hfetch, hperm⟩ :=
    h sampleSdk 2 sampleStream (by decide)
  have hlength := hperm.length_eq
  have hstops : Stops sampleSdk 2 [sampleEvent "1" "created", sampleEvent "2" "renamed"] = true := by
    decide
  have hpages : sampleStream.pages.take MAX_PAGES = sampleStream.pages :=
    List.take_of_length_le (by decide)
  rw [fetchAllContractEvents_eq, hpages, sampleStream, collect_cons_of_stops hstops] at hfetch
  rw [← Option.some.inj hfetch, length_pageEvents, parseableEvents, hpages] at hlength
  revert hlength
  decide

end StellarForge.Frontend
