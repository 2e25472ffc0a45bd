import StellarForge.Indexer.CycleEnds
import StellarForge.Indexer.Undisturbed
import StellarForge.System.Deployment

/-!
# A node that pages through the events

An RPC node numbers the events of the factory, and marks the place behind the first `n` of them with a paging
token.  A request that names a cursor is answered from there, any other from the first event that the node
has kept.  How long a page gets is up to the node, which may also lag behind the ledger.

* `EventNode`: how a node shows the events, and which paging tokens it hands out;
* `EventNode.Serves`: requests are answered from the stream;
* `EventNode.Shows`: what a cycle reads of the chain at one moment comes from such a node;
* `EventNode.Shows.pagesThrough`: **what the indexer reads then are pages that follow one another.**
-/

namespace StellarForge.System

open Soroban Contract Factory Transition Collections Indexer
open Indexer.Interrupted (Feed PageAt PagesThrough ChainReader ofRpcPage created_ofRpcPage
  reduceOption_ofRpcPage)
open Frontend.Tokens (ViewSdk)
open Frontend.TokenEvents (topic)

/-- How a node shows the event `x` that has `n` events before it, and the paging tokens. -/
structure EventNode (sdk : ViewSdk) where
  raw : ℕ → ℕ × Event → RawEvent
  pagingToken : ℕ → String
  injective : Function.Injective pagingToken
  /-- An empty cursor would be none. -/
  nonempty : ∀ n, pagingToken n ≠ ""
  delivers : ∀ n x, Delivers sdk (raw n x) x.1 x.2
  pagingToken_raw : ∀ n x, (raw n x).pagingToken = pagingToken (n + 1)

/-- What the SDK makes of addresses and texts can be read back as such. -/
structure Readable (sdk : ViewSdk) : Prop where
  injective : Function.Injective sdk.address
  address_ne : ∀ a, sdk.address a ≠ ""
  text_ne : ∀ {bytes : Bytes}, bytes ≠ [] → sdk.text bytes ≠ ""

/-- No metadata is empty. -/
def Nonempties (stream : List (ℕ × Event)) : Prop :=
  ∀ x ∈ stream, ∀ uri ∈ x.2.metadataUri, uri ≠ []

namespace EventNode

variable {sdk : ViewSdk} (node : EventNode sdk)

/-- The stream, as the node shows it. -/
def rendered (stream : List (ℕ × Event)) : List RawEvent := stream.mapIdx node.raw

/-- The stream, as the indexer means it. -/
def feed : Feed (ℕ × Event) where
  creates x := x.2.createdToken.map sdk.address
  uri a x := match x.2 with
    | .metaSet token uri _ => if sdk.address token = a then some (sdk.text uri) else none
    | _ => none
  pagingToken := node.pagingToken
  inj := node.injective

/-- These are the events from `p` to `q`, as the node shows them. -/
structure Stretch (stream : List (ℕ × Event)) (p q : ℕ) (events : List RawEvent) : Prop where
  le : p ≤ q
  le_length : q ≤ stream.length
  events : events = ((node.rendered stream).take q).drop p

/-- The node answers from the stream, of which it has dropped the first `low` events. -/
structure Serves (stream : List (ℕ × Event)) (low : ℕ) (rpc : SorobanRpc) : Prop where
  resumes : ∀ {n limit : ℕ} {response : EventsResponse}, n ≤ stream.length →
    rpc.getEvents (.cursor (node.pagingToken n)) limit = .ok response →
    ∃ q, node.Stretch stream n q response.events
  starts : ∀ {start : EventsStart} {limit : ℕ} {response : EventsResponse},
    (∀ token, start ≠ .cursor token) → rpc.getEvents start limit = .ok response →
    ∃ q, node.Stretch stream low q response.events

/-- What a cycle reads at one moment has been answered by servers that are true of the deployment, and the
pages come from this node.  A request that fails is a call that rejects, and its answer is never read. -/
structure Shows (S : Deployment) (low : ℕ) (chain : ChainReader) : Prop where
  tokenByIndex : ∀ {i : ℕ} {token : IndexedToken}, chain.getTokenByIndex i = some token →
    ∃ rpc, Answers sdk S rpc ∧ getTokenByIndex rpc i = some token
  page : ∀ cursor, ∃ rpc page, Answers sdk S rpc ∧ node.Serves S.stream low rpc ∧
    getEventPage rpc cursor = .ok page ∧ chain.getEventPage cursor = ofRpcPage page

/-- What the indexer reads of an event tells of it what the stream does. -/
structure Tells (read : Option IndexerEvent) (x : ℕ × Event) : Prop where
  created : read.bind (fun
    | .created token => some token.address
    | .metadata .. => none) = node.feed.creates x
  uri : ∀ a, read.bind (IndexerEvent.uriFor a) = node.feed.uri a x

variable {node} {stream : List (ℕ × Event)} {rpc : SorobanRpc} {x : ℕ × Event} {raw : RawEvent}
  {read : Option IndexerEvent} {reads : List (Option IndexerEvent)} {events : List RawEvent} {low n p q : ℕ}

/-! ### One event -/

/-- An event that is neither a creation nor metadata is read as nothing. -/
theorem readEvent_of_other (hcreated : raw.action ≠ "created") (hmeta : raw.action ≠ "meta") :
    readEvent rpc raw = .ok none := by
  rw [readEvent, if_neg hcreated, if_neg hmeta]

/-- **What is read of an event that is delivered.** -/
theorem tells_of_delivers (hsdk : Readable sdk) (hx : ∀ uri ∈ x.2.metadataUri, uri ≠ [])
    (hdelivers : Delivers sdk raw x.1 x.2) (hread : readEvent rpc raw = .ok read) : node.Tells read x := by
  obtain ⟨time, ev⟩ := x
  have haction : raw.action = topic ev := hdelivers.action
  cases ev with
  | created token creator name symbol =>
    have hvalue := hdelivers.value _ rfl
    have haction : raw.action = "created" := haction
    have haddress : sdk.address token ≠ "" := hsdk.address_ne token
    -- the address is not empty, so a row is made of the event
    rw [readEvent, if_pos haction, hvalue] at hread
    obtain rfl := Except.ok.inj ((if_neg haddress).symm.trans hread)
    exact ⟨rfl, fun a => rfl⟩
  | metaSet token uri version =>
    have hvalue := hdelivers.value _ rfl
    have hne : sdk.address token ≠ "" ∧ sdk.text uri ≠ "" :=
      ⟨hsdk.address_ne token, hsdk.text_ne (hx uri rfl)⟩
    have haction : raw.action = "meta" := haction
    have hcreated : raw.action ≠ "created" := by rw [haction]; decide
    rw [readEvent, if_neg hcreated, if_pos haction, hvalue] at hread
    obtain rfl := Except.ok.inj ((if_pos hne).symm.trans hread)
    exact ⟨rfl, fun a => rfl⟩
  -- other topics are read and say nothing
  | _ =>
    have hcreated : raw.action ≠ "created" := by simp [haction, topic]
    have hmeta : raw.action ≠ "meta" := by simp [haction, topic]
    obtain rfl := Except.ok.inj ((readEvent_of_other hcreated hmeta).symm.trans hread)
    exact ⟨rfl, fun a => rfl⟩

/-! ### A page -/

/-- The results of a traversal, one by one. -/
theorem forall₂_of_mapM {α β : Type} {f : α → Except String β} {xs : List α} {ys : List β}
    (h : xs.mapM f = .ok ys) : List.Forall₂ (fun a b => f a = .ok b) xs ys := by
  induction xs generalizing ys with
  | nil =>
    obtain rfl := Except.ok.inj h
    exact .nil
  | cons a xs ih =>
    rw [List.mapM_cons] at h
    obtain ⟨b, hb, hrest⟩ := exists_of_bind_ok h
    obtain ⟨bs, hbs, hresult⟩ := exists_of_bind_ok hrest
    obtain rfl := Except.ok.inj hresult
    exact .cons hb (ih hbs)

theorem filterMap_eq_of_forall₂ {α β γ : Type} {f : α → Option γ} {g : β → Option γ} {xs : List α}
    {ys : List β} (h : List.Forall₂ (fun a b => f a = g b) xs ys) : xs.filterMap f = ys.filterMap g := by
  induction h with
  | nil => rfl
  | cons hfirst _ ih => rw [List.filterMap_cons, List.filterMap_cons, hfirst, ih]

theorem forall₂_rendered (stream : List (ℕ × Event)) :
    List.Forall₂ (fun raw x => Delivers sdk raw x.1 x.2) (node.rendered stream) stream := by
  rw [List.forall₂_iff_get]
  refine ⟨List.length_mapIdx, fun i hi hi' => ?_⟩
  have hrendered : (node.rendered stream).get ⟨i, hi⟩ = node.raw i (stream.get ⟨i, hi'⟩) :=
    List.getElem_mapIdx
  rw [hrendered]
  exact node.delivers i _

/-- The events of a page tell of a stretch of the stream what it does. -/
theorem Stretch.tells (hsdk : Readable sdk) (hstream : Nonempties stream)
    (h : node.Stretch stream p q events) (hreads : events.mapM (readEvent rpc) = .ok reads) :
    List.Forall₂ node.Tells reads ((stream.take q).drop p) := by
  have hevents : List.Forall₂ (fun raw x => Delivers sdk raw x.1 x.2) events ((stream.take q).drop p) := by
    rw [h.events]
    exact List.forall₂_drop p (List.forall₂_take q (forall₂_rendered stream))
  have hmem : ∀ x ∈ (stream.take q).drop p, x ∈ stream :=
    fun x hx => List.mem_of_mem_take (List.mem_of_mem_drop hx)
  have hread := forall₂_of_mapM hreads
  clear hreads h
  generalize (stream.take q).drop p = stretch at hevents hmem ⊢
  induction hevents generalizing reads with
  | nil =>
    cases hread
    exact .nil
  | cons hfirst _ ih =>
    cases hread with
    | cons hraw hrest =>
      have hx := hstream _ (hmem _ List.mem_cons_self)
      exact .cons (tells_of_delivers hsdk hx hfirst hraw)
        (ih hrest fun x hx => hmem x (List.mem_cons_of_mem _ hx))

/-- The paging token of the last event of a stretch. -/
theorem Stretch.pagingToken (h : node.Stretch stream p q events) (hraw : events.getLast? = some raw) :
    raw.pagingToken = node.pagingToken q := by
  rw [h.events, List.getLast?_drop] at hraw
  split_ifs at hraw with hle
  have hlength : (node.rendered stream).length = stream.length := List.length_mapIdx
  have hle' := h.le_length
  rw [List.length_take] at hle
  rw [List.getLast?_take] at hraw
  split_ifs at hraw with hzero
  have hq : q - 1 < stream.length := by omega
  rw [List.getElem?_eq_getElem (by omega), Option.some_or] at hraw
  rw [← Option.some.inj hraw]
  unfold rendered
  rw [List.getElem_mapIdx, node.pagingToken_raw]
  congr 1
  omega

/-- **A page that is read is a stretch of the stream.** -/
theorem Stretch.pageAt {cursor : Option String} {response : EventsResponse} {page : EventPage}
    (hsdk : Readable sdk) (hstream : Nonempties stream) (h : node.Stretch stream p q response.events)
    (hget : rpc.getEvents (eventsStart rpc cursor) EVENT_PAGE_SIZE = .ok response)
    (hpage : getEventPage rpc cursor = .ok page) : PageAt node.feed stream p q (ofRpcPage page) := by
  have hbare := createdTokens_bare hpage
  have hcreated := created_ofRpcPage hpage
  obtain ⟨response', hget', hrest⟩ := exists_of_bind_ok hpage
  obtain rfl := Except.ok.inj (hget.symm.trans hget')
  obtain ⟨reads, hreads, hresult⟩ := exists_of_bind_ok hrest
  have htells := h.tells hsdk hstream hreads
  have hevents : reads.filterMap id = page.events := congrArg EventPage.events (Except.ok.inj hresult)
  refine ⟨h.le, h.le_length, ?_, fun row hrow => ?_, fun a => ?_, fun token htoken => ?_⟩
  · -- rows of the page, their URIs, and the cursor, each event by event
    rw [hcreated, ← hevents, createdTokens, List.filterMap_filterMap, List.map_filterMap]
    apply filterMap_eq_of_forall₂
    refine htells.imp fun read x hread => ?_
    rw [← hread.created]
    rcases read with _ | _ | _ <;> rfl
  · rw [hcreated] at hrow
    exact hbare row hrow
  · rw [reduceOption_ofRpcPage, ← hevents, List.filterMap_filterMap]
    apply filterMap_eq_of_forall₂
    exact htells.imp fun read x hread => hread.uri a
  · -- a page that is not full ends the walk
    have hcursor : (if response.events.length < EVENT_PAGE_SIZE then none
        else response.events.getLast?.map RawEvent.pagingToken) = page.cursor :=
      congrArg EventPage.cursor (Except.ok.inj hresult)
    have htoken : token ∈ page.cursor := htoken
    rw [← hcursor] at htoken
    split_ifs at htoken
    · cases htoken
    · obtain ⟨raw, hraw, rfl⟩ := Option.map_eq_some_iff.mp htoken
      exact h.pagingToken hraw

/-- **What the indexer reads are pages that follow one another.** -/
theorem Shows.pagesThrough {S : Deployment} {chain : ChainReader} (hsdk : Readable sdk)
    (hstream : Nonempties S.stream) (h : node.Shows S low chain) :
    PagesThrough node.feed S.stream low chain where
  cursor {p} hp := by
    obtain ⟨rpc, page, -, hserves, hpage, hread⟩ := h.page (some (node.pagingToken p))
    obtain ⟨response, hget, -⟩ := exists_of_bind_ok hpage
    -- a cursor that is not empty is the place where the request starts
    have hstart : eventsStart rpc (some (node.pagingToken p)) = .cursor (node.pagingToken p) := by
      have hsome : (some (node.pagingToken p)).filter (· ≠ "") = some (node.pagingToken p) :=
        Option.filter_eq_some_iff.mpr ⟨rfl, by simpa using node.nonempty p⟩
      rw [eventsStart, hsome]
    have hresumes : rpc.getEvents (.cursor (node.pagingToken p)) EVENT_PAGE_SIZE = .ok response := by
      rw [← hstart]
      exact hget
    obtain ⟨q, hq⟩ := hserves.resumes hp hresumes
    refine ⟨q, ?_⟩
    show PageAt node.feed S.stream p q (chain.getEventPage (some (node.pagingToken p)))
    rw [hread]
    exact hq.pageAt hsdk hstream hget hpage
  start := by
    obtain ⟨rpc, page, -, hserves, hpage, hread⟩ := h.page none
    obtain ⟨response, hget, -⟩ := exists_of_bind_ok hpage
    -- without one it starts at a ledger
    have hstart : ∀ token, eventsStart rpc none ≠ .cursor token := by
      intro token hstart
      rw [eventsStart, Option.filter_none] at hstart
      cases hledger : rpc.startLedger <;> rw [hledger] at hstart <;> cases hstart
    obtain ⟨q, hq⟩ := hserves.starts hstart hget
    refine ⟨q, ?_⟩
    rw [hread]
    exact hq.pageAt hsdk hstream hget hpage

end EventNode

end StellarForge.System
