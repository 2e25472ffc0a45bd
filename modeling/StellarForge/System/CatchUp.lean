import StellarForge.System.EventNode
import StellarForge.System.IndexSoundness

/-!
# The index follows the factory

A deployment whose cycles read the events of the factory from a node.  Calls of the factory and cycles come
in any order, any call of a cycle may reject, and a cycle that has no cursor starts again from the first event
that the node has kept.  `upto` is ghost: so many of the events have been brought into the rows.

* `Tracks`: what is kept true: the rows describe the tokens, the events tell all of the factory, and the rows
  reflect what `upto` promises;
* `Tracks.invoke`, `Tracks.cycle`: a call of the factory and a cycle keep it;
* `Tracks.exists_followStep`: whatever a cycle has done, there is such an `upto`;
* `index_follows`: **as long as the node keeps the events that the rows lack, every token that the first
  `upto` events create has a row, and the URI of a row stood at some time since; where `upto` is the end of
  the stream the rows say of every token what the factory does.**
-/

namespace StellarForge.System

open Soroban Contract Factory Transition Collections Indexer Concurrency
open Indexer.Interrupted (Surroundings Rejection Ends StartsAt Reflects Bare RowRead PageRead ofRpcPage
  created_ofRpcPage source_getTokenByIndex exists_ends_of_runIngest)
open Frontend.Tokens (ViewSdk)

/-- A deployment, and the number of the events that have been brought into the rows. -/
structure Followed extends Deployment where
  upto : ℕ

/-- What happens: a call of the factory, or a cycle over a node that has dropped the first `low` events. -/
inductive FollowAction
  | invoke (i : Invocation)
  | cycle (env : Unreliable Surroundings Rejection) (low : ℕ)

/-- Where a cycle begins to read. -/
def Followed.startsAt (F : Followed) (low : ℕ) : ℕ :=
  if F.index.store.state.lastCursor = none then low else F.upto

/-- One step.  A cycle that has written nothing of the events leaves `upto` alone; otherwise it is where the
pages end that the cycle has saved. -/
inductive FollowStep {sdk : ViewSdk} (node : EventNode sdk) (F : Followed) : FollowAction → Followed → Prop
  | invoke {i : Invocation} {S : Deployment} (h : DeploymentStep sdk F.toDeployment (.invoke i) S) :
    FollowStep node F (.invoke i) ⟨S, F.upto⟩
  | cycle {env : Unreliable Surroundings Rejection} {low q : ℕ} {o : Except Rejection IngestResult}
    {s : Counted Indexer.Interrupted.Cycling} {saved : List Indexer.Interrupted.EventPage}
    {part : List Write} (hchain : ∀ n, node.Shows F.toDeployment low (env.answers.chain n))
    (hrun : Indexer.Interrupted.runIngest env (Indexer.Interrupted.start F.index.store) = some (o, s))
    (hends : Ends node.feed F.stream env.answers (F.startsAt low) q saved part
      (Indexer.Interrupted.start F.index.store).state s.state) :
    FollowStep node F (.cycle env low)
      { F with index := s.state.toIngesting, upto := if saved = [] ∧ part = [] then F.upto else q }

/-- A cycle without a cursor finds the events that the rows lack. -/
def FollowAction.Retained (F : Followed) : FollowAction → Prop
  | .invoke _ => True
  | .cycle _ low => F.index.store.state.lastCursor = none → low ≤ F.upto

/-- What has happened since the construction of the factory, most recent first, has led to `F`. -/
def Tracked {sdk : ViewSdk} (node : EventNode sdk) (args : ConstructorArgs) (h : List FollowAction)
    (F : Followed) : Prop :=
  ∃ env w₀, Constructed env args w₀ ∧
    Guarded (FollowStep node) (fun _ F a => a.Retained F) ⟨launched env w₀, 0⟩ h F

/-- The URI that the token `a` has after the first `n` events, if it has one. -/
def uriAfter (F : Followed) (n : ℕ) (a : Address) : Option Bytes :=
  lastValue (Event.uriFor a) ((F.stream.take n).map Prod.snd)

/-- What is kept true. -/
structure Tracks {sdk : ViewSdk} (node : EventNode sdk) (F : Followed) (m : FactoryModel) : Prop where
  history : History F.toDeployment m
  chronicle : Chronicle F.world.events m
  events : F.stream.map Prod.snd = F.world.events
  valid : ∀ uri ∈ F.world.metadataUris, ValidUri uri
  index : IndexTrue sdk m F.index.store.tokens
  upto_le : F.upto ≤ F.stream.length
  cursor : ∀ token ∈ F.index.store.state.lastCursor, token = node.pagingToken F.upto
  reflects : Reflects node.feed F.stream F.upto F.index.store.tokens

section

variable {sdk : ViewSdk} {node : EventNode sdk} {args : ConstructorArgs} {h : List FollowAction}
  {F F' : Followed} {S : Deployment} {env : Env} {w : World} {m : FactoryModel} {i : Invocation}
  {answers : Surroundings} {low n : ℕ} {stream : List (ℕ × Event)} {a : Address} {x : ℕ × Event}
  {row : IndexedToken} {t : Token}

/-! ### What the feed says -/

theorem feed_uri (hsdk : Readable sdk) : node.feed.uri (sdk.address a) x = (x.2.uriFor a).map sdk.text := by
  obtain ⟨time, ev⟩ := x
  cases ev with
  | metaSet token uri version =>
    show (if sdk.address token = sdk.address a then some (sdk.text uri) else none) =
      (if token = a then some uri else none).map sdk.text
    by_cases ha : token = a
    · rw [if_pos ha, if_pos (congrArg sdk.address ha)]
      rfl
    · rw [if_neg ha, if_neg fun hsame => ha (hsdk.injective hsame)]
      rfl
  | _ => rfl

theorem lastValue_feed (hsdk : Readable sdk) : lastValue (node.feed.uri (sdk.address a)) stream =
    (lastValue (Event.uriFor a) (stream.map Prod.snd)).map sdk.text := by
  have hsame : node.feed.uri (sdk.address a) = fun x => (x.2.uriFor a).map sdk.text :=
    funext fun x => feed_uri hsdk
  rw [hsame, lastValue_comp, lastValue_map]

/-- Metadata is told of after the creation only. -/
theorem Tracks.ordered (hsdk : Readable sdk) (hF : Tracks node F m) : node.feed.Ordered F.stream := by
  intro n a hne
  -- some event sets metadata, so the text is that of an address
  obtain ⟨x, hx, huri⟩ : ∃ x ∈ F.stream.take n, node.feed.uri a x ≠ none := by
    by_contra hnone
    refine hne (lastValue_eq_none.mpr fun x hx => ?_)
    by_contra huri
    exact hnone ⟨x, hx, huri⟩
  have haddress : ∃ token, sdk.address token = a := by
    obtain ⟨time, ev⟩ := x
    cases ev with
    | metaSet token uri version =>
      refine ⟨token, ?_⟩
      by_contra ha
      exact huri (if_neg ha)
    | _ => exact absurd rfl huri
  obtain ⟨token, rfl⟩ := haddress
  rw [lastValue_feed hsdk, List.map_take, hF.events] at hne
  have hset : lastValue (Event.uriFor token) (F.world.events.take n) ≠ none :=
    fun hnone => hne (by rw [hnone]; rfl)
  have hcreated := hF.chronicle.order n token hset
  rw [← hF.events, ← List.map_take] at hcreated
  obtain ⟨ev, hev, htoken⟩ := List.mem_filterMap.mp hcreated
  obtain ⟨x, hx, rfl⟩ := List.mem_map.mp hev
  exact List.mem_filterMap.mpr ⟨x, hx, congrArg (Option.map sdk.address) htoken⟩

theorem Tracks.nonempties (hF : Tracks node F m) : Nonempties F.stream := by
  intro x hx uri huri
  have hevent : x.2 ∈ F.world.events := by
    rw [← hF.events]
    exact List.mem_map_of_mem hx
  have hlength := (hF.valid uri (List.mem_filterMap.mpr ⟨x.2, hevent, huri⟩)).length_ge
  rintro rfl
  exact absurd hlength (by decide)

/-! ### A call of the factory -/

theorem tracks_launched (hc : Constructed env args w) :
    Tracks node ⟨launched env w, 0⟩ args.initialModel where
  history := history_launched hc
  chronicle := hc.chronicle
  events := by
    show (w.events.map fun ev => (env.timestamp, ev)).map Prod.snd = w.events
    rw [List.map_map]
    exact List.map_id _
  valid uri huri := (hc.published.uris uri huri).elim (fun hnone => absurd hnone List.not_mem_nil) id
  index := ⟨fun _ hrow => absurd hrow List.not_mem_nil, fun _ hrow => absurd hrow List.not_mem_nil⟩
  upto_le := Nat.zero_le _
  cursor token htoken := by cases htoken
  reflects := ⟨fun a ha => absurd ha List.not_mem_nil, fun a => .current (Nat.zero_le _)⟩

/-- A call of the factory is tracked. -/
theorem Tracks.invoke (hF : Tracks node F m) (hs : DeploymentStep sdk F.toDeployment (.invoke i) S) :
    ∃ m', Tracks node ⟨S, F.upto⟩ m' := by
  cases hs with
  | @invoke _ w' new hs hnew =>
    obtain ⟨m', hnext, hhistory⟩ := hF.history.invoke hs hnew
    refine ⟨m', hhistory, hF.chronicle.step hs hnext, ?_, fun uri huri => ?_, ?_, ?_, hF.cursor, ?_⟩
    · show (F.stream ++ new.map fun ev => (i.env.timestamp, ev)).map Prod.snd = w'.events
      rw [List.map_append, hF.events, List.map_map, hnew]
      exact congrArg _ (List.map_id _)
    · exact (hs.published.uris uri huri).elim (hF.valid uri) id
    · exact hF.index.of_precedes hnext.precedes
    · show F.upto ≤ (F.stream ++ _).length
      rw [List.length_append]
      exact hF.upto_le.trans (Nat.le_add_right _ _)
    · exact hF.reflects.append hF.upto_le _

/-! ### A cycle -/

/-- A row that was read by its number was answered by a server that is true. -/
theorem exists_getTokenByIndex (hchain : ∀ n, node.Shows S low (answers.chain n)) (h : RowRead answers row) :
    ∃ rpc i, Answers sdk S rpc ∧ getTokenByIndex rpc i = some row := by
  obtain ⟨n, i, token, htoken, rfl⟩ := h
  obtain ⟨rpc, hanswers, hread⟩ := (hchain n).tokenByIndex htoken
  refine ⟨rpc, i, hanswers, ?_⟩
  have hsource : token.source = .backfill := source_getTokenByIndex hread
  rw [← hsource]
  exact hread

theorem bare_of_shows (hchain : ∀ n, node.Shows S low (answers.chain n)) : Bare answers := by
  intro row hrow
  obtain ⟨rpc, i, -, hread⟩ := exists_getTokenByIndex hchain hrow
  exact getTokenByIndex_bare hread

/-- So was a page. -/
theorem exists_getEventPage (hchain : ∀ n, node.Shows S low (answers.chain n))
    {page : Indexer.Interrupted.EventPage} (h : PageRead answers page) {w : Write} (hw : w ∈ page.writes) :
    ∃ rpc, Answers sdk S rpc ∧ w.ReadFrom rpc := by
  obtain ⟨n, cursor, rfl⟩ := h
  obtain ⟨rpc, page, hanswers, -, hpage, hread⟩ := (hchain n).page cursor
  refine ⟨rpc, hanswers, readFrom_of_page hpage ?_⟩
  rw [hread, Indexer.Interrupted.EventPage.writes, created_ofRpcPage hpage,
    Indexer.Interrupted.reduceOption_ofRpcPage] at hw
  exact hw

/-- **The writes of a cycle are made of true answers.** -/
theorem readFrom_of_ends {feed : Indexer.Interrupted.Feed (ℕ × Event)} {p q : ℕ}
    {saved : List Indexer.Interrupted.EventPage} {part : List Write} {s s' : Indexer.Interrupted.Cycling}
    (hchain : ∀ n, node.Shows S low (answers.chain n))
    (he : Ends feed stream answers p q saved part s s') :
    ∃ ws, s'.store.tokens = replay s.store.tokens ws ∧
      ∀ w ∈ ws, ∃ rpc, Answers sdk S rpc ∧ w.ReadFrom rpc := by
  obtain ⟨before, after, hrows, htokens⟩ := he.exists_rows
  obtain ⟨t₁, t₂, -, hpages, -⟩ := he
  -- rows come from reads of the backfill or of the reconciliation, before and after the pages
  have hread (rows : List IndexedToken) (hsub : rows ⊆ before ++ after) :
      ∀ w ∈ rows.map Write.upsert, ∃ rpc, Answers sdk S rpc ∧ w.ReadFrom rpc := by
    intro w hw
    obtain ⟨row, hrow, rfl⟩ := List.mem_map.mp hw
    obtain ⟨rpc, i, hanswers, hi⟩ := exists_getTokenByIndex hchain (hrows row (hsub hrow))
    exact ⟨rpc, hanswers, .backfill hi⟩
  refine ⟨_, htokens, fun w hw => ?_⟩
  rcases List.mem_append.mp hw with hw | hw
  · rcases List.mem_append.mp hw with hw | hw
    · exact hread before (List.subset_append_left _ _) w hw
    · rcases List.mem_append.mp hw with hw | hw
      · obtain ⟨page, hpage, hw⟩ := List.mem_flatMap.mp hw
        exact exists_getEventPage hchain (hpages.read page hpage) hw
      · -- the last page may have been applied in part
        rcases hpages.within with rfl | ⟨r, page, -, hpage, hpart⟩
        · cases hw
        · exact exists_getEventPage hchain hpage (hpart.subset hw)
  · exact hread after (List.subset_append_right _ _) w hw

/-- A cycle begins with events that the rows reflect, or with the next ones. -/
theorem Followed.startsAt_le
    (hkept : F.index.store.state.lastCursor = none → low ≤ F.upto) : F.startsAt low ≤ F.upto := by
  rw [Followed.startsAt]
  split_ifs with hnone
  · exact hkept hnone
  · exact le_rfl

theorem Tracks.startsAt (hF : Tracks node F m)
    (hkept : F.index.store.state.lastCursor = none → low ≤ F.upto) :
    StartsAt node.feed F.stream low F.index.store.state.lastCursor (F.startsAt low) where
  le_length := (Followed.startsAt_le hkept).trans hF.upto_le
  resumes token htoken := by
    have hne : F.index.store.state.lastCursor ≠ none := fun hnone => by rw [hnone] at htoken; cases htoken
    rw [Followed.startsAt, if_neg hne]
    exact hF.cursor token htoken
  starts hnone := if_pos hnone

/-- **A cycle keeps track**, however it ends. -/
theorem Tracks.cycle (hsdk : Readable sdk) (hF : Tracks node F m) {cenv : Unreliable Surroundings Rejection}
    (hkept : (FollowAction.cycle cenv low).Retained F) (hs : FollowStep node F (.cycle cenv low) F') :
    Tracks node F' m := by
  cases hs with
  | @cycle _ _ q o s saved part hchain hrun hends =>
    have hstart := hF.startsAt hkept
    have hbare := bare_of_shows hchain
    -- everything the cycle wrote it read from a node that answers from the chain
    obtain ⟨ws, htokens, hread⟩ := readFrom_of_ends hchain hends
    have htokens : s.state.store.tokens = replay F.index.store.tokens ws := htokens
    have hindex : IndexTrue sdk m s.state.store.tokens := by
      rw [htokens]
      exact hF.index.replay hF.history hsdk.injective hread
    obtain ⟨t₁, t₂, -, hpages, -⟩ := id hends
    have hq : q ≤ F.stream.length := hpages.covers.le_length hstart.le_length
    refine ⟨⟨hF.history.represents, hF.history.length_le, hF.history.worlds, hF.history.stream⟩,
      hF.chronicle, hF.events, hF.valid, hindex, ?_, ?_, ?_⟩
    · dsimp only
      split_ifs
      · exact hF.upto_le
      · exact hq
    · -- a cycle that got nothing leaves the cursor, any other moves it to its last page
      dsimp only
      split_ifs with hnothing
      · obtain ⟨rfl, rfl⟩ := hnothing
        rw [hends.lastCursor_of_nil]
        exact hF.cursor
      · exact hends.lastCursor hstart.resumes
    · dsimp only
      split_ifs with hnothing
      · obtain ⟨rfl, rfl⟩ := hnothing
        exact hF.reflects.ends_nil hbare hends
      · exact (hF.reflects.mono (Followed.startsAt_le hkept)).ends (hF.ordered hsdk) hbare hends

/-- Whatever a cycle has done, it is a step. -/
theorem Tracks.exists_followStep (hsdk : Readable sdk) (hF : Tracks node F m)
    {cenv : Unreliable Surroundings Rejection} {o : Except Rejection IngestResult}
    {s : Counted Indexer.Interrupted.Cycling} (hkept : (FollowAction.cycle cenv low).Retained F)
    (hchain : ∀ n, node.Shows F.toDeployment low (cenv.answers.chain n))
    (hrun : Indexer.Interrupted.runIngest cenv (Indexer.Interrupted.start F.index.store) = some (o, s)) :
    ∃ upto, FollowStep node F (.cycle cenv low) { F with index := s.state.toIngesting, upto } := by
  have hpages := fun n => (hchain n).pagesThrough hsdk hF.nonempties
  obtain ⟨q, saved, part, hends⟩ := exists_ends_of_runIngest hpages (hF.startsAt hkept) hrun
  exact ⟨_, .cycle hchain hrun hends⟩

/-! ### Runs -/

/-- **The run lemma.** -/
theorem Tracked.tracks (hsdk : Readable sdk) (hF : Tracked node args h F) : ∃ m, Tracks node F m := by
  obtain ⟨env, w₀, hc, hrun⟩ := hF
  refine hrun.invariant (I := fun _ F => ∃ m, Tracks node F m) ?_ ⟨_, tracks_launched hc⟩
  rintro h F a F' ⟨m, hF⟩ hkept hstep
  cases a with
  | invoke i =>
    cases hstep with
    | invoke hs => exact hF.invoke hs
  | cycle env low => exact ⟨m, hF.cycle hsdk hkept hstep⟩

/-- The URI of a row stood at some time since. -/
theorem Tracks.exists_uriAfter (hsdk : Readable sdk) (hF : Tracks node F m)
    (hrow : row ∈ F.index.store.tokens.records) (ht : row.address = sdk.address a) :
    ∃ n, F.upto ≤ n ∧ n ≤ F.stream.length ∧ row.metadataUri = (uriAfter F n a).map sdk.text := by
  obtain ⟨n, hn, hlength, huri⟩ := hF.reflects.uri (sdk.address a)
  have hfind : F.index.store.tokens.find? (sdk.address a) = some row := Keyed.find?_eq_some.mpr ⟨hrow, ht⟩
  refine ⟨n, hn, hlength, ?_⟩
  rw [MemoryTokenStore.uriOf, hfind, lastValue_feed hsdk] at huri
  exact huri

/-- At the end of the stream it is the present one. -/
theorem Tracks.uriAfter_length (hF : Tracks node F m) (ht : m.tokens.find? a = some t) :
    uriAfter F F.stream.length a = t.uris.head? := by
  rw [uriAfter, List.take_length, hF.events, hF.chronicle.uri, ht]
  rfl

/-- **The index follows the factory.**  In any order of calls of the factory and of cycles, which may end
anywhere, as long as the node keeps the events that the rows lack: every token that is created by the first
`upto` events has a row; every row describes a registered token, and its URI, or that it has none, stood at
some time since these events; and when they are all of the events, each registered token has a row that
describes it and has its present URI. -/
theorem index_follows (hsdk : Readable sdk) (hF : Tracked node args h F) :
    ∃ m, Represents F.world m ∧
      (∀ x ∈ F.stream.take F.upto, ∀ a ∈ x.2.createdToken,
        (F.index.store.tokens.find? (sdk.address a)).isSome = true) ∧
      (∀ row ∈ F.index.store.tokens.records, ∃ t, Describes sdk m t row ∧
        ∃ n, F.upto ≤ n ∧ n ≤ F.stream.length ∧
          row.metadataUri = (uriAfter F n t.address).map sdk.text) ∧
      (F.upto = F.stream.length → ∀ t ∈ m.tokens.records,
        ∃ row, F.index.store.tokens.find? (sdk.address t.address) = some row ∧ Describes sdk m t row ∧
          row.metadataUri = t.uris.head?.map sdk.text) := by
  obtain ⟨m, hF⟩ := hF.tracks hsdk
  have hrow : ∀ row ∈ F.index.store.tokens.records, ∃ t, Describes sdk m t row ∧
      ∃ n, F.upto ≤ n ∧ n ≤ F.stream.length ∧ row.metadataUri = (uriAfter F n t.address).map sdk.text := by
    intro row hrow
    obtain ⟨t, ht⟩ := hF.index.describes row hrow
    exact ⟨t, ht, hF.exists_uriAfter hsdk hrow ht.address⟩
  have hcreated : ∀ x ∈ F.stream.take F.upto, ∀ a ∈ x.2.createdToken,
      (F.index.store.tokens.find? (sdk.address a)).isSome = true := fun x hx a ha =>
    hF.reflects.created _ (List.mem_filterMap.mpr ⟨x, hx, congrArg (Option.map sdk.address) ha⟩)
  refine ⟨m, hF.history.represents, hcreated, hrow, fun hend t ht => ?_⟩
  -- the token was created by one of the events
  have hfind : m.tokens.find? t.address = some t := Keyed.find?_eq_some.mpr ⟨ht, rfl⟩
  have hevent : t.address ∈ F.world.events.filterMap Event.createdToken :=
    (hF.chronicle.created t.address).mpr (by rw [hfind]; rfl)
  rw [← hF.events, List.filterMap_map] at hevent
  obtain ⟨x, hx, hcreates⟩ := List.mem_filterMap.mp hevent
  rw [hend, List.take_length] at hcreated
  obtain ⟨row, hsome⟩ := Option.isSome_iff_exists.mp (hcreated x hx t.address hcreates)
  obtain ⟨hmem, haddress⟩ := Keyed.find?_eq_some.mp hsome
  obtain ⟨t', ht', n, hn, hlength, huri⟩ := hrow row hmem
  obtain rfl : t = t' := by
    have hsame : t'.address = t.address := hsdk.injective (ht'.address.symm.trans haddress)
    have hfind' := ht'.find?
    rw [hsame, hfind] at hfind'
    exact Option.some.inj hfind'
  refine ⟨row, hsome, ht', ?_⟩
  obtain rfl : n = F.stream.length := le_antisymm hlength (hend ▸ hn)
  rw [huri, hF.uriAfter_length hfind]

end

/-! ### The sample deployment -/

namespace SampleDeployment

open Indexer.Interrupted (ChainReader Cycling)

/-- Tokens of growing length. -/
def place (n : ℕ) : String := String.ofList (List.replicate (n + 1) '1')

theorem injective_place : Function.Injective place := by
  intro n n' h
  have hlength : (List.replicate (n + 1) '1').length = (List.replicate (n' + 1) '1').length :=
    congrArg List.length (String.ofList_injective h)
  simpa using hlength

/-- A node that tells the events of the sample apart. -/
def eventNode : EventNode sampleSdk where
  raw n x := { rawEvent x with pagingToken := place (n + 1) }
  pagingToken := place
  injective := injective_place
  nonempty n h := by
    have hnil : List.replicate (n + 1) '1' = [] := String.ofList_injective h
    cases hnil
  delivers _ _ := ⟨rfl, fun _ hpayload => hpayload, rfl⟩
  pagingToken_raw _ _ := rfl

theorem readable : Readable sampleSdk where
  injective := injective
  address_ne a h := by
    have htext := congrArg String.toList h
    rw [show sampleSdk.address a = "C" ++ toString a.id from rfl, String.toList_append] at htext
    cases htext
  text_ne hne h := by
    have hnil := String.ofList_injective h
    exact hne (List.map_eq_nil_iff.mp hnil)

/-- A server that sends the whole stream, and has nothing new for a cursor. -/
def pagingServer : SorobanRpc :=
  { node called with
    getEvents := fun start _ => match start with
      | .cursor _ => .ok ⟨[], none⟩
      | _ => .ok ⟨eventNode.rendered called.stream, none⟩ }

theorem answers_pagingServer : Answers sampleSdk called pagingServer where
  tokenCount := (answers_node called).tokenCount
  tokenInfo := (answers_node called).tokenInfo
  tokenAddress := (answers_node called).tokenAddress
  tokenIndex := (answers_node called).tokenIndex
  getEvents start limit response h raw hraw := by
    cases start with
    | cursor token =>
      obtain rfl := Except.ok.inj h
      cases hraw
    | _ =>
      obtain rfl := Except.ok.inj h
      obtain ⟨n, hn, rfl⟩ := List.mem_mapIdx.mp hraw
      exact ⟨called.stream[n], List.getElem_mem hn, eventNode.delivers _ _⟩

theorem stretch_all : eventNode.Stretch called.stream 0 called.stream.length
    (eventNode.rendered called.stream) :=
  ⟨Nat.zero_le _, le_rfl, rfl⟩

theorem serves_pagingServer : eventNode.Serves called.stream 0 pagingServer where
  resumes {n limit response} hn h := by
    obtain rfl := Except.ok.inj h
    refine ⟨n, le_rfl, hn, ?_⟩
    rw [List.drop_eq_nil_of_le (List.length_take_le _ _)]
  starts {start limit response} hstart h := by
    cases start with
    | cursor token => exact absurd rfl (hstart token)
    | _ =>
      obtain rfl := Except.ok.inj h
      exact ⟨_, stretch_all⟩

/-- The page with the creation. -/
def firstPage : EventPage where
  events := [.created ⟨"C50", 1, "A", "B", 0, "C5", 10, none, .event⟩]
  cursor := none
  latestLedger := none
  latestLedgerCloseTime := some 10000

/-- The page behind a cursor: the creation, and then nothing. -/
def page (cursor : Option String) : EventPage :=
  match cursor.filter (· ≠ "") with
  | none => firstPage
  | some _ => ⟨[], none, none, some 20000⟩

theorem getEventPage_pagingServer (cursor : Option String) :
    getEventPage pagingServer cursor = .ok (page cursor) := by
  rw [getEventPage, eventsStart, page]
  rcases cursor.filter (· ≠ "") with _ | token
  · rfl
  · rfl

/-- The chain, with a token count from before the creation. -/
def chain : ChainReader where
  getTokenCount := 0
  getTokenByIndex := getTokenByIndex pagingServer
  getEventPage cursor := ofRpcPage (page cursor)

/-- A chain that answers every call. -/
def undisturbed : Unreliable Surroundings Rejection where
  answers := ⟨fun _ => chain, fun _ => 20000⟩
  rejects _ := none

theorem shows_chain (n : ℕ) : eventNode.Shows called 0 (undisturbed.answers.chain n) where
  tokenByIndex h := ⟨pagingServer, answers_pagingServer, h⟩
  page cursor :=
    ⟨pagingServer, page cursor, answers_pagingServer, serves_pagingServer,
      getEventPage_pagingServer cursor, rfl⟩

/-- What the cycle leaves behind. -/
def ingested : Counted Cycling :=
  match Indexer.Interrupted.runIngest undisturbed (Indexer.Interrupted.start called.index.store) with
  | some (_, s) => s
  | none => Indexer.Interrupted.start called.index.store

/-- What the run reports. -/
def ingestResult : IngestResult where
  eventsApplied := 1
  backfillComplete := true
  indexedCount := 1

theorem runIngest_undisturbed :
    Indexer.Interrupted.runIngest undisturbed (Indexer.Interrupted.start called.index.store) =
      some (.ok ingestResult, ingested) := rfl

/-- The whole stream has been brought into the rows. -/
def caughtUp : Followed := ⟨{ called with index := ingested.state.toIngesting }, called.stream.length⟩

/-- A creation, and a run that finds it. -/
def followed : List FollowAction := [.cycle undisturbed 0, .invoke creation]

theorem tracked_called : Tracked eventNode SampleRun.constructorArgs [.invoke creation] ⟨called, 0⟩ :=
  ⟨permissiveEnv 1 ⟨1⟩, SampleRun.world₀, returns_commit rfl,
    .snoc .nil trivial (.invoke (.invoke step rfl))⟩

theorem pageAt_firstPage :
    Indexer.Interrupted.PageAt eventNode.feed called.stream 0 called.stream.length (ofRpcPage firstPage) := by
  obtain ⟨m, hcalled⟩ := tracked_called.tracks readable
  have hget : pagingServer.getEvents (eventsStart pagingServer none) EVENT_PAGE_SIZE =
      .ok ⟨eventNode.rendered called.stream, none⟩ := rfl
  have hstretch : eventNode.Stretch called.stream 0 called.stream.length
      (EventsResponse.mk (eventNode.rendered called.stream) none).events := stretch_all
  exact hstretch.pageAt readable hcalled.nonempties hget (getEventPage_pagingServer none)

theorem ends_ingested : Ends eventNode.feed called.stream undisturbed.answers 0 called.stream.length
    [ofRpcPage firstPage] [] (Indexer.Interrupted.start called.index.store).state ingested.state := by
  refine ⟨_, _, Std.Refl.refl _, ⟨.cons pageAt_firstPage .nil, fun page' hpage => ?_, .inl rfl, rfl, rfl⟩,
    Std.Refl.refl _⟩
  obtain rfl := List.mem_singleton.mp hpage
  exact ⟨0, none, rfl⟩

theorem tracked_caughtUp : Tracked eventNode SampleRun.constructorArgs followed caughtUp := by
  obtain ⟨env, w₀, hc, hrun⟩ := tracked_called
  have hstep : FollowStep eventNode ⟨called, 0⟩ (.cycle undisturbed 0)
      ⟨{ called with index := ingested.state.toIngesting },
        if [ofRpcPage firstPage] = [] ∧ ([] : List Write) = [] then 0 else called.stream.length⟩ :=
    .cycle shows_chain runIngest_undisturbed ends_ingested
  rw [if_neg (by simp)] at hstep
  exact ⟨env, w₀, hc, .snoc hrun (fun _ => le_rfl) hstep⟩

end SampleDeployment

/-- The cycle of the sample deployment has caught up. -/
theorem index_follows_sampleDeployment :
    SampleDeployment.caughtUp.upto = SampleDeployment.caughtUp.stream.length ∧
      SampleDeployment.caughtUp.index.store.tokens.records.map IndexedToken.address = ["C50"] ∧
      ∃ m, Represents SampleDeployment.caughtUp.world m ∧ ∀ t ∈ m.tokens.records,
        ∃ row, SampleDeployment.caughtUp.index.store.tokens.find?
            (SampleDeployment.sampleSdk.address t.address) = some row ∧
          Describes SampleDeployment.sampleSdk m t row ∧
          row.metadataUri = t.uris.head?.map SampleDeployment.sampleSdk.text := by
  obtain ⟨m, hm, -, -, hall⟩ := index_follows SampleDeployment.readable SampleDeployment.tracked_caughtUp
  exact ⟨rfl, rfl, m, hm, hall rfl⟩

end StellarForge.System
