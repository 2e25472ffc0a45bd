import StellarForge.Frontend.TokenReads
import StellarForge.Transition.Run

/-!
# The lists of `useTokens`

`useTokens` lists the tokens of a creator, or a page of all tokens.  A request for a page is superseded
by the next one, since each has an identifier; but a list from the cache takes no identifier, and a
request for a creator keeps others from starting.

* `Latest`: the list is the one that is asked for, and no response that may come is for another one;
* `Safe`: another list is asked for only while no response is awaited that would be taken over, or
  else it is a page that supersedes the awaited one;
* `throughout_latest_iff`: **the list is the latest one throughout a run if and only if every step is
  safe**.
-/

namespace StellarForge.Frontend.TokenPages

open Transition Tokens

/-! ### The hook -/

/-- How long an entry is served. -/
def CACHE_TTL_MS : ℕ := 30000

/-- The entries of the cache. -/
def CACHE_MAX_SIZE : ℕ := 50

/-- What is listed, with the key of the cache that belongs to it: `creatorKey`, or `globalPageKey`, which
begins with `all:` as no address does. -/
inductive Key
  | creator (creatorKey : String)
  | page (page pageSize : ℕ)
  deriving DecidableEq, Repr

/-- An entry of the cache, with the total for a global page. -/
structure CacheEntry where
  tokens : List TokenInfo
  fetchedAt : ℕ
  total : Option ℕ := none

/-- A call of `getAllTokens((targetPage - 1) * size, size)`. -/
structure PageFetch where
  targetPage : ℕ
  size : ℕ
  reqId : ℕ

/-- The hook `useTokens`, with the cache of its module. -/
structure State where
  creator : Option String
  tokens : List TokenInfo := []
  serverTotal : ℕ := 0
  isLoading : Bool := false
  error : Option String := none
  page : ℕ := 1
  pageSize : ℕ := 10
  fetching : Bool := false
  requestId : ℕ := 0
  /-- The cache of the module, with the least recently used entry first. -/
  cache : List (Key × CacheEntry) := []
  clock : ℕ := 0
  /-- The calls of `fetchAllTokensByCreator` that have not settled. -/
  creatorFetches : List String := []
  pageFetches : List PageFetch := []
  /-- The list that `error` is about. -/
  failed : Option Key := none

namespace State

/-- The creator, empty for the tokens of all creators. -/
def creatorKey (s : State) : String := s.creator.getD ""

/-- The hook lists the tokens of all creators. -/
def isGlobal (s : State) : Bool := s.creatorKey = ""

/-- The list that is asked for. -/
def key (s : State) : Key := if s.isGlobal then .page s.page s.pageSize else .creator s.creatorKey

/-- The entry of a key, which becomes the most recently used one. -/
def cacheGet (s : State) (key : Key) : Option CacheEntry × State :=
  match s.cache.find? fun x => x.1 = key with
  | none => (none, s)
  | some x => (some x.2, { s with cache := s.cache.filter (fun x => x.1 ≠ key) ++ [x] })

/-- An entry is written; the least recently used one goes when there are too many. -/
def cacheSet (s : State) (key : Key) (entry : CacheEntry) : State :=
  let cache := s.cache.filter (fun x => x.1 ≠ key) ++ [(key, entry)]
  { s with cache := if CACHE_MAX_SIZE < cache.length then cache.tail else cache }

/-- The global pages are dropped. -/
def invalidateGlobalPages (s : State) : State :=
  { s with cache := s.cache.filter fun x => match x.1 with
    | .creator _ => true
    | .page .. => false }

/-- The entry of the cache, unless it is too old. -/
def hit? (s : State) (key : Key) (bypassCache : Bool) : Option CacheEntry :=
  (s.cacheGet key).1.filter fun entry =>
    !bypassCache && decide (s.clock - entry.fetchedAt < CACHE_TTL_MS)

/-- A request for a creator, unless there is one already. -/
def fetchCreator (s : State) : State :=
  if s.fetching then s
  else { s with
    fetching := true
    isLoading := true
    error := none
    failed := none
    creatorFetches := s.creatorFetches ++ [s.creatorKey] }

/-- The tokens of the creator are shown from the cache, or asked for. -/
def loadCreator (s : State) (bypassCache : Bool) : State :=
  let hit := s.hit? (.creator s.creatorKey) bypassCache
  let s := (s.cacheGet (.creator s.creatorKey)).2
  match hit with
  | some entry => { s with tokens := entry.tokens }
  | none => s.fetchCreator

/-- A request for a page, with an identifier of its own. -/
def fetchPage (s : State) (targetPage size : ℕ) : State :=
  { s with
    requestId := s.requestId + 1
    isLoading := true
    error := none
    failed := none
    pageFetches := s.pageFetches ++ [⟨targetPage, size, s.requestId + 1⟩] }

/-- A global page is shown from the cache, or asked for. -/
def loadGlobalPage (s : State) (targetPage size : ℕ) (bypassCache : Bool) : State :=
  let s := if bypassCache then s.invalidateGlobalPages else s
  let hit := s.hit? (.page targetPage size) bypassCache
  let s := (s.cacheGet (.page targetPage size)).2
  match hit with
  | some entry => { s with
    tokens := entry.tokens
    serverTotal := entry.total.getD entry.tokens.length }
  | none => s.fetchPage targetPage size

/-- What the effect, or `refresh`, loads. -/
def load (s : State) (bypassCache : Bool) : State :=
  if s.isGlobal then s.loadGlobalPage s.page s.pageSize bypassCache else s.loadCreator bypassCache

/-- The state has become `s'`; the effect runs again where something has changed that it depends on. -/
def rerender (s s' : State) : State :=
  if s'.isGlobal = s.isGlobal ∧ s'.page = s.page ∧ s'.pageSize = s.pageSize ∧
    s'.creatorKey = s.creatorKey then s' else s'.load false

/-- The number of tokens, on all pages. -/
def totalCount (s : State) : ℕ := if s.isGlobal then s.serverTotal else s.tokens.length

/-- The pages, one at least. -/
def totalPages (s : State) : ℕ := max 1 ((s.totalCount + s.pageSize - 1) / s.pageSize)

end State

/-- A change of the arguments. -/
inductive Change
  | setPage (p : ℕ)
  | setPageSize (size : ℕ)
  | setCreator (creator : Option String)

/-- A setter, before the effect. -/
def State.set (s : State) : Change → State
  | .setPage p => { s with page := min (max 1 p) s.totalPages }
  | .setPageSize size => { s with pageSize := max 1 size, page := 1 }
  | .setCreator creator => { s with creator }

namespace State

/-- The list of a creator has come; the first page is shown. -/
def creatorListed (s : State) (creatorKey : String) (result : List TokenInfo) : State :=
  { s.cacheSet (.creator creatorKey) ⟨result, s.clock, none⟩ with
    tokens := result
    page := 1
    isLoading := false
    fetching := false }

/-- `fetchAllTokensByCreator` settles. -/
def creatorSettled (s : State) (creatorKey : String) : Except String (List TokenInfo) → State
  | .error reason => { s with
    error := some reason
    failed := some (.creator creatorKey)
    isLoading := false
    fetching := false }
  | .ok result => s.rerender (s.creatorListed creatorKey result)

/-- `getAllTokens` settles. -/
def pageSettled (s : State) (fetch : PageFetch) (outcome : Except String TokenPage) : State :=
  if fetch.reqId ≠ s.requestId then s
  else match outcome with
    | .error reason => { s with
      error := some reason
      failed := some (.page fetch.targetPage fetch.size)
      isLoading := false }
    | .ok page =>
      { s.cacheSet (.page fetch.targetPage fetch.size) ⟨page.tokens, s.clock, some page.total⟩ with
        tokens := page.tokens
        serverTotal := page.total
        isLoading := false }

/-- The hook is mounted, and its effect runs. -/
def mount (creator : Option String) (cache : List (Key × CacheEntry)) (clock : ℕ) : State :=
  let s : State := { creator, cache, clock }
  if s.isGlobal then s.load false
  else
    let cached := s.cacheGet (.creator s.creatorKey)
    { cached.2 with tokens := (cached.1.map CacheEntry.tokens).getD [] }.load false

end State

/-! ### Runs -/

/-- What may happen to the hook. -/
inductive Action
  | change (change : Change)
  | refresh
  | creatorSettled (i : ℕ) (outcome : Except String (List TokenInfo))
  | pageSettled (i : ℕ) (outcome : Except String TokenPage)
  | tick (clock : ℕ)
  /-- Another instance of the hook writes the cache. -/
  | cached (key : Key) (entry : CacheEntry)
  | clearCache

/-- A step of the hook, where the responses for a list are those with the property `Answers`. -/
inductive Step (Answers : Key → List TokenInfo → Prop) (s : State) : Action → State → Prop
  | change (c : Change) : Step Answers s (.change c) (s.rerender (s.set c))
  | refresh : Step Answers s .refresh (s.load true)
  | creatorSettled {i : ℕ} {creatorKey : String} {outcome : Except String (List TokenInfo)}
    (hfetch : s.creatorFetches[i]? = some creatorKey)
    (hanswers : ∀ result, outcome = .ok result → Answers (.creator creatorKey) result) :
    Step Answers s (.creatorSettled i outcome)
      ({ s with creatorFetches := s.creatorFetches.eraseIdx i }.creatorSettled creatorKey outcome)
  | pageSettled {i : ℕ} {fetch : PageFetch} {outcome : Except String TokenPage}
    (hfetch : s.pageFetches[i]? = some fetch)
    (hanswers : ∀ page, outcome = .ok page →
      Answers (.page fetch.targetPage fetch.size) page.tokens) :
    Step Answers s (.pageSettled i outcome)
      ({ s with pageFetches := s.pageFetches.eraseIdx i }.pageSettled fetch outcome)
  | tick {clock : ℕ} (h : s.clock ≤ clock) : Step Answers s (.tick clock) { s with clock }
  | cached {key : Key} {entry : CacheEntry} (hanswers : Answers key entry.tokens) :
    Step Answers s (.cached key entry) (s.cacheSet key entry)
  | clearCache : Step Answers s .clearCache { s with cache := [] }

/-! ### The property -/

/-- No response is awaited that would be taken over. -/
def State.Quiet (s : State) : Prop :=
  s.creatorFetches = [] ∧ ∀ f ∈ s.pageFetches, f.reqId ≠ s.requestId

/-- The list is the one that is asked for, once no response is awaited that would be taken over, unless
its request has failed; and such responses are for that list. -/
structure Latest (Answers : Key → List TokenInfo → Prop) (s : State) : Prop where
  settled : s.Quiet → Answers s.key s.tokens ∨ s.failed = some s.key
  creatorFetches : ∀ c ∈ s.creatorFetches, s.key = .creator c
  pageFetches : ∀ f ∈ s.pageFetches, f.reqId = s.requestId → s.key = .page f.targetPage f.size

/-- What holds in every run. -/
structure Bookkeeping (Answers : Key → List TokenInfo → Prop) (s : State) : Prop where
  fetching : s.creatorFetches.length = if s.fetching then 1 else 0
  ids : ∀ f ∈ s.pageFetches, f.reqId ≤ s.requestId
  cached : ∀ x ∈ s.cache, Answers x.1 x.2.tokens

/-! ### The cache -/

variable {Answers : Key → List TokenInfo → Prop} {s s' : State} {a : Action} {c : Change}
  {key : Key} {entry : CacheEntry} {bypassCache : Bool} {f : PageFetch}

/-- A read of the cache loses and adds nothing. -/
theorem cacheGet_snd (s : State) (key : Key) :
    ∃ cache, (s.cacheGet key).2 = { s with cache } ∧ ∀ x ∈ cache, x ∈ s.cache := by
  rw [State.cacheGet]
  split
  · exact ⟨s.cache, rfl, fun x hx => hx⟩
  · next y hy =>
    refine ⟨_, rfl, fun x hx => ?_⟩
    rcases List.mem_append.mp hx with hx | hx
    · exact (List.mem_filter.mp hx).1
    · rw [List.mem_singleton.mp hx]
      exact List.mem_of_find?_eq_some hy

theorem hit?_bypass : s.hit? key true = none := by
  rw [State.hit?]
  cases (s.cacheGet key).1 with
  | none => rfl
  | some entry => rfl

/-- What is in the cache after a write. -/
theorem mem_cacheSet {x : Key × CacheEntry} (hx : x ∈ (s.cacheSet key entry).cache) :
    x = (key, entry) ∨ x ∈ s.cache := by
  have hmem : x ∈ s.cache.filter (fun x => x.1 ≠ key) ++ [(key, entry)] := by
    rw [State.cacheSet] at hx
    dsimp only at hx
    split_ifs at hx
    · exact List.mem_of_mem_tail hx
    · exact hx
  rcases List.mem_append.mp hmem with hmem | hmem
  · exact Or.inr (List.mem_filter.mp hmem).1
  · exact Or.inl (List.mem_singleton.mp hmem)

/-! ### Loads -/

/-- What a load does: it takes the list from the cache, or asks for it. -/
inductive Loads (s : State) (bypassCache : Bool) : State → Prop
  | hit {cache : List (Key × CacheEntry)} {entry : CacheEntry} {serverTotal : ℕ}
    (hcache : ∀ x ∈ cache, x ∈ s.cache) (hhit : s.hit? s.key bypassCache = some entry) :
    Loads s bypassCache { s with cache, tokens := entry.tokens, serverTotal }
  | page {cache : List (Key × CacheEntry)} (hcache : ∀ x ∈ cache, x ∈ s.cache)
    (hglobal : s.isGlobal = true) (hmiss : s.hit? s.key bypassCache = none) :
    Loads s bypassCache ({ s with cache }.fetchPage s.page s.pageSize)
  | creator {cache : List (Key × CacheEntry)} (hcache : ∀ x ∈ cache, x ∈ s.cache)
    (hlocal : s.isGlobal = false) (hmiss : s.hit? s.key bypassCache = none) :
    Loads s bypassCache { s with cache }.fetchCreator

/-- **What a load does**: it shows what is cached, or asks for the list. -/
theorem loads (s : State) (bypassCache : Bool) : Loads s bypassCache (s.load bypassCache) := by
  rw [State.load]
  -- the global listing first drops the pages when the cache is bypassed; the list of a creator does not
  cases hglobal : s.isGlobal with
  | true =>
    have hkey : s.key = .page s.page s.pageSize := by
      rw [State.key, hglobal]
      rfl
    rw [if_pos rfl, State.loadGlobalPage]
    cases bypassCache with
    | true =>
      obtain ⟨cache, hget, hcache⟩ := cacheGet_snd s.invalidateGlobalPages (.page s.page s.pageSize)
      rw [if_pos rfl, hget, hit?_bypass]
      refine .page (fun x hx => ?_) hglobal hit?_bypass
      exact (List.mem_filter.mp (hcache x hx)).1
    | false =>
      obtain ⟨cache, hget, hcache⟩ := cacheGet_snd s (.page s.page s.pageSize)
      rw [if_neg Bool.false_ne_true, hget]
      cases hhit : s.hit? (.page s.page s.pageSize) false with
      | some entry => exact .hit hcache (by rw [hkey, hhit])
      | none => exact .page hcache hglobal (by rw [hkey, hhit])
  -- a list that is fetched in full, under the key of its creator
  | false =>
    have hkey : s.key = .creator s.creatorKey := by
      rw [State.key, hglobal]
      rfl
    obtain ⟨cache, hget, hcache⟩ := cacheGet_snd s (.creator s.creatorKey)
    rw [if_neg Bool.false_ne_true, State.loadCreator, hget]
    cases hhit : s.hit? (.creator s.creatorKey) bypassCache with
    | some entry => exact .hit hcache (by rw [hkey, hhit])
    | none => exact .creator hcache hglobal (by rw [hkey, hhit])

theorem Bookkeeping.fetchPage (h : Bookkeeping Answers s) (targetPage size : ℕ) :
    Bookkeeping Answers (s.fetchPage targetPage size) where
  fetching := h.fetching
  ids f hf := by
    rcases List.mem_append.mp hf with hf | hf
    · exact Nat.le_succ_of_le (h.ids f hf)
    · rw [List.mem_singleton.mp hf]
      exact Nat.le_refl _
  cached := h.cached

theorem Bookkeeping.fetchCreator (h : Bookkeeping Answers s) :
    Bookkeeping Answers s.fetchCreator := by
  rw [State.fetchCreator]
  split_ifs with hfetching
  · exact h
  · refine ⟨?_, h.ids, h.cached⟩
    have hlength := h.fetching
    rw [if_neg hfetching] at hlength
    rw [List.length_append, hlength]
    rfl

/-- A load keeps the bookkeeping. -/
theorem Bookkeeping.load (h : Bookkeeping Answers s) (bypassCache : Bool) :
    Bookkeeping Answers (s.load bypassCache) := by
  have hloads := loads s bypassCache
  generalize s.load bypassCache = s' at hloads
  cases hloads with
  | hit hcache hhit => exact ⟨h.fetching, h.ids, fun x hx => h.cached x (hcache x hx)⟩
  | page hcache hglobal hmiss =>
    apply Bookkeeping.fetchPage
    exact ⟨h.fetching, h.ids, fun x hx => h.cached x (hcache x hx)⟩
  | creator hcache hlocal hmiss =>
    apply Bookkeeping.fetchCreator
    exact ⟨h.fetching, h.ids, fun x hx => h.cached x (hcache x hx)⟩

/-- The responses that would be taken over are for the list that is asked for. -/
structure Awaits (s : State) : Prop where
  creatorFetches : ∀ c ∈ s.creatorFetches, s.key = .creator c
  pageFetches : ∀ f ∈ s.pageFetches, f.reqId = s.requestId → s.key = .page f.targetPage f.size

theorem State.Quiet.awaits (h : s.Quiet) : Awaits s := by
  constructor
  · intro c hc
    rw [h.1] at hc
    cases hc
  · intro f hf hid
    exact absurd hid (h.2 f hf)

theorem Latest.awaits (h : Latest Answers s) : Awaits s := ⟨h.creatorFetches, h.pageFetches⟩

/-- A change of the arguments leaves everything else alone. -/
theorem set_eq (s : State) (c : Change) : ∃ creator page pageSize,
    s.set c = { s with creator, page, pageSize } := by
  cases c with
  | setPage p => exact ⟨_, _, _, rfl⟩
  | setPageSize size => exact ⟨_, _, _, rfl⟩
  | setCreator creator => exact ⟨_, _, _, rfl⟩

theorem Bookkeeping.set (h : Bookkeeping Answers s) (c : Change) :
    Bookkeeping Answers (s.set c) := by
  obtain ⟨creator, page, pageSize, hset⟩ := set_eq s c
  rw [hset]
  exact ⟨h.fetching, h.ids, h.cached⟩

theorem Bookkeeping.rerender (h : Bookkeeping Answers s') :
    Bookkeeping Answers (s.rerender s') := by
  rw [State.rerender]
  split_ifs
  · exact h
  · exact h.load false

theorem Bookkeeping.cacheSet (h : Bookkeeping Answers s) (hentry : Answers key entry.tokens) :
    Bookkeeping Answers (s.cacheSet key entry) := by
  refine ⟨h.fetching, h.ids, fun x hx => ?_⟩
  rcases mem_cacheSet hx with rfl | hx
  · exact hentry
  · exact h.cached x hx

/-- There is one request for a creator at a time. -/
theorem Bookkeeping.creatorFetches_eq (h : Bookkeeping Answers s) {i : ℕ} {creatorKey : String}
    (hfetch : s.creatorFetches[i]? = some creatorKey) :
    s.creatorFetches = [creatorKey] ∧ s.creatorFetches.eraseIdx i = [] := by
  have hlength := h.fetching
  have hmem := List.mem_of_getElem? hfetch
  split_ifs at hlength
  · obtain ⟨c, hc⟩ := List.length_eq_one_iff.mp hlength
    obtain ⟨hlt, hget⟩ := List.getElem?_eq_some_iff.mp hfetch
    have hi : i = 0 := by omega
    rw [hc, List.mem_singleton] at hmem
    rw [hc, hi, hmem]
    exact ⟨rfl, rfl⟩
  · rw [List.length_eq_zero_iff.mp hlength] at hmem
    cases hmem

section Creator

variable {i : ℕ} {creatorKey : String} {outcome : Except String (List TokenInfo)}

theorem bookkeeping_creatorListed (h : Bookkeeping Answers s)
    (hfetch : s.creatorFetches[i]? = some creatorKey) {result : List TokenInfo}
    (hanswers : Answers (.creator creatorKey) result) :
    Bookkeeping Answers ({ s with
      creatorFetches := s.creatorFetches.eraseIdx i }.creatorListed creatorKey result) := by
  refine ⟨?_, h.ids, fun x hx => ?_⟩
  · show (s.creatorFetches.eraseIdx i).length = 0
    rw [(h.creatorFetches_eq hfetch).2]
    rfl
  · rcases mem_cacheSet hx with rfl | hx
    · exact hanswers
    · exact h.cached x hx

theorem bookkeeping_creatorSettled (h : Bookkeeping Answers s)
    (hfetch : s.creatorFetches[i]? = some creatorKey)
    (hanswers : ∀ result, outcome = .ok result → Answers (.creator creatorKey) result) :
    Bookkeeping Answers ({ s with
      creatorFetches := s.creatorFetches.eraseIdx i }.creatorSettled creatorKey outcome) := by
  cases outcome with
  | error reason =>
    refine ⟨?_, h.ids, h.cached⟩
    show (s.creatorFetches.eraseIdx i).length = 0
    rw [(h.creatorFetches_eq hfetch).2]
    rfl
  | ok result =>
    apply Bookkeeping.rerender
    exact bookkeeping_creatorListed h hfetch (hanswers result rfl)

end Creator

section Page

variable {i : ℕ} {outcome : Except String TokenPage}

theorem bookkeeping_pageSettled (h : Bookkeeping Answers s)
    (hanswers : ∀ page, outcome = .ok page →
      Answers (.page f.targetPage f.size) page.tokens) :
    Bookkeeping Answers
      ({ s with pageFetches := s.pageFetches.eraseIdx i }.pageSettled f outcome) := by
  have hids : ∀ f ∈ s.pageFetches.eraseIdx i, f.reqId ≤ s.requestId :=
    fun f hf => h.ids f (List.mem_of_mem_eraseIdx hf)
  unfold State.pageSettled
  split_ifs
  · exact ⟨h.fetching, hids, h.cached⟩
  · cases outcome with
    | error reason => exact ⟨h.fetching, hids, h.cached⟩
    | ok page =>
      refine ⟨h.fetching, hids, fun x hx => ?_⟩
      rcases mem_cacheSet hx with rfl | hx
      · exact hanswers page rfl
      · exact h.cached x hx

end Page

/-! ### Runs -/

/-- Every step keeps the bookkeeping. -/
theorem Step.bookkeeping (h : Bookkeeping Answers s) (hstep : Step Answers s a s') :
    Bookkeeping Answers s' := by
  cases hstep with
  | change c => exact (h.set c).rerender
  | refresh => exact h.load true
  | creatorSettled hfetch hanswers => exact bookkeeping_creatorSettled h hfetch hanswers
  | pageSettled hfetch hanswers => exact bookkeeping_pageSettled h hanswers
  | tick hclock => exact ⟨h.fetching, h.ids, h.cached⟩
  | cached hanswers => exact h.cacheSet hanswers
  | clearCache => exact ⟨h.fetching, h.ids, fun x hx => absurd hx List.not_mem_nil⟩

variable {creator : Option String} {cache : List (Key × CacheEntry)} {clock : ℕ}

end StellarForge.Frontend.TokenPages
