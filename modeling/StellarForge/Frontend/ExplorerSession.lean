import Mathlib.Data.PNat.Basic
import StellarForge.Frontend.TokenIndex
import StellarForge.Transition.Run

/-!
# A session of the token explorer

`useExplorerTokens` reads the number of tokens once, and pins the windows of its pages to it until the
list is refreshed.  A `retry` drops the number but keeps the pages that are in the cache, and a fetch
writes the cache also when its run has been cancelled.

* `Session`: the invariant of a session, in which every page on record is a window of one number;
* `coherent_of_run`: **the pages shown since the last refresh are windows of one number**, in every run
  in which the number that is read is that of the pages on record, pages come from the node, and no page
  arrives late that belongs to another session or to another number;
* `not_coherent_retried`: after a retry they need not be.
-/

namespace StellarForge.Frontend.Explorer

open Transition Collections Tokens TokenIndex

/-- The tokens of a page. -/
def EXPLORER_PAGE_SIZE : ℕ := 10

/-! ### Enrichment -/

/-- A token with the metadata `M` of its URI. -/
structure TokenWithMetadata (M : Type) extends TokenInfo where
  address : String
  metadata : Option M

variable {M : Type}

/-- The metadata of a token, none where it has no URI or it cannot be read. -/
def fetchMetadataOrNull (getMetadata : String → Option M) (uri : Option String) : Option M :=
  (uri.filter (· ≠ "")).bind getMetadata

/-- `enrichPage`; there is no index where the events cannot be read. -/
def enrichPage (eventIndex : Option TokenEventIndex) (getMetadata : String → Option M)
    (infoPage : List TokenInfo) : List (TokenWithMetadata M) :=
  infoPage.map fun info =>
    let address := (info.index.bind fun i => eventIndex.bind (·.indexToAddress i)).getD ""
    let metadataUri := info.metadataUri.or
      (if address = "" then none else eventIndex.bind (·.addressToMeta address))
    { info with address, metadataUri, metadata := fetchMetadataOrNull getMetadata metadataUri }

/-! ### The hook -/

/-- A page of the cache, and the session in which it was asked for. -/
structure Entry where
  page : TokenPage
  session : ℕ

/-- What a run of the page effect waits for. -/
inductive Phase
  | readingState
  | fetching (snapshot : ℕ)
  | enriching (entry : Entry)
  | done

/-- A run of the page effect, and the session in which it began. -/
structure PageRun where
  page : ℕ+
  session : ℕ
  phase : Phase

/-- The hook `useExplorerTokens`. -/
structure State (M : Type) where
  currentPage : ℕ+ := 1
  totalTokens : ℕ := 0
  tokens : List (TokenWithMetadata M) := []
  loading : Bool := true
  error : Option String := none
  tokenCountSnapshot : Option ℕ := none
  pageCache : ℕ+ → Option Entry := fun _ => none
  /-- The run of the present effect. -/
  live : PageRun := ⟨1, 0, .readingState⟩
  /-- The runs of the effects before, for which `cancelled` is set. -/
  cancelled : List PageRun := []
  /-- The number of refreshes. -/
  session : ℕ := 0
  /-- The pages shown since the last refresh. -/
  shown : List (ℕ+ × Entry) := []

/-- What serves a page: the node, where each read has its outcome; or the indexer, which takes no notice
of a snapshot. -/
inductive Served
  | rpc (read : ℕ → Except String TokenInfo)
  | indexer (page : TokenPage)

/-- `getAllTokens` of the service; with a snapshot the state is not read. -/
def fetchPage (page : ℕ+) (snapshot : ℕ) : Served → Except String TokenPage
  | .rpc read => getAllTokens (.ok 0) read (((page : ℕ) - 1) * EXPLORER_PAGE_SIZE)
    EXPLORER_PAGE_SIZE (some snapshot)
  | .indexer page => .ok page

/-- What is awaited, when it settles. -/
inductive Outcome (M : Type)
  | state (tokenCount : Except String ℕ)
  | page (served : Served)
  | enriched (eventIndex : Option TokenEventIndex) (getMetadata : String → Option M)

namespace State

/-- A run that has the snapshot takes its page from the cache, or asks for it. -/
def lookUp (s : State M) (page : ℕ+) (snapshot : ℕ) : State M × Phase :=
  match s.pageCache page with
  | some entry => ({ s with totalTokens := entry.page.total }, .enriching entry)
  | none => (s, .fetching snapshot)

/-- The first part of a run. -/
def start (s : State M) : State M × Phase :=
  match s.tokenCountSnapshot with
  | none => (s, .readingState)
  | some snapshot => s.lookUp s.currentPage snapshot

/-- The effect: the run of the last one is cancelled, and a new one begins. -/
def effect (s : State M) : State M :=
  let begun :=
    { s with loading := true, error := none, cancelled := s.cancelled ++ [s.live] : State M }.start
  { begun.1 with live := ⟨s.currentPage, s.session, begun.2⟩ }

/-- Another page is turned to; the effect reads it. -/
def setCurrentPage (s : State M) (page : ℕ+) : State M :=
  if page = s.currentPage then s else { s with currentPage := page }.effect

/-- The count and all pages are read again. -/
def refresh (s : State M) : State M :=
  { s with
    tokenCountSnapshot := none
    pageCache := fun _ => none
    currentPage := 1
    session := s.session + 1
    shown := [] }.effect

/-- The count and the current page are read again. -/
def retry (s : State M) : State M :=
  { s with
    tokenCountSnapshot := none
    pageCache := Function.update s.pageCache s.currentPage none }.effect

/-- The `catch` and the `finally` of a run. -/
def failed (s : State M) (cancelled : Bool) (reason : String) : State M :=
  if cancelled then s else { s with tokens := [], error := some reason, loading := false }

/-- A run goes on, up to the next thing that it waits for. -/
def resume (s : State M) (cancelled : Bool) (run : PageRun) (outcome : Outcome M) :
    Option (State M × Phase) :=
  match run.phase, outcome with
  | .readingState, .state (.error reason) => some (s.failed cancelled reason, .done)
  | .readingState, .state (.ok tokenCount) =>
    if cancelled then some (s, .done)
    else some ({ s with tokenCountSnapshot := some tokenCount }.lookUp run.page tokenCount)
  | .fetching snapshot, .page served =>
    match fetchPage run.page snapshot served with
    | .error reason => some (s.failed cancelled reason, .done)
    | .ok page =>
      -- the cache is written before `cancelled` is looked at
      let entry : Entry := ⟨page, run.session⟩
      let s := { s with pageCache := Function.update s.pageCache run.page (some entry) }
      if cancelled then some (s, .done)
      else some ({ s with totalTokens := page.total }, .enriching entry)
  | .enriching entry, .enriched eventIndex getMetadata =>
    if cancelled then some (s, .done)
    else some ({ s with
      tokens := enrichPage eventIndex getMetadata entry.page.tokens
      loading := false
      shown := (run.page, entry) :: s.shown }, .done)
  | _, _ => none

end State

/-- What may happen to the hook. -/
inductive Action (M : Type)
  | setCurrentPage (page : ℕ+)
  | refresh
  | retry
  | resume (outcome : Outcome M)
  | resumeCancelled (i : ℕ) (outcome : Outcome M)

/-- One action; none where there is nothing to resume. -/
def State.step (s : State M) : Action M → Option (State M)
  | .setCurrentPage page => some (s.setCurrentPage page)
  | .refresh => some s.refresh
  | .retry => some s.retry
  | .resume outcome =>
    (s.resume false s.live outcome).map fun r => { r.1 with live := { s.live with phase := r.2 } }
  | .resumeCancelled i outcome =>
    (s.cancelled[i]?).bind fun run => (s.resume true run outcome).map fun r =>
      { r.1 with cancelled := r.1.cancelled.set i { run with phase := r.2 } }

/-- A step of the hook. -/
def Step (s : State M) (a : Action M) (s' : State M) : Prop := s.step a = some s'

/-! ### The property -/

/-- The page holds those tokens of its window, for `n` tokens, that could be read. -/
def IsWindow (n : ℕ) (number : ℕ+) (page : TokenPage) : Prop :=
  ∃ read, fetchPage number n (.rpc read) = .ok page

/-- The numbers of the tokens that were asked for. -/
def asked (number : ℕ+) (page : TokenPage) : List ℕ :=
  window page.total (((number : ℕ) - 1) * EXPLORER_PAGE_SIZE) EXPLORER_PAGE_SIZE

/-- The pages shown since the last refresh are windows of one number of tokens: no token is on two of them,
and none is skipped between a page and the next one.  They have been asked for since that refresh. -/
structure Coherent (s : State M) : Prop where
  oneSnapshot : ∃ n, ∀ x ∈ s.shown, IsWindow n x.1 x.2.page
  once : ∀ x ∈ s.shown, ∀ y ∈ s.shown, ∀ i ∈ x.2.page.numbers, i ∈ y.2.page.numbers → x.1 = y.1
  gapless : ∀ x ∈ s.shown, ∀ y ∈ s.shown, y.1 = x.1 + 1 →
    ∀ j ∈ y.2.page.numbers, ∀ k ∈ x.2.page.numbers, ∀ i, j ≤ i → i ≤ k →
      i ∈ asked x.1 x.2.page ∨ i ∈ asked y.1 y.2.page
  ownSession : ∀ x ∈ s.shown, x.2.session = s.session

/-- The pages on record are of `n` tokens. -/
structure Agrees (s : State M) (n : ℕ) : Prop where
  snapshot : ∀ m ∈ s.tokenCountSnapshot, m = n
  cached : ∀ number entry, s.pageCache number = some entry → entry.page.total = n
  shown : ∀ x ∈ s.shown, x.2.page.total = n

/-- The number of tokens that is read is that of the pages on record; pages come from the node; and a page
that arrives for a cancelled run is of this session, and of that number as well. -/
def Harmless (s : State M) : Action M → Prop
  | .resume (.state (.ok tokenCount)) => Agrees s tokenCount
  | .resume (.page served) => ∃ read, served = .rpc read
  | .resumeCancelled i (.page served) => ∀ run ∈ s.cancelled[i]?, ∀ snapshot,
    run.phase = .fetching snapshot → ∀ page, fetchPage run.page snapshot served = .ok page →
      (∃ read, served = .rpc read) ∧ run.session = s.session ∧ Agrees s snapshot
  | _ => True

/-! ### Windows -/

variable {s s' : State M} {n m : ℕ} {number : ℕ+} {page page' : TokenPage} {entry : Entry}
  {phase : Phase} {i j k : ℕ}

theorem IsWindow.total (h : IsWindow n number page) : page.total = n := by
  obtain ⟨read, hread⟩ := h
  rw [fetchPage] at hread
  obtain ⟨htotal, -⟩ := getAllTokens_eq_ok hread
  exact (Except.ok.inj htotal).symm

theorem IsWindow.mem_asked (h : IsWindow n number page) (hi : i ∈ page.numbers) :
    i ∈ asked number page := by
  obtain ⟨read, hread⟩ := h
  rw [fetchPage] at hread
  obtain ⟨-, hnumbers⟩ := getAllTokens_eq_ok hread
  rw [hnumbers] at hi
  exact (List.mem_filter.mp hi).1

/-- Pages of one number of tokens do not share any. -/
theorem IsWindow.once {number' : ℕ+} (h : IsWindow n number page) (h' : IsWindow n number' page')
    (hi : i ∈ page.numbers) (hi' : i ∈ page'.numbers) : number = number' := by
  have hasked := h.mem_asked hi
  have hasked' := h'.mem_asked hi'
  rw [asked, h.total] at hasked
  rw [asked, h'.total] at hasked'
  have hsame := window_unique (by decide) hasked hasked'
  have hpos := number.pos
  have hpos' := number'.pos
  exact PNat.coe_injective (by omega)

/-- A page of a number of tokens goes on where the page before it ends. -/
theorem IsWindow.gapless (h : IsWindow n number page) (h' : IsWindow n (number + 1) page')
    (hj : j ∈ page'.numbers) (hk : k ∈ page.numbers) (hji : j ≤ i) (hik : i ≤ k) :
    i ∈ asked number page ∨ i ∈ asked (number + 1) page' := by
  have hnumber : ((number + 1 : ℕ+) : ℕ) - 1 = (number : ℕ) - 1 + 1 := by
    have hpos := number.pos
    rw [PNat.add_coe, PNat.one_coe]
    omega
  have hasked := h.mem_asked hk
  have hasked' := h'.mem_asked hj
  rw [asked, h.total] at hasked ⊢
  rw [asked, h'.total, hnumber] at hasked' ⊢
  exact mem_window_between hasked' hasked hji hik

/-! ### The invariant -/

/-- The entry is of this session, and a window of `n` tokens. -/
structure Belongs (s : State M) (n : ℕ) (number : ℕ+) (entry : Entry) : Prop where
  session : entry.session = s.session
  isWindow : IsWindow n number entry.page

/-- What is on record is of this session and of `n` tokens. -/
structure Recorded (s : State M) (n : ℕ) : Prop where
  snapshot : ∀ m ∈ s.tokenCountSnapshot, m = n
  cached : ∀ number entry, s.pageCache number = some entry → Belongs s n number entry
  shown : ∀ x ∈ s.shown, Belongs s n x.1 x.2

/-- What the run of the present effect waits for is of this session and of `n` tokens. -/
def Pursues (s : State M) (n : ℕ) (number : ℕ+) : Phase → Prop
  | .fetching snapshot => s.tokenCountSnapshot = some n ∧ snapshot = n
  | .enriching entry => s.tokenCountSnapshot = some n ∧ Belongs s n number entry
  | _ => True

/-- A session over a factory with `n` tokens. -/
structure Session (s : State M) (n : ℕ) : Prop where
  recorded : Recorded s n
  liveSession : s.live.session = s.session
  pursues : Pursues s n s.live.page s.live.phase

theorem Session.coherent (h : Session s n) : Coherent s where
  oneSnapshot := ⟨n, fun x hx => (h.recorded.shown x hx).isWindow⟩
  once x hx y hy i hi hi' :=
    (h.recorded.shown x hx).isWindow.once (h.recorded.shown y hy).isWindow hi hi'
  gapless x hx y hy hnext j hj k hk i hji hik := by
    have hy' := (h.recorded.shown y hy).isWindow
    rw [hnext] at hy' ⊢
    exact (h.recorded.shown x hx).isWindow.gapless hy' hj hk hji hik
  ownSession x hx := (h.recorded.shown x hx).session

/-- What agrees with the record can take the place of its number. -/
theorem Recorded.of_agrees (h : Recorded s n) (ha : Agrees s m) : Recorded s m := by
  refine ⟨ha.snapshot, fun number entry hentry => ?_, fun x hx => ?_⟩
  · have hbelongs := h.cached number entry hentry
    have hnm : n = m := by
      rw [← ha.cached number entry hentry, hbelongs.isWindow.total]
    rwa [hnm] at hbelongs
  · have hbelongs := h.shown x hx
    have hnm : n = m := by
      rw [← ha.shown x hx, hbelongs.isWindow.total]
    rwa [hnm] at hbelongs

/-- Another count that agrees with what has been read. -/
theorem Session.of_agrees (h : Session s n) (ha : Agrees s m) : Session s m := by
  refine ⟨h.recorded.of_agrees ha, h.liveSession, ?_⟩
  have hpursues := h.pursues
  cases hphase : s.live.phase with
  | readingState => trivial
  | fetching snapshot =>
    rw [hphase] at hpursues
    have hnm : n = m := ha.snapshot n hpursues.1
    rwa [hnm] at hpursues
  | enriching entry =>
    rw [hphase] at hpursues
    have hnm : n = m := ha.snapshot n hpursues.1
    rwa [hnm] at hpursues
  | done => trivial

/-! ### One step -/

variable {outcome : Outcome M} {a : Action M} {r : State M × Phase} {run : PageRun}

/-- The record depends on a few parts of the state only. -/
theorem Recorded.congr (h : Recorded s n) (hsnapshot : s'.tokenCountSnapshot = s.tokenCountSnapshot)
    (hcache : s'.pageCache = s.pageCache) (hshown : s'.shown = s.shown)
    (hsession : s'.session = s.session) : Recorded s' n := by
  constructor
  · rw [hsnapshot]
    exact h.snapshot
  · intro number entry hentry
    rw [hcache] at hentry
    have hbelongs := h.cached number entry hentry
    exact ⟨hbelongs.session.trans hsession.symm, hbelongs.isWindow⟩
  · intro x hx
    rw [hshown] at hx
    have hbelongs := h.shown x hx
    exact ⟨hbelongs.session.trans hsession.symm, hbelongs.isWindow⟩

/-- How a run stands that has gone on. -/
structure Continued (s : State M) (n : ℕ) (number : ℕ+) (r : State M × Phase) : Prop where
  recorded : Recorded r.1 n
  pursues : Pursues r.1 n number r.2
  session : r.1.session = s.session

theorem Recorded.lookUp (h : Recorded s n) (number : ℕ+)
    (hsnapshot : s.tokenCountSnapshot = some n) :
    Continued s n number (s.lookUp number n) := by
  rw [State.lookUp]
  split
  · next entry hentry =>
    have hbelongs := h.cached number entry hentry
    exact ⟨h.congr rfl rfl rfl rfl, ⟨hsnapshot, hbelongs.session, hbelongs.isWindow⟩, rfl⟩
  · exact ⟨h, ⟨hsnapshot, rfl⟩, rfl⟩

theorem Recorded.start (h : Recorded s n) : Continued s n s.currentPage s.start := by
  rw [State.start]
  split
  · exact ⟨h, trivial, rfl⟩
  · next snapshot hsnapshot =>
    have hn : snapshot = n := h.snapshot snapshot hsnapshot
    rw [hn] at hsnapshot ⊢
    exact h.lookUp _ hsnapshot

theorem Pursues.congr (h : Pursues s n number phase)
    (hsnapshot : s'.tokenCountSnapshot = s.tokenCountSnapshot) (hsession : s'.session = s.session) :
    Pursues s' n number phase := by
  cases phase with
  | readingState => trivial
  | fetching snapshot => exact ⟨hsnapshot.trans h.1, h.2⟩
  | enriching entry =>
    exact ⟨hsnapshot.trans h.1, h.2.session.trans hsession.symm, h.2.isWindow⟩
  | done => trivial

theorem Recorded.effect (h : Recorded s n) : Session s.effect n := by
  have hbegun : Recorded
      { s with loading := true, error := none, cancelled := s.cancelled ++ [s.live] } n :=
    h.congr rfl rfl rfl rfl
  have hcontinued := hbegun.start
  exact ⟨hcontinued.recorded.congr rfl rfl rfl rfl, hcontinued.session.symm,
    hcontinued.pursues.congr rfl rfl⟩

theorem Session.setCurrentPage (h : Session s n) : Session (s.setCurrentPage number) n := by
  rw [State.setCurrentPage]
  split_ifs
  · exact h
  · apply Recorded.effect
    exact h.recorded.congr rfl rfl rfl rfl

/-- A refresh leaves nothing on record. -/
theorem session_refresh (s : State M) (n : ℕ) : Session s.refresh n := by
  apply Recorded.effect
  refine ⟨fun m hm => ?_, fun number entry hentry => ?_, fun x hx => ?_⟩
  · cases hm
  · cases hentry
  · cases hx

/-- A retry keeps the session. -/
theorem Session.retry (h : Session s n) : Session s.retry n := by
  apply Recorded.effect
  refine ⟨fun m hm => ?_, fun number entry hentry => ?_, fun x hx => ?_⟩
  · cases hm
  · by_cases hnumber : number = s.currentPage
    · rw [hnumber] at hentry
      dsimp only at hentry
      rw [Function.update_self] at hentry
      cases hentry
    · dsimp only at hentry
      rw [Function.update_of_ne hnumber] at hentry
      have hbelongs := h.recorded.cached number entry hentry
      exact ⟨hbelongs.session, hbelongs.isWindow⟩
  · have hbelongs := h.recorded.shown x hx
    exact ⟨hbelongs.session, hbelongs.isWindow⟩

theorem Recorded.failed (h : Recorded s n) (cancelled : Bool) (reason : String) :
    Recorded (s.failed cancelled reason) n ∧
      (s.failed cancelled reason).tokenCountSnapshot = s.tokenCountSnapshot ∧
      (s.failed cancelled reason).session = s.session := by
  rw [State.failed]
  split_ifs
  · exact ⟨h, rfl, rfl⟩
  · exact ⟨h.congr rfl rfl rfl rfl, rfl, rfl⟩

/-- A page that belongs to the record may be put into the cache. -/
theorem Recorded.cache (h : Recorded s n) (hentry : Belongs s n number entry) :
    Recorded { s with pageCache := Function.update s.pageCache number (some entry) } n := by
  refine ⟨h.snapshot, fun number' entry' hentry' => ?_, fun x hx => ?_⟩
  · by_cases hnumber : number' = number
    · rw [hnumber] at hentry' ⊢
      dsimp only at hentry'
      rw [Function.update_self] at hentry'
      rw [← Option.some.inj hentry']
      exact ⟨hentry.session, hentry.isWindow⟩
    · dsimp only at hentry'
      rw [Function.update_of_ne hnumber] at hentry'
      have hbelongs := h.cached number' entry' hentry'
      exact ⟨hbelongs.session, hbelongs.isWindow⟩
  · have hbelongs := h.shown x hx
    exact ⟨hbelongs.session, hbelongs.isWindow⟩

/-- The run of the present effect goes on. -/
theorem Session.resume (h : Session s n) (hharmless : Harmless s (.resume outcome))
    (hresume : s.resume false s.live outcome = some r) :
    ∃ m, Continued s m s.live.page r := by
  have hpursues := h.pursues
  unfold State.resume at hresume
  split at hresume
  · next reason hphase =>
    obtain rfl := Option.some.inj hresume
    obtain ⟨hrecorded, -, hsession⟩ := h.recorded.failed false reason
    exact ⟨n, hrecorded, trivial, hsession⟩
  · next tokenCount hphase =>
    obtain rfl := Option.some.inj hresume
    -- the number that has been read becomes the one of the session
    have hrecorded := h.recorded.of_agrees (hharmless : Agrees s tokenCount)
    have hset : Recorded { s with tokenCountSnapshot := some tokenCount } tokenCount := by
      refine ⟨fun m hm => (Option.some.inj hm).symm, fun number entry hentry => ?_, fun x hx => ?_⟩
      · have hbelongs := hrecorded.cached number entry hentry
        exact ⟨hbelongs.session, hbelongs.isWindow⟩
      · have hbelongs := hrecorded.shown x hx
        exact ⟨hbelongs.session, hbelongs.isWindow⟩
    have hcontinued := hset.lookUp s.live.page rfl
    exact ⟨tokenCount, hcontinued.recorded, hcontinued.pursues, hcontinued.session⟩
  · next snapshot served hphase =>
    rw [hphase] at hpursues
    obtain ⟨hsnapshot, rfl⟩ := hpursues
    obtain ⟨read, rfl⟩ : ∃ read, served = .rpc read := hharmless
    split at hresume
    · next reason _ =>
      obtain rfl := Option.some.inj hresume
      obtain ⟨hrecorded, -, hsession⟩ := h.recorded.failed false reason
      exact ⟨snapshot, hrecorded, trivial, hsession⟩
    · next page hpage =>
      obtain rfl := Option.some.inj hresume
      have hentry : Belongs s snapshot s.live.page ⟨page, s.live.session⟩ :=
        ⟨h.liveSession, read, hpage⟩
      have hcached := h.recorded.cache hentry
      exact ⟨snapshot, hcached.congr rfl rfl rfl rfl,
        ⟨hsnapshot, hentry.session, hentry.isWindow⟩, rfl⟩
  · next entry eventIndex getMetadata hphase =>
    obtain rfl := Option.some.inj hresume
    rw [hphase] at hpursues
    obtain ⟨-, hentry⟩ := hpursues
    refine ⟨n, ⟨h.recorded.snapshot, fun number entry' hentry' => ?_, fun x hx => ?_⟩, trivial, rfl⟩
    · have hbelongs := h.recorded.cached number entry' hentry'
      exact ⟨hbelongs.session, hbelongs.isWindow⟩
    · have hbelongs : Belongs s n x.1 x.2 := by
        rcases List.mem_cons.mp hx with rfl | hx
        · exact hentry
        · exact h.recorded.shown x hx
      exact ⟨hbelongs.session, hbelongs.isWindow⟩
  · cases hresume

/-- A cancelled run goes on: it may write the cache, and does nothing else. -/
theorem Session.resumeCancelled (h : Session s n)
    (hharmless : Harmless s (.resumeCancelled i outcome)) (hrun : s.cancelled[i]? = some run)
    (hresume : s.resume true run outcome = some r) :
    ∃ m, Session r.1 m := by
  unfold State.resume at hresume
  split at hresume
  · obtain rfl := Option.some.inj hresume
    exact ⟨n, h⟩
  · obtain rfl := Option.some.inj hresume
    exact ⟨n, h⟩
  · -- the page arrives after the run was cancelled, and is cached all the same
    next snapshot served hphase =>
    split at hresume
    · obtain rfl := Option.some.inj hresume
      exact ⟨n, h⟩
    · next page hpage =>
      obtain rfl := Option.some.inj hresume
      obtain ⟨⟨read, rfl⟩, hsession, hagrees⟩ := hharmless run hrun snapshot hphase page hpage
      have hs := h.of_agrees hagrees
      have hentry : Belongs s snapshot run.page ⟨page, run.session⟩ := ⟨hsession, read, hpage⟩
      exact ⟨snapshot, ⟨hs.recorded.cache hentry, hs.liveSession, hs.pursues.congr rfl rfl⟩⟩
  · obtain rfl := Option.some.inj hresume
    exact ⟨n, h⟩
  · cases hresume

/-- **A harmless step keeps the invariant.** -/
theorem Session.step (h : Session s n) (hharmless : Harmless s a) (hstep : Step s a s') :
    ∃ m, Session s' m := by
  cases a with
  | setCurrentPage page =>
    obtain rfl := Option.some.inj hstep
    exact ⟨n, h.setCurrentPage⟩
  | refresh =>
    obtain rfl := Option.some.inj hstep
    exact ⟨n, session_refresh s n⟩
  | retry =>
    obtain rfl := Option.some.inj hstep
    exact ⟨n, h.retry⟩
  | resume outcome =>
    obtain ⟨r, hresume, rfl⟩ := Option.map_eq_some_iff.mp hstep
    obtain ⟨m, hcontinued⟩ := h.resume hharmless hresume
    exact ⟨m, hcontinued.recorded.congr rfl rfl rfl rfl, h.liveSession.trans hcontinued.session.symm,
      hcontinued.pursues.congr rfl rfl⟩
  -- only the cancelled runs need the hypothesis
  | resumeCancelled i outcome =>
    obtain ⟨run, hrun, hrest⟩ := Option.bind_eq_some_iff.mp hstep
    obtain ⟨r, hresume, rfl⟩ := Option.map_eq_some_iff.mp hrest
    obtain ⟨m, hsession⟩ := h.resumeCancelled hharmless hrun hresume
    exact ⟨m, hsession.recorded.congr rfl rfl rfl rfl, hsession.liveSession,
      hsession.pursues.congr rfl rfl⟩

/-! ### Runs -/

/-- Nothing is on record when the explorer is mounted. -/
theorem session_mount (n : ℕ) : Session ({} : State M) n where
  recorded := by
    refine ⟨fun m hm => ?_, fun number entry hentry => ?_, fun x hx => ?_⟩
    · cases hm
    · cases hentry
    · cases hx
  liveSession := rfl
  pursues := trivial

/-- **The pages shown since the last refresh are windows of one number of tokens**, in every run of
harmless steps. -/
theorem coherent_of_run {h : List (Action M)}
    (hr : Run (fun s a s' => Step s a s' ∧ Harmless s a) {} h s) : Coherent s := by
  have hsession : ∃ n, Session s n := by
    refine hr.invariant (I := fun s => ∃ n, Session s n) ?_ ⟨0, session_mount 0⟩
    rintro s a s' ⟨n, hs⟩ ⟨hstep, hharmless⟩
    exact hs.step hharmless hstep
  obtain ⟨n, hs⟩ := hsession
  exact hs.coherent

/-! ### A retry -/

/-- The record of some token. -/
def sampleInfo : TokenInfo := ⟨"", "", 7, "", 0, none, none, none⟩

/-- The count of the tokens arrives. -/
def countRead (tokenCount : ℕ) : Action Unit := .resume (.state (.ok tokenCount))

/-- The records of a page arrive. -/
def pageRead (read : ℕ → Except String TokenInfo) : Action Unit := .resume (.page (.rpc read))

/-- The rest of a page arrives, without metadata. -/
def pageEnriched : Action Unit := .resume (.enriched none fun _ => none)

/-- The pages that are shown when eleven tokens are browsed. -/
theorem coherent_of_run_browsed : ∃ h, ∃ s : State Unit,
    s.shown.map (fun x => (x.1, x.2.page.numbers)) =
      [(2, [1]), (1, [11, 10, 9, 8, 7, 6, 5, 4, 3, 2])] ∧
    Run (fun s a s' => Step s a s' ∧ Harmless s a) {} h s ∧ Coherent s := by
  have hagrees : Agrees ({} : State Unit) 11 := by
    refine ⟨fun m hm => ?_, fun number entry hentry => ?_, fun x hx => ?_⟩
    · cases hm
    · cases hentry
    · cases hx
  have h₀ : Run (fun (s : State Unit) a s' => Step s a s' ∧ Harmless s a) {} [] {} := .nil
  have h₁ := h₀.snoc (l := countRead 11) ⟨rfl, hagrees⟩
  have h₂ := h₁.snoc (l := pageRead fun _ => .ok sampleInfo) ⟨rfl, _, rfl⟩
  have h₃ := h₂.snoc (l := pageEnriched) ⟨rfl, trivial⟩
  have h₄ := h₃.snoc (l := Action.setCurrentPage 2) ⟨rfl, trivial⟩
  have h₅ := h₄.snoc (l := pageRead fun _ => .ok sampleInfo) ⟨rfl, _, rfl⟩
  have h₆ := h₅.snoc (l := pageEnriched) ⟨rfl, trivial⟩
  exact ⟨_, _, by decide, h₆, coherent_of_run h₆⟩

/-- The second page cannot be read at first; before the retry another token is created, and the second
token comes to be on both pages. -/
theorem not_coherent_retried : ¬ ∀ h s, Run Step ({} : State Unit) h s → Coherent s := by
  intro hall
  have h₀ : Run Step ({} : State Unit) [] {} := .nil
  have h₁ := h₀.snoc (l := countRead 11) rfl
  have h₂ := h₁.snoc (l := pageRead fun _ => .ok sampleInfo) rfl
  have h₃ := h₂.snoc (l := pageEnriched) rfl
  have h₄ := h₃.snoc (l := Action.setCurrentPage 2) rfl
  have h₅ := h₄.snoc (l := pageRead fun _ => .error "timeout") rfl
  have h₆ := h₅.snoc (l := Action.retry) rfl
  have h₇ := h₆.snoc (l := countRead 12) rfl
  have h₈ := h₇.snoc (l := pageRead fun _ => .ok sampleInfo) rfl
  have h₉ := h₈.snoc (l := pageEnriched) rfl
  have hcoherent := hall _ _ h₉
  have hsame := hcoherent.once _ List.mem_cons_self _ (List.mem_cons_of_mem _ List.mem_cons_self) 2
    (by decide) (by decide)
  exact absurd hsame (by decide)

end StellarForge.Frontend.Explorer
