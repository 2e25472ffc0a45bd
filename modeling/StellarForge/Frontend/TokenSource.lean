import StellarForge.Frontend.TokenReads
import StellarForge.Indexer.ReadApi

/-!
# Tokens from the indexer, or else from the chain

`createFallbackTokenSource` asks the read API of the indexer first, and the RPC whenever that fails: it is
late, unreachable, refuses the request, has no such token, or is too far behind.  The listing of the
indexer takes an offset for a cursor.

* `getAllTokens_cases`: what is shown comes from a page of the index that is in time and not too old, or
  else is what the RPC gives;
* `agrees_iff`: **on which pages the indexer and the RPC say the same.**
-/

namespace StellarForge.Frontend.Tokens

open Collections Indexer MemoryStore

/-! ### Sources -/

/-- Reasons a read was served by RPC instead of the indexer. -/
inductive DowngradeReason
  | disabled
  | error
  | timeout
  | stale
  | notFound
  deriving DecidableEq, Repr

/-- Why the indexer is not used. -/
inductive IndexerError
  | timeout
  | stale (lagSeconds : ℤ)
  | notFound (address : String)
  | other (message : String)
  deriving DecidableEq, Repr

/-- The reason that is recorded. -/
def classify : IndexerError → DowngradeReason
  | .timeout => .timeout
  | .stale _ => .stale
  | .notFound _ => .notFound
  | .other _ => .error

/-- The reads of tokens; `F` is what a call comes to. -/
structure TokenSource (F : Type → Type) where
  getAllTokens (offset limit : ℕ) (tokenCountSnapshot : Option ℕ) : F TokenPage
  getTokenInfoByAddress (address : String) : F TokenInfo

/-- A promise of the indexer at the deadline; `none` has not settled. -/
abbrev Promised (α : Type) : Type := Option (Except IndexerError α)

/-- What a read gives, and the downgrades that were reported. -/
structure Served (α : Type) where
  result : Except String α
  downgrades : List DowngradeReason := []

/-- `withTimeout`: reject what has not settled at the deadline. -/
def withTimeout {α : Type} (promise : Promised α) : Except IndexerError α :=
  promise.getD (.error .timeout)

/-- Any failure of the indexer gives the result of the RPC. -/
def orRpc {α : Type} (indexer : Promised α) (rpc : Except String α) : Served α :=
  match withTimeout indexer with
  | .ok a => { result := .ok a }
  | .error err => { result := rpc, downgrades := [classify err] }

/-- The source that asks the indexer, and the contract where that fails. -/
def createFallbackTokenSource (indexer : TokenSource Promised) (rpc : TokenSource (Except String)) :
    TokenSource Served where
  getAllTokens offset limit tokenCountSnapshot :=
    orRpc (indexer.getAllTokens offset limit tokenCountSnapshot)
      (rpc.getAllTokens offset limit tokenCountSnapshot)
  getTokenInfoByAddress address :=
    orRpc (indexer.getTokenInfoByAddress address) (rpc.getTokenInfoByAddress address)

/-! ### The indexer -/

/-- What `fetch` comes to; `json` is the body, where it is JSON. -/
inductive Fetched (B : Type)
  | rejected (message : String)
  | response (status : ℕ) (json : Option B)

/-- The requests to the read API; `none` has not been answered at the deadline. -/
structure Api where
  tokens (params : List (String × String)) : Option (Fetched TokensBody)
  token (address : String) : Option (Fetched TokenBody)

/-- How far the indexer may lag behind. -/
def DEFAULT_MAX_LAG_SECONDS : ℤ := 15 * 60

/-- The options of the source, and the clock and the parser of dates. -/
structure IndexerSourceOptions where
  maxLagSeconds : ℤ := DEFAULT_MAX_LAG_SECONDS
  /-- `Date.parse`; `none` is `NaN`. -/
  parseDate : String → Option ℤ
  /-- `Date.now()` -/
  now : ℤ

/-- The URI stands only where it is not empty; a time of the chain is not negative. -/
def toTokenInfo (payload : IndexedToken) : TokenInfo where
  name := payload.name
  symbol := payload.symbol
  decimals := payload.decimals
  creator := payload.creator
  createdAt := payload.createdAt.toNat
  metadataUri := payload.metadataUri.filter (· ≠ "")
  index := some payload.tokenIndex

/-- Seconds of lag implied by an `indexedAt` timestamp, or `none` when unknown. -/
def lagFrom (options : IndexerSourceOptions) (indexedAt : Option String) : Option ℤ :=
  ((indexedAt.filter (· ≠ "")).bind options.parseDate).map fun parsed =>
    max 0 ((options.now - parsed + 500) / 1000)

/-- Reject when the payload is too far behind to be presented as current. -/
def assertFresh (options : IndexerSourceOptions) (indexedAt : Option String) :
    Except IndexerError Unit :=
  match lagFrom options indexedAt with
  | none => .ok ()
  | some lag => if lag > options.maxLagSeconds then .error (.stale lag) else .ok ()

/-- The body of a response that is `ok`. -/
def Fetched.body {B : Type} : Fetched B → Except IndexerError B
  | .rejected message => .error (.other message)
  | .response status json =>
    if 200 ≤ status ∧ status ≤ 299 then
      match json with
      | some body => .ok body
      | none => .error (.other "Unexpected token in JSON")
    else .error (.other ("Indexer returned " ++ toString status))

/-- The same, where the status 404 is told apart. -/
def Fetched.bodyOr404 {B : Type} (address : String) : Fetched B → Except IndexerError B
  | .response 404 _ => .error (.notFound address)
  | fetched => fetched.body

/-- The parameters of the request for a page. -/
def listingParams (offset limit : ℕ) : List (String × String) :=
  ("limit", toString limit) :: if 0 < offset then [("cursor", toString offset)] else []

/-- The page that a listing becomes; the total is a lower bound. -/
def pageOf (offset : ℕ) (body : TokensBody) : TokenPage :=
  let tokens := body.tokens.map toTokenInfo
  let highest := (tokens.map fun token => token.index.getD 0).foldr max 0
  ⟨tokens, max highest (offset + tokens.length)⟩

/-- The source that reads the indexer. -/
def createIndexerTokenSource (options : IndexerSourceOptions) (api : Api) : TokenSource Promised where
  getAllTokens offset limit _ := (api.tokens (listingParams offset limit)).map fun res => do
    let body ← res.body
    assertFresh options body.indexedAt
    return pageOf offset body
  getTokenInfoByAddress address := (api.token address).map fun res => do
    let body ← res.bodyOr404 address
    assertFresh options body.indexedAt
    return toTokenInfo body.toIndexedToken

/-! ### The API over a store -/

/-- An answer of the API, as `fetch` returns it. -/
def arrived {B : Type} : ReadResponse B → Fetched B
  | .json body => .response 200 (some body)
  | .error status _ => .response status none

/-- The API, where every request is answered in time by the handlers over one store. -/
def servedBy (store : StoreCalls) : Api where
  tokens params := some <| arrived <| getTokens store {
    method := some "GET"
    query := fun name => (params.lookup name).map .one }
  token address := some <| arrived <| getTokenByAddress store {
    method := some "GET"
    query := fun name => if name = "address" then some (.one address) else none }

variable {options : IndexerSourceOptions} {offset limit n k : ℕ} {snapshot : Option ℕ}
  {rpc : TokenSource (Except String)} {api : Api} {address : String}

/-! ### Which source is shown -/

section

variable {α B : Type} {promise : Promised α} {result : Except String α} {a : α} {err : IndexerError}

theorem orRpc_of_ok (h : promise = some (.ok a)) : orRpc promise result = { result := .ok a } := by
  rw [h]
  rfl

/-- What is no value in time is the result of the RPC. -/
theorem orRpc_of_not_ok (h : ∀ a, promise ≠ some (.ok a)) :
    ∃ reason, orRpc promise result = { result, downgrades := [reason] } := by
  rcases promise with _ | err | a
  · exact ⟨.timeout, rfl⟩
  · exact ⟨classify err, rfl⟩
  · exact absurd rfl (h a)

/-- An index is fresh when its lag is known to be small, or not known at all. -/
theorem assertFresh_eq_ok {indexedAt : Option String} :
    assertFresh options indexedAt = .ok () ↔
      ∀ lag ∈ lagFrom options indexedAt, lag ≤ options.maxLagSeconds := by
  rw [assertFresh]
  rcases lagFrom options indexedAt with _ | lag
  · exact iff_of_true rfl nofun
  · dsimp only
    split_ifs with hold
    · refine iff_of_false nofun fun hle => ?_
      exact not_lt.mpr (hle lag rfl) hold
    · refine iff_of_true rfl fun lag' hlag => ?_
      rw [← Option.some.inj hlag]
      exact not_lt.mp hold

/-- A body is used if it is there and fresh. -/
theorem used_eq_ok {body : Except IndexerError B} {indexedAt : B → Option String} {read : B → α} :
    (do
      let body ← body
      assertFresh options (indexedAt body)
      return read body : Except IndexerError α) = .ok a ↔
      ∃ b, body = .ok b ∧ (∀ lag ∈ lagFrom options (indexedAt b), lag ≤ options.maxLagSeconds) ∧
        read b = a := by
  simp only [bind_eq_ok, pure, Except.pure, Except.ok.injEq, ← assertFresh_eq_ok,
    Unique.exists_iff]

end

/-- The pages of the indexer are those of the responses in time that are not too old. -/
theorem indexer_getAllTokens_eq_ok {page : TokenPage} :
    (createIndexerTokenSource options api).getAllTokens offset limit snapshot = some (.ok page) ↔
      ∃ res body, api.tokens (listingParams offset limit) = some res ∧ res.body = .ok body ∧
        (∀ lag ∈ lagFrom options body.indexedAt, lag ≤ options.maxLagSeconds) ∧
        pageOf offset body = page := by
  show (api.tokens (listingParams offset limit)).map _ = _ ↔ _
  rw [Option.map_eq_some_iff]
  constructor
  · rintro ⟨res, hres, hpage⟩
    obtain ⟨body, hbody, hfresh, hpage⟩ := used_eq_ok.mp hpage
    exact ⟨res, body, hres, hbody, hfresh, hpage⟩
  · rintro ⟨res, body, hres, hbody, hfresh, hpage⟩
    exact ⟨res, hres, used_eq_ok.mpr ⟨body, hbody, hfresh, hpage⟩⟩

/-- What is shown is the page of a response in time that is not too old, or what the RPC gives. -/
theorem getAllTokens_cases (options : IndexerSourceOptions) (api : Api)
    (rpc : TokenSource (Except String)) (offset limit : ℕ) (snapshot : Option ℕ) :
    (∃ res body, api.tokens (listingParams offset limit) = some res ∧ res.body = .ok body ∧
      (∀ lag ∈ lagFrom options body.indexedAt, lag ≤ options.maxLagSeconds) ∧
      (createFallbackTokenSource (createIndexerTokenSource options api) rpc).getAllTokens
        offset limit snapshot = { result := .ok (pageOf offset body) }) ∨
    ∃ reason, (createFallbackTokenSource (createIndexerTokenSource options api) rpc).getAllTokens
        offset limit snapshot =
      { result := rpc.getAllTokens offset limit snapshot, downgrades := [reason] } := by
  by_cases hpage : ∃ page,
      (createIndexerTokenSource options api).getAllTokens offset limit snapshot = some (.ok page)
  · obtain ⟨page, hpage⟩ := hpage
    obtain ⟨res, body, hres, hbody, hfresh, rfl⟩ := indexer_getAllTokens_eq_ok.mp hpage
    exact .inl ⟨res, body, hres, hbody, hfresh, orRpc_of_ok hpage⟩
  · exact .inr (orRpc_of_not_ok fun page hok => hpage ⟨page, hok⟩)

/-! ### Agreement of the two sources -/

/-- The same tokens in the same order, and the same total. -/
def SamePage (r r' : Except String TokenPage) : Prop :=
  ∃ page page', r = .ok page ∧ r' = .ok page' ∧ page.numbers = page'.numbers ∧
    page.total = page'.total

theorem numbers_pageOf (offset : ℕ) (body : TokensBody) :
    (pageOf offset body).numbers = body.tokens.map IndexedToken.tokenIndex := by
  rw [TokenPage.numbers, pageOf, List.filterMap_map]
  show body.tokens.filterMap (some ∘ IndexedToken.tokenIndex) = _
  exact congrFun List.filterMap_eq_map body.tokens

/-- The total of a page whose numbers go down. -/
theorem total_pageOf (offset : ℕ) (body : TokensBody) :
    (pageOf offset body).total =
      max ((body.tokens.map IndexedToken.tokenIndex).foldr max 0) (offset + body.tokens.length) := by
  rw [pageOf]
  simp only [List.map_map, List.length_map]
  rfl

/-- The cursor that is asked for. -/
def cursorOf (offset : ℕ) : Option ℕ := if 0 < offset then some offset else none

theorem clampLimit_toString (hpos : 1 ≤ limit) (hle : limit ≤ 100) :
    clampLimit (some (toString limit)) = limit := by
  rw [clampLimit, Option.bind_some, parseInt_toString]
  show (if (limit : ℤ) < 1 then DEFAULT_PAGE_LIMIT else min (limit : ℤ) MAX_PAGE_LIMIT) = limit
  rw [if_neg (by omega), min_eq_left]
  rw [MAX_PAGE_LIMIT]
  omega

/-- The request for a page, as it arrives. -/
def listingRequest (offset limit : ℕ) : ReadRequest where
  method := some "GET"
  query name := ((listingParams offset limit).lookup name).map .one

/-- The handler reads back what the source has asked for. -/
theorem listOptions_listingRequest (offset : ℕ) (hpos : 1 ≤ limit) (hle : limit ≤ 100) :
    listOptions (listingRequest offset limit) =
      { cursor := (cursorOf offset).map fun c : ℕ => (c : ℤ), limit } := by
  have hlimit : firstQueryValue ((listingRequest offset limit).query "limit") =
      some (toString limit) := rfl
  rw [listOptions, hlimit, clampLimit_toString hpos hle, cursorOf]
  split_ifs with hoffset
  · have hcursor : firstQueryValue ((listingRequest offset limit).query "cursor") =
        some (toString offset) := by
      rw [listingRequest, listingParams, if_pos hoffset]
      rfl
    rw [hcursor, parseCursor_toString hoffset, listingRequest, listingParams, if_pos hoffset]
    rfl
  · rw [listingRequest, listingParams, if_neg hoffset]
    rfl

theorem arrived_body {B : Type} {res : ReadResponse B} {body : B} :
    (arrived res).body = .ok body ↔ res = .json body := by
  cases res with
  | json b => simp [arrived, Fetched.body]
  | error status err =>
    refine iff_of_false ?_ nofun
    rw [arrived, Fetched.body]
    split_ifs <;> exact nofun

/-- The page that is shown, where the listing of the store is answered and fresh. -/
theorem getAllTokens_of_listed {store : StoreCalls} {state : IndexerState}
    {result : Listing IndexedToken} {indexedAt : Option String} (hpos : 1 ≤ limit) (hle : limit ≤ 100)
    (hstate : store.getState = .ok state) (htime : indexedAtIso state = .ok indexedAt)
    (hfresh : ∀ lag ∈ lagFrom options indexedAt, lag ≤ options.maxLagSeconds)
    (hresult : store.listTokens { cursor := (cursorOf offset).map fun c : ℕ => (c : ℤ), limit } =
      .ok result) :
    (createFallbackTokenSource (createIndexerTokenSource options (servedBy store)) rpc).getAllTokens
        offset limit snapshot =
      { result := .ok (pageOf offset ⟨result.rows, result.nextCursor, indexedAt⟩) } := by
  refine orRpc_of_ok (indexer_getAllTokens_eq_ok.mpr ⟨_, _, rfl, ?_, hfresh, rfl⟩)
  refine arrived_body.mpr (getTokens_eq_json.mpr ⟨rfl, state, result, indexedAt, hstate, ?_, htime, rfl⟩)
  exact (congrArg store.listTokens (listOptions_listingRequest offset hpos hle)).trans hresult

/-- A listing that the store refuses is read from the RPC. -/
theorem getAllTokens_of_refused {store : StoreCalls} {reason : String} (hpos : 1 ≤ limit)
    (hle : limit ≤ 100)
    (hresult : store.listTokens { cursor := (cursorOf offset).map fun c : ℕ => (c : ℤ), limit } =
      .error reason) :
    ((createFallbackTokenSource (createIndexerTokenSource options (servedBy store)) rpc).getAllTokens
        offset limit snapshot).result = rpc.getAllTokens offset limit snapshot := by
  obtain ⟨reason', hserved⟩ : ∃ reason', orRpc
      ((createIndexerTokenSource options (servedBy store)).getAllTokens offset limit snapshot)
      (rpc.getAllTokens offset limit snapshot) =
        { result := rpc.getAllTokens offset limit snapshot, downgrades := [reason'] } := by
    refine orRpc_of_not_ok fun page hpage => ?_
    obtain ⟨res, body, hres, hbody, -, -⟩ := indexer_getAllTokens_eq_ok.mp hpage
    obtain rfl := Option.some.inj hres
    obtain ⟨-, _, _, _, -, hlist, -, -⟩ := getTokens_eq_json.mp (arrived_body.mp hbody)
    have hlist' := (congrArg store.listTokens (listOptions_listingRequest offset hpos hle)).symm.trans
      hlist
    rw [hresult] at hlist'
    cases hlist'
  exact congrArg Served.result hserved

/-! ### A page of each -/

/-- A page of the RPC, where its reads succeed. -/
theorem exists_getAllTokens {getFactoryState : Except String ℕ} {read : ℕ → Except String TokenInfo}
    (htotal : snapshot.elim getFactoryState .ok = .ok n)
    (hread : ∀ i, 1 ≤ i → i ≤ n → (read i).isOk) (hpos : 1 ≤ limit) :
    ∃ page, getAllTokens getFactoryState read offset limit snapshot = .ok page ∧ page.total = n ∧
      page.numbers = window n offset limit := by
  have hall : ∀ i ∈ window n offset limit, (read i).isOk := fun i hi => by
    rw [mem_window] at hi
    exact hread i hi.1 (by omega)
  obtain ⟨page, hpage⟩ : ∃ page,
      getAllTokens getFactoryState read offset limit snapshot = .ok page := by
    rw [getAllTokens, htotal]
    dsimp only
    split_ifs with hzero hpast hnil
    · exact ⟨_, rfl⟩
    · exact ⟨_, rfl⟩
    · -- the window has a number, and its read succeeds
      have hmem : n - offset ∈ window n offset limit := by
        rw [mem_window]
        omega
      have hnone := List.filterMap_eq_nil_iff.mp hnil (n - offset) hmem
      have hok := hall (n - offset) hmem
      rcases hr : read (n - offset) with err | info
      · rw [hr] at hok
        cases hok
      · rw [hr] at hnone
        cases hnone
    · exact ⟨_, rfl⟩
  obtain ⟨hcount, hnumbers⟩ := getAllTokens_eq_ok hpage
  obtain rfl := Except.ok.inj (htotal.symm.trans hcount)
  exact ⟨page, hpage, rfl, hnumbers.trans (List.filter_eq_self.mpr hall)⟩

/-- The first number of a page of the index that holds the numbers up to `k`. -/
def highestListed (k offset : ℕ) : ℕ := if offset = 0 then k else min k (offset - 1)

/-- A page of the index. -/
theorem pageOf_listing {tokens : Keyed IndexedToken.address} (h : HoldsUpTo k tokens) (hpos : 1 ≤ limit)
    (hle : limit ≤ 100) (offset : ℕ) (indexedAt : Option String) :
    let result := listing IndexedToken.tokenIndex (pageLimit limit)
      (tokenRows tokens.records { cursor := (cursorOf offset).map fun c : ℕ => (c : ℤ), limit })
    let page := pageOf offset ⟨result.rows, result.nextCursor, indexedAt⟩
    page.numbers = window (highestListed k offset) 0 limit ∧
      page.total = max (highestListed k offset) (offset + min limit (highestListed k offset)) := by
  intro result page
  -- the limit of the page is inside the bounds of the API
  have hlimit : pageLimit limit = limit := by
    have hclamped := pageLimit_clampLimit (some (toString limit))
    rw [clampLimit_toString hpos hle] at hclamped
    exact Int.ofNat_inj.mp hclamped
  -- the cursor excludes the token it names, hence one less
  have hhigh : (cursorOf offset).elim k (fun c => min k (c - 1)) = highestListed k offset := by
    rw [cursorOf, highestListed]
    split_ifs with hpositive hzero hzero
    · omega
    · rfl
    · rfl
    · omega
  have hnumbers : result.rows.map IndexedToken.tokenIndex = window (highestListed k offset) 0 limit := by
    show ((tokenRows _ _).take (pageLimit limit)).map IndexedToken.tokenIndex = _
    rw [hlimit, List.map_take, map_tokenIndex_tokenRows h, hhigh, window_eq_take_drop, List.drop_zero]
  refine ⟨(numbers_pageOf ..).trans hnumbers, ?_⟩
  rw [total_pageOf, hnumbers, foldr_max_window hpos]
  show max _ (offset + result.rows.length) = _
  rw [← List.length_map (f := IndexedToken.tokenIndex), hnumbers, length_window, Nat.sub_zero]

theorem samePage_iff {page page' : TokenPage} :
    SamePage (.ok page) (.ok page') ↔ page.numbers = page'.numbers ∧ page.total = page'.total := by
  constructor
  · rintro ⟨q, q', hq, hq', hsame⟩
    rwa [← Except.ok.inj hq, ← Except.ok.inj hq'] at hsame
  · rintro ⟨hnumbers, htotal⟩
    exact ⟨page, page', rfl, rfl, hnumbers, htotal⟩

/-- **Where the index agrees with the chain**: the index holds the tokens `1`, …, `k` and is not too old, and
the factory has `n` tokens, all of which can be read.  The two give the same tokens and the same total on
the first page when the index is complete, and on a later page only if the store refuses its cursor, or if
the page is the last one and the numbers below the offset happen to be those from its end. -/
theorem agrees_iff {P : Type} {backend : Backend P} {first second : backend.State} {reason : String}
    {indexedAt : Option String} {getFactoryState : Except String ℕ}
    {read : ℕ → Except String TokenInfo} (hindex : HoldsUpTo k (backend.tokens second))
    (htime : indexedAtIso (backend.checkpoint first) = .ok indexedAt)
    (hfresh : ∀ lag ∈ lagFrom options indexedAt, lag ≤ options.maxLagSeconds)
    (hrpc : rpc.getAllTokens = getAllTokens getFactoryState read)
    (htotal : snapshot.elim getFactoryState .ok = .ok n)
    (hread : ∀ i, 1 ≤ i → i ≤ n → (read i).isOk) (hpos : 1 ≤ limit) (hle : limit ≤ 100) :
    SamePage
        ((createFallbackTokenSource (createIndexerTokenSource options
          (servedBy (backend.calls first second reason))) rpc).getAllTokens offset limit snapshot).result
        (rpc.getAllTokens offset limit snapshot) ↔
      if offset = 0 then k = n
      else backend.Refuses offset ∨
        (offset ≤ n ∧ n ≤ offset + limit ∧ min k (offset - 1) = n - offset) := by
  obtain ⟨page, hpage, hn, hnumbers⟩ : ∃ page,
      getAllTokens getFactoryState read offset limit snapshot = .ok page ∧ page.total = n ∧
        page.numbers = window n offset limit := exists_getAllTokens htotal hread hpos
  rw [hrpc, hpage]
  by_cases hrefused : offset ≠ 0 ∧ backend.Refuses offset
  · -- the answer is that of the RPC
    obtain ⟨hoffset, hrefused⟩ := hrefused
    have hcursor : (cursorOf offset).map (fun c : ℕ => (c : ℤ)) = some (offset : ℤ) := by
      rw [cursorOf, if_pos (Nat.pos_of_ne_zero hoffset)]
      rfl
    rw [getAllTokens_of_refused hpos hle (calls_listTokens_refused hcursor hrefused), hrpc, hpage,
      samePage_iff, if_neg hoffset]
    exact iff_of_true ⟨rfl, rfl⟩ (.inl hrefused)
  · have hserves : ∀ cursor ∈ (cursorOf offset).map fun c : ℕ => (c : ℤ),
        ∃ offset' : ℕ, cursor = offset' ∧ ¬ backend.Refuses offset' := by
      rintro _ hcursor
      obtain ⟨c, hc, rfl⟩ := Option.map_eq_some_iff.mp hcursor
      rw [cursorOf] at hc
      split_ifs at hc with hoffset
      obtain rfl := Option.some.inj hc
      exact ⟨offset, rfl, fun h => hrefused ⟨hoffset.ne', h⟩⟩
    rw [getAllTokens_of_listed hpos hle calls_getState htime hfresh (calls_listTokens rfl hserves),
      samePage_iff, hnumbers, hn]
    obtain ⟨hlisted, hcount⟩ := pageOf_listing hindex hpos hle offset indexedAt
    rw [hlisted, hcount, window_inj hpos, highestListed]
    split_ifs with hoffset
    · rw [hoffset]
      omega
    · have hnot : ¬ backend.Refuses offset := fun h => hrefused ⟨hoffset, h⟩
      rw [or_iff_right hnot]
      omega

namespace SampleSource

/-- The row of a token. -/
def row (index : ℕ) : IndexedToken where
  address := toString index
  tokenIndex := index
  name := "A"
  symbol := "A"
  decimals := 7
  creator := "G"
  createdAt := 0
  metadataUri := none
  source := .backfill

/-- The tokens `1`, `2` and `3`, indexed at `1000`. -/
def store : MemoryStore Unit where
  tokens := ((Keyed.empty.set (row 1)).set (row 2)).set (row 3)
  state := { lastLedgerCloseTime := some 1000 }
  events := .empty

/-- The indexer has run a second ago. -/
def sourceOptions : IndexerSourceOptions where
  parseDate _ := some 1000
  now := 2000

/-- What the contract says of a token. -/
def read (index : ℕ) : Except String TokenInfo := .ok (toTokenInfo (row index))

/-- The contract has three tokens. -/
def rpcSource : TokenSource (Except String) where
  getAllTokens := getAllTokens (.ok 3) read
  getTokenInfoByAddress _ := .error "No token found"

/-- A store in memory. -/
def backend : Backend Unit := .memory fun a b => a ≤ b

/-- The source of the service. -/
def source : TokenSource Served :=
  createFallbackTokenSource
    (createIndexerTokenSource sourceOptions (servedBy (backend.calls store store "refused"))) rpcSource

theorem holdsUpTo : HoldsUpTo 3 (backend.tokens store) := by
  show (store.tokens.records.map IndexedToken.tokenIndex).Perm [1, 2, 3]
  decide

theorem fresh : ∀ lag ∈ lagFrom sourceOptions (some "1970-01-01T00:00:01.000Z"),
    lag ≤ sourceOptions.maxLagSeconds := by
  decide

end SampleSource

/-- With two tokens a page, the second page of the index is that of the chain by chance, and so is not the
one before it. -/
theorem agrees_iff_sampleSource :
    SamePage (SampleSource.source.getAllTokens 2 2 none).result
        (SampleSource.rpcSource.getAllTokens 2 2 none) ∧
      ¬ SamePage (SampleSource.source.getAllTokens 1 2 none).result
        (SampleSource.rpcSource.getAllTokens 1 2 none) := by
  have hread : ∀ i, 1 ≤ i → i ≤ 3 → (SampleSource.read i).isOk := fun _ _ _ => rfl
  have htime : indexedAtIso (SampleSource.backend.checkpoint SampleSource.store) =
      .ok (some "1970-01-01T00:00:01.000Z") := by decide
  constructor
  · refine (agrees_iff SampleSource.holdsUpTo htime SampleSource.fresh rfl rfl hread (by decide)
      (by decide)).mpr ?_
    exact .inr (by decide)
  · refine mt (agrees_iff SampleSource.holdsUpTo htime SampleSource.fresh rfl rfl hread (by decide)
      (by decide)).mp ?_
    rintro (hrefuses | hpage)
    · exact hrefuses
    · exact absurd hpage (by decide)

end StellarForge.Frontend.Tokens
