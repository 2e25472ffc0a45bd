import Mathlib.Tactic.Common
import StellarForge.Collections.Text
import StellarForge.Transition.Run

/-!
# What the page reads from the chain

The hooks that read chain data, with the caches of their modules, and the selection of the network.
Each hook chooses the endpoint that it reads from by itself: some from the network that the page was
built for, the others from the service that `services/stellar.ts` exports.  The forms submit through
the service of `StellarContext`.
-/

namespace StellarForge.Frontend.Reads

open Transition

/-! ### Networks and services -/

/-- The networks that the selector offers. -/
inductive Network
  | testnet
  | mainnet
  | standalone
  deriving DecidableEq, Repr

/-- The endpoints of a network. -/
structure NetworkConfig where
  horizonUrl : String
  sorobanRpcUrl : String
  deriving DecidableEq, Repr

/-- `NETWORK_CONFIGS` of `config/stellar.ts` -/
def NETWORK_CONFIGS : Network → NetworkConfig
  | .testnet => ⟨"https://horizon-testnet.stellar.org", "https://soroban-testnet.stellar.org"⟩
  | .mainnet => ⟨"https://horizon.stellar.org", "https://soroban-mainnet.stellar.org"⟩
  | .standalone => ⟨"http://localhost:8000", "http://localhost:8000/soroban/rpc"⟩

/-- `STELLAR_CONFIG` and `ENV`, fixed at build time; `indexer` is the network that the indexer of the
deployment follows, if it is enabled. -/
structure Build where
  network : Network
  factoryContractId : String
  indexer : Option Network

/-- `StellarService`; `impl` is the network of the implementation that `implPromise` holds. -/
structure StellarService where
  network : Network := .testnet
  impl : Option Network := none

/-- `getImpl` -/
def StellarService.getImpl (service : StellarService) : Network × StellarService :=
  match service.impl with
  | some network => (network, service)
  | none => (service.network, { service with impl := some service.network })

/-- The exported `stellarService`. -/
def stellarService : StellarService := {}

/-- The service that `StellarProvider` makes for a network. -/
def contextService (network : Network) : StellarService := { network }

/-! ### Hooks -/

/-- The hooks that read chain data. -/
inductive HookName
  | useFactoryState
  | useFeeSplit
  | useTokenBalance
  | useTokens
  | useTokenInfo
  | useTransactionPolling
  deriving DecidableEq, Repr

/-- What one load of a hook is about. -/
inductive Key
  | factory
  | balance (tokenAddress accountAddress : String)
  | creator (address : String)
  | page (page pageSize : ℕ)
  | token (address : String)
  | transaction (txHash : String)
  deriving DecidableEq, Repr

/-- `getRpcUrl` of the hooks that read at the network of the build. -/
def getRpcUrl (build : Build) : String := (NETWORK_CONFIGS build.network).sorobanRpcUrl

/-- Where the hook reads. -/
def HookName.endpoint (build : Build) (service : StellarService) :
    HookName → String × StellarService
  | .useFactoryState | .useFeeSplit | .useTokenBalance => (getRpcUrl build, service)
  | .useTokens | .useTokenInfo =>
    ((NETWORK_CONFIGS service.getImpl.1).sorobanRpcUrl, service.getImpl.2)
  | .useTransactionPolling => ((NETWORK_CONFIGS service.getImpl.1).horizonUrl, service.getImpl.2)

/-- The module has a cache. -/
def HookName.caches : HookName → Bool
  | .useFactoryState | .useFeeSplit | .useTokens | .useTokenInfo => true
  | .useTokenBalance | .useTransactionPolling => false

/-- The token sources that ask the indexer first. -/
def Key.indexed : Key → Bool
  | .page .. | .token _ => true
  | _ => false

/-- The latest request wins; elsewhere a request in flight keeps others from starting.  `useTokens` does
both, by what it is asked for: global pages go by `requestIdRef`, the tokens of a creator by
`fetchingRef`. -/
def Key.latestWins : Key → Bool
  | .page .. | .transaction _ => true
  | _ => false

/-- The hook returns a `refetch`, `refresh` or the like. -/
def HookName.refreshes : HookName → Bool
  | .useFeeSplit | .useTransactionPolling => false
  | _ => true

/-- How long an entry of a cache is served. -/
def CACHE_TTL_MS : ℕ := 30000

/-- The cap of the cache of `useTokens`. -/
def CACHE_MAX_SIZE : ℕ := 50

/-- What no creator's address begins with. -/
def GLOBAL_KEY_PREFIX : String := "all"

/-- The prefix of the keys of global pages. -/
def globalPrefix (build : Build) : String :=
  let network := match build.network with
    | .testnet => "testnet"
    | .mainnet => "mainnet"
    | .standalone => "standalone"
  GLOBAL_KEY_PREFIX ++ ":" ++ network ++ ":" ++ build.factoryContractId ++ ":"

/-- `globalPageKey`, and the keys of the other modules. -/
def cacheKey (build : Build) : Key → String
  | .page page pageSize => globalPrefix build ++ toString pageSize ++ ":" ++ toString page
  | .creator address | .token address => address
  | _ => ""

/-- Who has answered a read: a node at an endpoint, or the indexer. -/
inductive Origin
  | node (url : String)
  | indexer
  deriving DecidableEq, Repr

/-- What has been read, and where. -/
structure Datum where
  origin : Origin
  content : String
  deriving DecidableEq, Repr

/-- An entry of a cache. -/
structure Entry where
  datum : Datum
  fetchedAt : ℕ

/-- A cache, with the least recently used entry first. -/
abbrev Cache := List (String × Entry)

/-- An instance of a hook. -/
structure Ref where
  hook : HookName
  number : ℕ
  deriving DecidableEq, Repr

/-- Its state; `key` is `none` while an argument is empty.  It has the two guards of `useTokens`, of which
`Key.latestWins` says the one that a load goes by; the other hooks have one of them. -/
structure Instance where
  ref : Ref
  key : Option Key
  shown : Option Datum := none
  /-- `fetchingRef`: a read that has not ended keeps `load` from starting another one. -/
  fetching : Bool := false
  /-- `requestIdRef`: the answer to an earlier request is dropped. -/
  requestId : ℕ := 0
  mounted : Bool := true

/-- A read that is on its way, with the closure that it was started from. -/
structure Request where
  ref : Ref
  key : Key
  requestId : ℕ
  url : String

/-- A page of the application, with the caches of its modules. -/
structure State where
  /-- The selected network. -/
  network : Network
  /-- `stellarforge_network` in `localStorage`. -/
  stored : Option Network
  service : StellarService := stellarService
  caches : HookName → Cache := fun _ => []
  instances : List Instance := []
  requests : List Request := []
  nextNumber : ℕ := 0
  clock : ℕ := 0

namespace State

variable (build : Build) (s : State)

/-- `NetworkProvider` is mounted: the stored network is restored. -/
def load (stored : Option Network) (clock : ℕ) : State where
  network := stored.getD build.network
  stored := stored
  clock := clock

/-- An update of one instance. -/
def modify (ref : Ref) (f : Instance → Instance) : State :=
  { s with instances := s.instances.map fun inst => if inst.ref = ref then f inst else inst }

/-- The setter of what an instance shows; without effect once it is unmounted. -/
def show? (ref : Ref) (datum : Option Datum) : State :=
  s.modify ref fun inst => if inst.mounted then { inst with shown := datum } else inst

/-- The cache of one module is replaced. -/
def setCache (hook : HookName) (cache : Cache) : State :=
  { s with caches := fun other => if other = hook then cache else s.caches other }

/-- `cacheGet`: the entry becomes the most recently used one. -/
def cacheGet (hook : HookName) (key : String) : Option Entry × State :=
  match (s.caches hook).find? fun e => e.1 = key with
  | some e => (some e.2, s.setCache hook ((s.caches hook).filter (fun e => e.1 ≠ key) ++ [e]))
  | none => (none, s)

/-- `cacheSet`: the least recently used entry of `useTokens` goes when there are too many. -/
def cacheSet (hook : HookName) (key : String) (entry : Entry) : State :=
  let cache := (s.caches hook).filter (fun e => e.1 ≠ key) ++ [(key, entry)]
  s.setCache hook (if hook = .useTokens ∧ CACHE_MAX_SIZE < cache.length then cache.tail else cache)

/-- `invalidateGlobalPages` -/
def invalidateGlobalPages : State :=
  s.setCache .useTokens ((s.caches .useTokens).filter fun e =>
    !(globalPrefix build).toList.isPrefixOf e.1.toList)

/-- A request leaves.  It takes the next `requestIdRef.current`, or it sets `fetchingRef.current`. -/
def request (inst : Instance) (key : Key) : State :=
  let endpoint := inst.ref.hook.endpoint build s.service
  let requestId := if key.latestWins then inst.requestId + 1 else inst.requestId
  { s.modify inst.ref fun i => { i with fetching := i.fetching || !key.latestWins, requestId } with
    service := endpoint.2
    requests := s.requests ++ [⟨inst.ref, key, requestId, endpoint.1⟩] }

/-- `load` of a hook: `loadCreator` and `loadGlobal` for `useTokens`. -/
def read (inst : Instance) (bypassCache : Bool) : State :=
  match inst.key with
  | none => s.show? inst.ref none
  | some key =>
    let s := if bypassCache ∧ inst.ref.hook = .useTokens ∧ key.latestWins then
      s.invalidateGlobalPages build else s
    let (hit, s) := s.cacheGet inst.ref.hook (cacheKey build key)
    if !bypassCache && hit.any fun e => s.clock - e.fetchedAt < CACHE_TTL_MS then
      s.show? inst.ref (hit.map (·.datum))
    -- a load is dropped while one is on its way; a global page supersedes it
    else if inst.fetching && !key.latestWins then s
    else s.request build inst key

/-- A hook is mounted: it starts with what its cache has, and loads. -/
def mount (hook : HookName) (key : Option Key) : State :=
  let cached := key.bind fun key =>
    if hook = .useTokens ∧ key.latestWins then none
    else (s.cacheGet hook (cacheKey build key)).1
  let inst : Instance := { ref := ⟨hook, s.nextNumber⟩, key, shown := cached.map (·.datum) }
  { s with instances := s.instances ++ [inst], nextNumber := s.nextNumber + 1 }.read build inst false

/-- The arguments of a hook change.  `useTransactionPolling` starts over; the others load. -/
def rekey (inst : Instance) (key : Option Key) : State :=
  let restarts := inst.ref.hook = .useTransactionPolling
  let inst := { inst with
    key := key
    shown := if restarts then none else inst.shown
    requestId := if restarts then inst.requestId + 1 else inst.requestId }
  (s.modify inst.ref fun _ => inst).read build inst false

/-- A hook is unmounted; `useTransactionPolling` no longer listens. -/
def unmount (ref : Ref) : State :=
  s.modify ref fun inst => { inst with
    mounted := false
    requestId := if ref.hook = .useTransactionPolling then inst.requestId + 1 else inst.requestId }

/-- The request has been superseded by a later one. -/
def superseded (r : Request) : Bool :=
  r.key.latestWins && !s.instances.any fun inst => inst.ref = r.ref && inst.requestId = r.requestId

/-- A read resolves, or fails. -/
def respond (r : Request) (outcome : Option Datum) : State :=
  if s.superseded r then s
  else
    -- the `finally` of a load that has set `fetchingRef`
    let s := s.modify r.ref fun inst => { inst with fetching := inst.fetching && r.key.latestWins }
    match outcome with
    | none => s
    | some datum =>
      let s := if r.ref.hook.caches then
        s.cacheSet r.ref.hook (cacheKey build r.key) ⟨datum, s.clock⟩ else s
      s.show? r.ref datum

end State

/-! ### Runs -/

/-- What may happen to the page. -/
inductive Event
  | tick (clock : ℕ)
  | switchNetwork (network : Network)
  /-- The `storage` event, after another tab has switched. -/
  | storage (network : Network)
  | reload
  | mount (hook : HookName) (key : Option Key)
  | rekey (ref : Ref) (key : Option Key)
  | refresh (ref : Ref)
  | unmount (ref : Ref)
  /-- `_clearCache`, when the wallet is disconnected. -/
  | clearTokenCache
  | respond (index : ℕ) (outcome : Option Datum)

/-- Who may answer a request. -/
def Answers (build : Build) (r : Request) : Origin → Prop
  | .node url => url = r.url
  | .indexer => build.indexer.isSome ∧ r.key.indexed = true

/-- One event, and the page after it. -/
inductive Step (build : Build) (s : State) : Event → State → Prop
  | tick {clock : ℕ} (h : s.clock ≤ clock) : Step build s (.tick clock) { s with clock }
  | switchNetwork (network : Network) :
    Step build s (.switchNetwork network) { s with network, stored := some network }
  | storage (network : Network) :
    Step build s (.storage network) { s with network, stored := some network }
  | reload : Step build s .reload (State.load build s.stored s.clock)
  | mount (hook : HookName) (key : Option Key) :
    Step build s (.mount hook key) (s.mount build hook key)
  | rekey {inst : Instance} (key : Option Key) (hinst : inst ∈ s.instances)
    (hmounted : inst.mounted = true) : Step build s (.rekey inst.ref key) (s.rekey build inst key)
  | refresh {inst : Instance} (hinst : inst ∈ s.instances) (hmounted : inst.mounted = true)
    (hrefreshes : inst.ref.hook.refreshes = true) :
    Step build s (.refresh inst.ref) (s.read build inst true)
  | unmount (ref : Ref) : Step build s (.unmount ref) (s.unmount ref)
  | clearTokenCache : Step build s .clearTokenCache (s.setCache .useTokens [])
  | respond {i : ℕ} {r : Request} {outcome : Option Datum} (hrequest : s.requests[i]? = some r)
    (hanswers : ∀ datum ∈ outcome, Answers build r datum.origin) :
    Step build s (.respond i outcome)
      ({ s with requests := s.requests.eraseIdx i }.respond build r outcome)

end StellarForge.Frontend.Reads
