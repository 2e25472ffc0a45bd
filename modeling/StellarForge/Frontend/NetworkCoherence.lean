import StellarForge.Frontend.Reads

/-!
# The network of what the page shows

Whatever network is selected, a hook keeps reading at the network of its own source: the one that the
page was built for, or `testnet`, which the exported service is never taken away from.

* `sourced_of_run`: what is cached or shown comes from the source of its hook;
* **`coherent_iff`**: when everything shown comes from the selected network;
* `not_coherent_switched`: the fees of `testnet` under `mainnet`.
-/

namespace StellarForge.Frontend.Reads

open Transition State

/-- The endpoints of a network; the indexer of the deployment is one of the network that it follows. -/
def Origin.Of (build : Build) (network : Network) : Origin → Prop
  | .node url =>
    url = (NETWORK_CONFIGS network).horizonUrl ∨ url = (NETWORK_CONFIGS network).sorobanRpcUrl
  | .indexer => build.indexer = some network

/-- The network that the service of `StellarContext` submits to. -/
def State.submitsTo (s : State) : Network := (contextService s.network).getImpl.1

/-- Every datum shown has been read from the network that the forms submit to. -/
def Coherent (build : Build) (s : State) : Prop :=
  ∀ inst ∈ s.instances, inst.mounted = true → ∀ datum ∈ inst.shown,
    datum.origin.Of build s.submitsTo

/-- The network that a hook reads at. -/
def HookName.source (build : Build) : HookName → Network
  | .useFactoryState | .useFeeSplit | .useTokenBalance => build.network
  | .useTokens | .useTokenInfo | .useTransactionPolling => .testnet

/-- The selected network is the one of every hook that shows what a node has answered, and the one
that the indexer follows where the indexer has answered. -/
def Aligned (build : Build) (s : State) : Prop :=
  ∀ inst ∈ s.instances, inst.mounted = true → ∀ datum ∈ inst.shown,
    match datum.origin with
    | .node _ => s.network = inst.ref.hook.source build
    | .indexer => build.indexer = some s.network

/-- Where a hook reads. -/
def HookName.url (build : Build) (hook : HookName) : String :=
  match hook with
  | .useTransactionPolling => (NETWORK_CONFIGS (hook.source build)).horizonUrl
  | _ => (NETWORK_CONFIGS (hook.source build)).sorobanRpcUrl

/-- The datum comes from the source of the hook, or from the indexer. -/
def FromSource (build : Build) (hook : HookName) (datum : Datum) : Prop :=
  datum.origin = .node (hook.url build) ∨ datum.origin = .indexer

/-- What is cached, shown or on its way comes from the source of its hook. -/
structure Sourced (build : Build) (s : State) : Prop where
  service : s.service.getImpl.1 = .testnet
  caches : ∀ hook, ∀ e ∈ s.caches hook, FromSource build hook e.2.datum
  shown : ∀ inst ∈ s.instances, ∀ datum ∈ inst.shown, FromSource build inst.ref.hook datum
  requests : ∀ r ∈ s.requests, r.url = r.ref.hook.url build

variable {build : Build} {s s' s₀ : State} {h : List Event} {hook : HookName} {key : String}

/-! ### Endpoints -/

/-- The implementation stays the one that it is. -/
theorem getImpl_getImpl (service : StellarService) :
    service.getImpl.2.getImpl.1 = service.getImpl.1 := by
  unfold StellarService.getImpl
  rcases himpl : service.impl with _ | network
  · rfl
  · simp only [himpl]

theorem endpoint_eq {service : StellarService} (h : service.getImpl.1 = .testnet) :
    (hook.endpoint build service).1 = hook.url build := by
  cases hook <;> simp only [HookName.endpoint, h] <;> rfl

theorem getImpl_endpoint {service : StellarService} :
    (hook.endpoint build service).2.getImpl.1 = service.getImpl.1 := by
  cases hook <;> first | rfl | exact getImpl_getImpl service

/-- No two networks share an endpoint. -/
theorem of_node_iff {network : Network} :
    (Origin.node (hook.url build)).Of build network ↔ network = hook.source build := by
  have hdisjoint : ∀ n m : Network,
      ((NETWORK_CONFIGS m).horizonUrl = (NETWORK_CONFIGS n).horizonUrl ∨
        (NETWORK_CONFIGS m).horizonUrl = (NETWORK_CONFIGS n).sorobanRpcUrl ↔ n = m) ∧
      ((NETWORK_CONFIGS m).sorobanRpcUrl = (NETWORK_CONFIGS n).horizonUrl ∨
        (NETWORK_CONFIGS m).sorobanRpcUrl = (NETWORK_CONFIGS n).sorobanRpcUrl ↔ n = m) := by
    intro n m
    cases n <;> cases m <;> decide
  cases hook with
  | useTransactionPolling => exact (hdisjoint network _).1
  | _ => exact (hdisjoint network _).2

/-! ### Steps -/

theorem Sourced.modify {ref : Ref} {f : Instance → Instance} (hs : Sourced build s)
    (href : ∀ inst, inst.ref = ref → (f inst).ref = ref)
    (hf : ∀ inst ∈ s.instances, inst.ref = ref → ∀ datum ∈ (f inst).shown,
      FromSource build ref.hook datum) : Sourced build (s.modify ref f) := by
  refine ⟨hs.service, hs.caches, fun inst hinst datum hdatum => ?_, hs.requests⟩
  obtain ⟨before, hbefore, rfl⟩ := List.mem_map.mp hinst
  split_ifs at hdatum ⊢ with heq
  · rw [href before heq]
    exact hf before hbefore heq datum hdatum
  · exact hs.shown before hbefore datum hdatum

/-- Showing what comes from the source. -/
theorem Sourced.show? {ref : Ref} {shown : Option Datum} (hs : Sourced build s)
    (hshown : ∀ datum ∈ shown, FromSource build ref.hook datum) :
    Sourced build (s.show? ref shown) := by
  apply hs.modify
  · intro inst href
    split_ifs <;> exact href
  · intro inst hinst href datum hdatum
    split_ifs at hdatum
    · exact hshown datum hdatum
    · rw [← href]
      exact hs.shown inst hinst datum hdatum

/-- Caching what comes from the source. -/
theorem Sourced.setCache {cache : Cache} (hs : Sourced build s)
    (hcache : ∀ e ∈ cache, FromSource build hook e.2.datum) : Sourced build (s.setCache hook cache) := by
  refine ⟨hs.service, fun other e he => ?_, hs.shown, hs.requests⟩
  rw [State.setCache] at he
  dsimp only at he
  split_ifs at he with heq
  · rw [heq]
    exact hcache e he
  · exact hs.caches other e he

theorem Sourced.cacheGet (hs : Sourced build s) (hook : HookName) (key : String) :
    (∀ e ∈ (s.cacheGet hook key).1, FromSource build hook e.datum) ∧
      Sourced build (s.cacheGet hook key).2 := by
  unfold State.cacheGet
  split
  · next e hfind =>
    have hmem : e ∈ s.caches hook := List.mem_of_find?_eq_some hfind
    refine ⟨fun e' he' => ?_, hs.setCache fun e' he' => ?_⟩
    · obtain rfl := Option.some.inj he'
      exact hs.caches hook e hmem
    · rcases List.mem_append.mp he' with hold | hnew
      · exact hs.caches hook e' (List.mem_filter.mp hold).1
      · obtain rfl := List.mem_singleton.mp hnew
        exact hs.caches hook _ hmem
  · exact ⟨nofun, hs⟩

theorem Sourced.cacheSet {entry : Entry} (hs : Sourced build s)
    (hentry : FromSource build hook entry.datum) : Sourced build (s.cacheSet hook key entry) := by
  unfold State.cacheSet
  have hcache : ∀ e ∈ (s.caches hook).filter (fun e => e.1 ≠ key) ++ [(key, entry)],
      FromSource build hook e.2.datum := by
    intro e he
    rcases List.mem_append.mp he with hold | hnew
    · exact hs.caches hook e (List.mem_filter.mp hold).1
    · obtain rfl := List.mem_singleton.mp hnew
      exact hentry
  apply hs.setCache
  split_ifs
  · exact fun e he => hcache e (List.mem_of_mem_tail he)
  · exact hcache

theorem Sourced.invalidateGlobalPages (hs : Sourced build s) :
    Sourced build (s.invalidateGlobalPages build) := by
  apply hs.setCache
  intro e he
  exact hs.caches .useTokens e (List.mem_filter.mp he).1

/-- A request goes to the source of its hook. -/
theorem Sourced.request {inst : Instance} {k : Key} (hs : Sourced build s) :
    Sourced build (s.request build inst k) := by
  have hmodified : Sourced build (s.modify inst.ref fun i =>
      { i with
        fetching := i.fetching || !k.latestWins
        requestId := if k.latestWins then inst.requestId + 1 else inst.requestId }) := by
    apply hs.modify
    · exact fun _ href => href
    · intro i hi href datum hdatum
      rw [← href]
      exact hs.shown i hi datum hdatum
  refine ⟨?_, hmodified.caches, hmodified.shown, fun r hr => ?_⟩
  · exact getImpl_endpoint.trans hs.service
  · rcases List.mem_append.mp hr with hold | hnew
    · exact hs.requests r hold
    · obtain rfl := List.mem_singleton.mp hnew
      exact endpoint_eq hs.service

/-- A load shows, or asks for, what comes from the source. -/
theorem Sourced.read {inst : Instance} {bypassCache : Bool} (hs : Sourced build s) :
    Sourced build (s.read build inst bypassCache) := by
  unfold State.read
  rcases hkey : inst.key with _ | k
  · exact hs.show? nofun
  · dsimp only
    -- the pages are invalidated or not; what is left is as well sourced
    generalize hpages : (if bypassCache = true ∧ inst.ref.hook = .useTokens ∧ k.latestWins = true then
      s.invalidateGlobalPages build else s) = pages
    have hpages' : Sourced build pages := by
      rw [← hpages]
      split_ifs
      · exact hs.invalidateGlobalPages
      · exact hs
    obtain ⟨hhit, hget⟩ := hpages'.cacheGet inst.ref.hook (cacheKey build k)
    split_ifs
    · apply hget.show?
      intro datum hdatum
      obtain ⟨e, he, rfl⟩ := Option.map_eq_some_iff.mp hdatum
      exact hhit e he
    · exact hget
    · exact hget.request

theorem Sourced.mount {k : Option Key} (hs : Sourced build s) :
    Sourced build (s.mount build hook k) := by
  unfold State.mount
  apply Sourced.read
  refine ⟨hs.service, hs.caches, fun inst hinst datum hdatum => ?_, hs.requests⟩
  rcases List.mem_append.mp hinst with hold | hnew
  · exact hs.shown inst hold datum hdatum
  · obtain rfl := List.mem_singleton.mp hnew
    obtain ⟨e, he, rfl⟩ := Option.map_eq_some_iff.mp hdatum
    obtain ⟨k', -, hcached⟩ := Option.bind_eq_some_iff.mp he
    split_ifs at hcached
    exact (hs.cacheGet hook _).1 e hcached

theorem Sourced.rekey {inst : Instance} {k : Option Key} (hinst : inst ∈ s.instances)
    (hs : Sourced build s) : Sourced build (s.rekey build inst k) := by
  unfold State.rekey
  apply Sourced.read
  apply hs.modify
  · exact fun _ _ => rfl
  · intro _ _ _ datum hdatum
    dsimp only at hdatum
    split_ifs at hdatum
    · exact nomatch hdatum
    · exact hs.shown inst hinst datum hdatum

theorem Sourced.unmount {ref : Ref} (hs : Sourced build s) : Sourced build (s.unmount ref) := by
  apply hs.modify
  · exact fun _ href => href
  · intro inst hinst href datum hdatum
    rw [← href]
    exact hs.shown inst hinst datum hdatum

/-- An answer comes from the source, since the request went there. -/
theorem Sourced.respond {r : Request} {outcome : Option Datum} (hs : Sourced build s)
    (hurl : r.url = r.ref.hook.url build)
    (hanswers : ∀ datum ∈ outcome, Answers build r datum.origin) :
    Sourced build (s.respond build r outcome) := by
  unfold State.respond
  -- an answer that is too late is dropped
  by_cases hsuperseded : s.superseded r = true
  · rw [if_pos hsuperseded]
    exact hs
  · rw [if_neg hsuperseded]
    -- the flag of the request in flight is not a datum
    have hsettled : Sourced build (s.modify r.ref fun inst =>
        { inst with fetching := inst.fetching && r.key.latestWins }) := by
      apply hs.modify
      · exact fun _ href => href
      · intro inst hinst href datum hdatum
        rw [← href]
        exact hs.shown inst hinst datum hdatum
    rcases outcome with _ | datum
    · exact hsettled
    · -- the answer is of the network asked, and the hook asks its own
      have hsource : FromSource build r.ref.hook datum := by
        have horigin := hanswers datum rfl
        rcases heq : datum.origin with url | _
        · rw [heq] at horigin
          exact .inl (by rw [heq, show url = r.url from horigin, hurl])
        · exact .inr heq
      dsimp only
      apply Sourced.show?
      · split_ifs
        · exact hsettled.cacheSet hsource
        · exact hsettled
      · intro other hother
        obtain rfl := Option.some.inj hother
        exact hsource

theorem sourced_load (stored : Option Network) (clock : ℕ) :
    Sourced build (State.load build stored clock) :=
  ⟨rfl, nofun, nofun, nofun⟩

/-- **A step keeps everything at its source**, whatever network is selected. -/
theorem Sourced.step {e : Event} (hs : Sourced build s) (hstep : Step build s e s') :
    Sourced build s' := by
  cases hstep with
  | tick _ => exact ⟨hs.service, hs.caches, hs.shown, hs.requests⟩
  | switchNetwork network => exact ⟨hs.service, hs.caches, hs.shown, hs.requests⟩
  | storage network => exact ⟨hs.service, hs.caches, hs.shown, hs.requests⟩
  | reload => exact sourced_load s.stored s.clock
  | mount hook key => exact hs.mount
  | rekey key hinst _ => exact hs.rekey hinst
  | refresh _ _ _ => exact hs.read
  | unmount ref => exact hs.unmount
  | clearTokenCache => exact hs.setCache nofun
  | respond hrequest hanswers =>
    apply Sourced.respond _ (hs.requests _ (List.mem_of_getElem? hrequest)) hanswers
    refine ⟨hs.service, hs.caches, hs.shown, fun r hr => ?_⟩
    exact hs.requests r (List.mem_of_mem_eraseIdx hr)

/-- **What is shown comes from the source of its hook**, in every run from a fresh page. -/
theorem sourced_of_run {stored : Option Network} {clock : ℕ}
    (hrun : Run (Step build) (State.load build stored clock) h s) : Sourced build s :=
  hrun.invariant (fun hs hstep => hs.step hstep) (sourced_load stored clock)

/-! ### Coherence -/

theorem submitsTo_eq : s.submitsTo = s.network := rfl

/-- **When everything shown comes from the selected network**: the sources of the hooks that show
something are that network. -/
theorem coherent_iff {stored : Option Network} {clock : ℕ}
    (hrun : Run (Step build) (State.load build stored clock) h s) :
    Coherent build s ↔ Aligned build s := by
  have hsourced := sourced_of_run hrun
  unfold Coherent Aligned
  refine forall₂_congr fun inst hinst => forall_congr' fun _ => forall₂_congr fun datum hdatum => ?_
  rw [submitsTo_eq]
  rcases hsourced.shown inst hinst datum hdatum with hnode | hindexer
  · rw [hnode]
    exact of_node_iff
  · rw [hindexer]
    rfl

/-! ### Another network -/

/-- A page that was built for `testnet`, without an indexer. -/
def testnetBuild : Build := ⟨.testnet, "CFACTORY", none⟩

/-- The fees of the factory on `testnet`. -/
def testnetFees : Datum := ⟨.node (getRpcUrl testnetBuild), "fees"⟩

/-- `useFactoryState` is mounted and waits for its first answer. -/
def feesLoading : State :=
  (State.load testnetBuild none 0).mount testnetBuild .useFactoryState (some .factory)

/-- The read of the fees. -/
def feesRequest : Request := ⟨⟨.useFactoryState, 0⟩, .factory, 0, getRpcUrl testnetBuild⟩

/-- The answer is there. -/
def feesShown : State :=
  { feesLoading with requests := [] }.respond testnetBuild feesRequest (some testnetFees)

/-- The hook, once it shows them. -/
def feesInstance : Instance :=
  { ref := ⟨.useFactoryState, 0⟩, key := some .factory, shown := some testnetFees }

theorem run_feesShown : Run (Step testnetBuild) (State.load testnetBuild none 0)
    [.respond 0 (some testnetFees), .mount .useFactoryState (some .factory)] feesShown := by
  have hrequest : feesLoading.requests[0]? = some feesRequest := rfl
  have hanswers : ∀ datum ∈ some testnetFees, Answers testnetBuild feesRequest datum.origin := by
    intro datum hdatum
    obtain rfl := Option.some.inj hdatum
    rfl
  exact .snoc (.snoc .nil (.mount .useFactoryState (some .factory))) (.respond hrequest hanswers)

/-- On the network of the build the fees are those of the selected network. -/
theorem coherent_iff_feesShown :
    feesInstance ∈ feesShown.instances ∧ (Coherent testnetBuild feesShown ↔
      Aligned testnetBuild feesShown) :=
  ⟨List.mem_singleton.mpr rfl, coherent_iff run_feesShown⟩

/-- The fees of `testnet` stay when `mainnet` is selected. -/
theorem not_coherent_switched :
    ∃ h s, Run (Step testnetBuild) (State.load testnetBuild none 0) h s ∧
      ¬ Coherent testnetBuild s := by
  refine ⟨_, _, run_feesShown.snoc (.switchNetwork .mainnet), fun hcoherent => ?_⟩
  have hof := hcoherent feesInstance (List.mem_singleton.mpr rfl) rfl testnetFees rfl
  have hiff : (Origin.node (HookName.useFactoryState.url testnetBuild)).Of testnetBuild .mainnet ↔
      Network.mainnet = HookName.useFactoryState.source testnetBuild := of_node_iff
  cases hiff.mp hof

end StellarForge.Frontend.Reads
