import StellarForge.Frontend.TokenIdentity
import StellarForge.Frontend.TokenSource
import StellarForge.System.IndexSoundness

/-!
# What is shown of a token

From the factory's events and views through the ingest cycles, the store, the read API and the source of the
frontend: `identity_agrees_iff` says **for which tokens the index and the chain show the same identity**, in
every deployment that can be reached.
-/

namespace StellarForge.System

open Soroban Contract Factory Transition Collections Indexer Frontend.Tokens

/-- The index is recent enough to be used. -/
def Fresh (options : IndexerSourceOptions) (state : IndexerState) : Prop :=
  ∃ indexedAt, indexedAtIso state = .ok indexedAt ∧
    ∀ lag ∈ lagFrom options indexedAt, lag ≤ options.maxLagSeconds

/-- Both reads give a token, with the same name, symbol, decimals and creator. -/
def SameIdentity (r r' : Except String Frontend.Tokens.TokenInfo) : Prop :=
  ∃ info info', r = .ok info ∧ r' = .ok info' ∧ info.name = info'.name ∧
    info.symbol = info'.symbol ∧ info.decimals = info'.decimals ∧ info.creator = info'.creator

variable {options : IndexerSourceOptions} {store : StoreCalls} {state : IndexerState}
  {rpc : Frontend.Tokens.TokenSource (Except String)} {address : String} {row : IndexedToken}
  {o : Option IndexedToken}

/-! ### The read of one token -/

/-- The request for a token, as it arrives. -/
def tokenRequest (address : String) : ReadRequest where
  method := some "GET"
  query name := if name = "address" then some (.one address) else none

/-- A row is served if there is one and the state can be dated. -/
theorem getTokenByAddress_eq_json {body : TokenBody} (hne : address ≠ "")
    (hget : store.getToken address = .ok o) (hstate : store.getState = .ok state) :
    getTokenByAddress store (tokenRequest address) = .json body ↔
      ∃ row indexedAt, o = some row ∧ indexedAtIso state = .ok indexedAt ∧
        { row with indexedAt } = body := by
  have hmethod : (tokenRequest address).method = some "GET" := rfl
  have hquery : (firstQueryValue ((tokenRequest address).query "address")).filter (· ≠ "") =
      some address := by
    show (some address).filter _ = _
    rw [Option.filter_some, if_pos (decide_eq_true hne)]
  rw [getTokenByAddress, requireMethod, if_pos hmethod, hquery]
  dsimp only
  rw [hget]
  rcases o with _ | row
  · simp
  · have hdated : (Except.ok state).bind indexedAtIso = indexedAtIso state := rfl
    rw [hstate, hdated]
    rcases hdate : indexedAtIso state with reason | indexedAt
    · simp [indexerUnavailable]
    · simp

/-- Only a response with a row is used. -/
theorem bodyOr404_arrived {res : ReadResponse TokenBody} {body : TokenBody} :
    (arrived res).bodyOr404 address = .ok body ↔ res = .json body := by
  rw [← arrived_body]
  by_cases h404 : ∃ err, res = .error 404 err
  · obtain ⟨err, rfl⟩ := h404
    exact iff_of_false nofun nofun
  · rw [Fetched.bodyOr404]
    rintro json hjson
    cases res with
    | json b => cases hjson
    | error status err =>
      injection hjson with hstatus
      exact h404 ⟨err, by rw [hstatus]⟩

/-- What the indexer gives of an address in time: the row of a fresh index. -/
theorem indexer_getTokenInfoByAddress_eq_ok {info : Frontend.Tokens.TokenInfo} (hne : address ≠ "")
    (hget : store.getToken address = .ok o) (hstate : store.getState = .ok state) :
    (createIndexerTokenSource options (servedBy store)).getTokenInfoByAddress address =
        some (.ok info) ↔ ∃ row, o = some row ∧ Fresh options state ∧ toTokenInfo row = info := by
  show (some _).map _ = _ ↔ _
  rw [Option.map_some, Option.some.injEq, used_eq_ok]
  simp only [bodyOr404_arrived]
  constructor
  · rintro ⟨body, hserved, hfresh, rfl⟩
    obtain ⟨row, indexedAt, hrow, hdate, rfl⟩ := (getTokenByAddress_eq_json hne hget hstate).mp hserved
    exact ⟨row, hrow, ⟨indexedAt, hdate, hfresh⟩, rfl⟩
  · rintro ⟨row, hrow, ⟨indexedAt, hdate, hfresh⟩, rfl⟩
    exact ⟨{ row with indexedAt },
      (getTokenByAddress_eq_json hne hget hstate).mpr ⟨row, indexedAt, hrow, hdate, rfl⟩, hfresh, rfl⟩

/-- The row of a fresh index is shown. -/
theorem shown_of_indexed (hne : address ≠ "") (hget : store.getToken address = .ok (some row))
    (hstate : store.getState = .ok state) (hfresh : Fresh options state) :
    ((createFallbackTokenSource (createIndexerTokenSource options (servedBy store)) rpc
      ).getTokenInfoByAddress address).result = .ok (toTokenInfo row) := by
  have hok := (indexer_getTokenInfoByAddress_eq_ok hne hget hstate).mpr ⟨row, rfl, hfresh, rfl⟩
  exact congrArg Served.result (orRpc_of_ok hok)

/-- Without one, what the RPC gives is shown. -/
theorem shown_of_not_indexed (hne : address ≠ "") (hget : store.getToken address = .ok o)
    (hstate : store.getState = .ok state) (h : ∀ row, o = some row → ¬ Fresh options state) :
    ((createFallbackTokenSource (createIndexerTokenSource options (servedBy store)) rpc
      ).getTokenInfoByAddress address).result = rpc.getTokenInfoByAddress address := by
  have hnot (info : Frontend.Tokens.TokenInfo) :
      (createIndexerTokenSource options (servedBy store)).getTokenInfoByAddress address ≠
        some (.ok info) := fun hok => by
    obtain ⟨row, hrow, hfresh, -⟩ := (indexer_getTokenInfoByAddress_eq_ok hne hget hstate).mp hok
    exact h row hrow hfresh
  obtain ⟨reason, hserved⟩ := orRpc_of_not_ok hnot
  exact congrArg Served.result hserved

/-! ### The identity that is shown -/

section

variable {sdk : IdentitySdk} {server : RpcServer} {render : Error → String} {args : ConstructorArgs}
  {h : List Action} {S : Deployment} {env : Env} {m : FactoryModel} {a : Address} {t : Token}

/-- What the RPC gives of a registered token. -/
theorem getTokenInfoByAddress_of_registered (hparse : sdk.parseAddress address = .ok a)
    (hserver : Simulates server render env S.world (.getTokenInfoByAddress a)) (hS : History S m)
    (ht : m.tokens.find? a = some t) :
    getTokenInfoByAddress sdk server address = .ok (shownToken sdk server address t) := by
  rw [Frontend.Tokens.getTokenInfoByAddress, resolveTokenInfoByAddress,
    getTokenInfoByAddressView_of_registered hparse hserver hS.represents hS.length_le ht]
  rfl

theorem SameIdentity.refl {info : Frontend.Tokens.TokenInfo} : SameIdentity (.ok info) (.ok info) :=
  ⟨info, info, rfl, rfl, rfl, rfl, rfl, rfl⟩

/-- The row of a token and its record differ, if at all, in the decimals. -/
theorem sameIdentity_iff_of_describes (hrow : Describes sdk.toViewSdk m t row) :
    SameIdentity (.ok (toTokenInfo row)) (.ok (shownToken sdk server address t)) ↔
      (row.source = .event → t.params.decimals = 0) := by
  have hdecimals := hrow.decimals
  constructor
  · rintro ⟨info, info', hinfo, hinfo', -, -, hsame, -⟩ hevent
    obtain rfl := Except.ok.inj hinfo
    obtain rfl := Except.ok.inj hinfo'
    rw [hevent] at hdecimals
    exact (show row.decimals = t.params.decimals from hsame).symm.trans hdecimals
  · intro hzero
    refine ⟨_, _, rfl, rfl, hrow.name, hrow.symbol, ?_, hrow.creator⟩
    show row.decimals = t.params.decimals
    rw [hdecimals]
    cases hsource : row.source with
    | backfill => rfl
    | event => exact (hzero hsource).symm

/-- The row that is stored under the address of a token describes the token. -/
theorem describes_of_find? (hparse : ∀ a, sdk.parseAddress (sdk.address a) = .ok a)
    (hindex : IndexTrue sdk.toViewSdk m S.index.store.tokens)
    (hrow : S.index.store.tokens.find? (sdk.address a) = some row) :
    ∃ t, m.tokens.find? a = some t ∧ Describes sdk.toViewSdk m t row := by
  obtain ⟨t, ht⟩ := hindex.describes row (Keyed.find?_eq_some.mp hrow).1
  have haddress : row.address = sdk.address a := Keyed.key_of_find? hrow
  have hsame : t.address = a := sdk.injective_address hparse (ht.address.symm.trans haddress)
  exact ⟨t, hsame ▸ ht.find?, ht⟩

/-- **For which tokens the index and the chain show the same identity**, in a deployment that any calls of
the factory, ingest cycles, crashes and repeated deliveries have led to.  The service asks the index and
then the chain for an address.  It shows a registered token with the name, symbol, decimals and creator
that the factory has recorded, unless the row of a fresh index was made from an event and the token has
decimals; and for an address that is not registered it shows what the chain says. -/
theorem identity_agrees_iff (hparse : ∀ a, sdk.parseAddress (sdk.address a) = .ok a)
    (hS : Deployed sdk.toViewSdk args h S) (hne : sdk.address a ≠ "")
    (hget : store.getToken (sdk.address a) = .ok (S.index.store.tokens.find? (sdk.address a)))
    (hstate : store.getState = .ok state)
    (hserver : Simulates server render env S.world (.getTokenInfoByAddress a))
    (hrpc : rpc.getTokenInfoByAddress = getTokenInfoByAddress sdk server) :
    ∃ m, Represents S.world m ∧
      let shown := ((createFallbackTokenSource (createIndexerTokenSource options (servedBy store)) rpc
        ).getTokenInfoByAddress (sdk.address a)).result
      (∀ t, m.tokens.find? a = some t →
        (SameIdentity shown (rpc.getTokenInfoByAddress (sdk.address a)) ↔
          ∀ row, S.index.store.tokens.find? (sdk.address a) = some row → Fresh options state →
            row.source = .event → t.params.decimals = 0)) ∧
      (m.tokens.find? a = none → shown = rpc.getTokenInfoByAddress (sdk.address a)) := by
  obtain ⟨m, hhistory, hindex⟩ := hS.indexTrue (sdk.injective_address hparse)
  refine ⟨m, hhistory.represents, ?_⟩
  intro shown
  by_cases hshown : ∃ row, S.index.store.tokens.find? (sdk.address a) = some row ∧ Fresh options state
  · -- the row is shown, and it describes the token
    obtain ⟨row, hrow, hfresh⟩ := hshown
    obtain ⟨t, ht, hdescribes⟩ := describes_of_find? hparse hindex hrow
    have hrecord := getTokenInfoByAddress_of_registered (hparse a) hserver hhistory ht
    have hresult : shown = .ok (toTokenInfo row) :=
      shown_of_indexed hne (hget.trans (congrArg Except.ok hrow)) hstate hfresh
    constructor
    · intro t' ht'
      obtain rfl := Option.some.inj (ht.symm.trans ht')
      rw [hresult, hrpc, hrecord, sameIdentity_iff_of_describes hdescribes, hrow]
      simp [hfresh]
    · intro hnone
      rw [ht] at hnone
      cases hnone
  · -- the record is shown
    have hresult : shown = rpc.getTokenInfoByAddress (sdk.address a) :=
      shown_of_not_indexed hne hget hstate fun row hrow hfresh => hshown ⟨row, hrow, hfresh⟩
    refine ⟨fun t ht => ?_, fun _ => hresult⟩
    rw [hresult, hrpc, getTokenInfoByAddress_of_registered (hparse a) hserver hhistory ht]
    exact iff_of_true .refl fun row hrow hfresh => absurd ⟨row, hrow, hfresh⟩ hshown

end

/-! ### The sample deployment -/

namespace SampleDeployment

/-- The time of the chain is that of the rows. -/
def sourceOptions : IndexerSourceOptions where
  parseDate _ := some 10000
  now := 20000

/-- The store after the cycle. -/
def calls : StoreCalls where
  getState := .ok indexed.index.store.state
  listTokens _ := .error "refused"
  getToken address := .ok (indexed.index.store.tokens.find? address)

/-- A node with the state of the factory. -/
def server : RpcServer := fun view =>
  match view.exec (permissiveEnv 20 ⟨5⟩) indexed.world with
  | some (.ok ret, _) => .returned ret
  | some (.error err, _) => .failed (sampleRender err)
  | none => .failed "HostError"

/-- A node that lists no tokens, and resolves them one by one. -/
def rpcSource : Frontend.Tokens.TokenSource (Except String) where
  getAllTokens _ _ _ := .error "unreachable"
  getTokenInfoByAddress := Frontend.Tokens.getTokenInfoByAddress sampleIdentitySdk server

/-- What the service shows. -/
def shown (address : String) : Except String Frontend.Tokens.TokenInfo :=
  ((createFallbackTokenSource (createIndexerTokenSource sourceOptions (servedBy calls)) rpcSource
    ).getTokenInfoByAddress address).result

/-- The token of the sample is registered. -/
theorem registered {m : FactoryModel} (hm : Represents indexed.world m) :
    ∃ t, m.tokens.find? ⟨50⟩ = some t ∧ t.params.decimals = 7 := by
  have hm : Holds indexed.world m m.state := hm
  have hview := @Holds.exec_getTokenInfoByAddress (permissiveEnv 20 ⟨5⟩) _ _ _ hm ⟨50⟩
  rcases ht : m.tokens.find? ⟨50⟩ with _ | t
  · rw [ht] at hview
    cases hview
  · rw [ht] at hview
    refine ⟨t, rfl, ?_⟩
    injection hview with hview
    injection hview with hview
    injection hview with hview
    injection hview with hview
    exact congrArg Factory.TokenInfo.decimals hview.symm

theorem fresh : Fresh sourceOptions indexed.index.store.state := by
  refine ⟨some "1970-01-01T00:00:10.000Z", ?_, ?_⟩
  · decide +kernel
  · decide +kernel

end SampleDeployment

/-- The token of the sample deployment has decimals, which its row lacks. -/
theorem identity_agrees_iff_sampleDeployment :
    ¬ SameIdentity (SampleDeployment.shown "C50")
      (SampleDeployment.rpcSource.getTokenInfoByAddress "C50") := by
  have hserver : Simulates SampleDeployment.server sampleRender (permissiveEnv 20 ⟨5⟩)
      SampleDeployment.indexed.world
      (.getTokenInfoByAddress ⟨50⟩) := rfl
  have hrpc : SampleDeployment.rpcSource.getTokenInfoByAddress =
      Frontend.Tokens.getTokenInfoByAddress sampleIdentitySdk SampleDeployment.server := rfl
  have hget : SampleDeployment.calls.getToken (sampleIdentitySdk.address ⟨50⟩) =
      .ok (SampleDeployment.indexed.index.store.tokens.find? (sampleIdentitySdk.address ⟨50⟩)) := rfl
  obtain ⟨m, hm, hknown, -⟩ := identity_agrees_iff sampleIdentitySdk_parse SampleDeployment.deployed
    (by decide) hget rfl hserver hrpc
  obtain ⟨t, ht, hdecimals⟩ := SampleDeployment.registered hm
  intro hsame
  have hzero := (hknown t ht).mp hsame _ rfl SampleDeployment.fresh rfl
  omega

end StellarForge.System
