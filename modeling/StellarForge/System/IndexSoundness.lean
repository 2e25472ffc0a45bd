import StellarForge.Frontend.TokenIdentity
import StellarForge.System.Deployment

/-!
# The rows of the index are true

`Describes sdk m t row`: what the row says of the token `t` of the factory `m`.  A row of the backfill has
all of the token's identity; a row of a `created` event has `0` for the decimals, which the event does not
carry, and has `0` for the number where that could not be looked up.

* `describes_of_readFrom`: each row that is written is made of answers that are true;
* `rows_of_step`: **what happens keeps every row true**, a crash and a repeated delivery included;
* `index_sound`: in every reachable deployment every row describes a registered token, and its URI is one
  that the token has had.
-/

namespace StellarForge.System

open Soroban Contract Factory Transition Collections Indexer
open Frontend.Tokens (ViewSdk simulate)
open Frontend.TokenEvents (topic)

/-- What a row says of the token `t`, other than its URI. -/
structure Describes (sdk : ViewSdk) (m : FactoryModel) (t : Token) (row : IndexedToken) : Prop where
  find? : m.tokens.find? t.address = some t
  address : row.address = sdk.address t.address
  name : row.name = sdk.text t.params.name
  symbol : row.symbol = sdk.text t.params.symbol
  creator : row.creator = sdk.address t.creator
  tokenIndex : m.tokens.index? t.address = some row.tokenIndex ∨
    row.source = .event ∧ row.tokenIndex = 0
  decimals : row.decimals = match row.source with
    | .backfill => t.params.decimals
    | .event => 0
  createdAt : row.createdAt = match row.source with
    | .backfill => (sdk.number t.createdAt : ℤ)
    | .event => (t.createdAt : ℤ)

/-- The URI is one that the token with the address has had. -/
def HadUri (sdk : ViewSdk) (m : FactoryModel) (address uri : String) : Prop :=
  ∃ t bytes, m.tokens.find? t.address = some t ∧ address = sdk.address t.address ∧ bytes ∈ t.uris ∧
    uri = sdk.text bytes

/-- Every row is true of the factory `m`. -/
structure IndexTrue (sdk : ViewSdk) (m : FactoryModel) (tokens : Keyed IndexedToken.address) :
    Prop where
  describes : Rows (fun row => ∃ t, Describes sdk m t row) tokens
  uris : Rows (fun row => ∀ uri ∈ row.metadataUri, HadUri sdk m row.address uri) tokens

variable {sdk : ViewSdk} {args : ConstructorArgs} {h : List Action} {S S' : Deployment} {env : Env}
  {w : World} {m m' : FactoryModel} {rpc : SorobanRpc} {row : IndexedToken} {raw : RawEvent} {t : Token}
  {index : ℕ} {ws : List Write} {tokens : Keyed IndexedToken.address} {address uri : String}

/-! ### Later states -/

/-- A row describes the token in every later state. -/
theorem Describes.of_precedes (h : Describes sdk m t row) (hm : m.Precedes m') :
    ∃ t', Describes sdk m' t' row := by
  obtain ⟨t', ht', hkeeps⟩ := hm.find? h.find?
  have haddress := hkeeps.address
  have hparams := hkeeps.params
  have hcreatedAt := hkeeps.createdAt
  refine ⟨t', ?_, ?_, ?_, ?_, ?_, ?_, ?_, ?_⟩
  · rw [haddress]
    exact ht'
  · rw [haddress]
    exact h.address
  · rw [hparams]
    exact h.name
  · rw [hparams]
    exact h.symbol
  · rw [hkeeps.creator]
    exact h.creator
  · rw [haddress]
    exact h.tokenIndex.imp_left hm.index?
  · rw [hparams]
    exact h.decimals
  · rw [hcreatedAt]
    exact h.createdAt

theorem HadUri.of_precedes (h : HadUri sdk m address uri) (hm : m.Precedes m') :
    HadUri sdk m' address uri := by
  obtain ⟨t, bytes, ht, rfl, hbytes, rfl⟩ := h
  obtain ⟨t', ht', hkeeps⟩ := hm.find? ht
  rw [← hkeeps.address] at ht' ⊢
  exact ⟨t', bytes, ht', rfl, hkeeps.uris hbytes, rfl⟩

/-- What is true stays true. -/
theorem IndexTrue.of_precedes (h : IndexTrue sdk m tokens) (hm : m.Precedes m') :
    IndexTrue sdk m' tokens where
  describes row hrow := by
    obtain ⟨t, ht⟩ := h.describes row hrow
    exact ht.of_precedes hm
  uris row hrow uri huri := (h.uris row hrow uri huri).of_precedes hm

/-! ### Answers that are true -/

/-- A later record gives the same view of the identity. -/
theorem infoView_of_keeps {t' : Token} (h : t.Keeps t') : infoView sdk t'.info = infoView sdk t.info := by
  have hparams := h.params
  have hcreator := h.creator
  have hcreatedAt := h.createdAt
  simp only [infoView, Token.info, hparams, hcreator, hcreatedAt]

section

variable (hS : History S m) (hanswers : Answers sdk S rpc)

include hS hanswers

/-- A record that was read is that of a token of the present. -/
theorem exists_of_tokenInfo {info : TokenInfoView} (hinfo : rpc.tokenInfo index = some info) :
    ∃ t, m.tokens.at? index = some t ∧ info = infoView sdk t.info := by
  obtain ⟨w, hw, env, native, hsimulate, rfl⟩ := hanswers.tokenInfo _ _ hinfo
  obtain ⟨m₀, hm₀, hle, hprecedes⟩ := hS.worlds w hw
  rw [simulate_eq hm₀ hle, FactoryModel.answer, toOption_found, Option.map_eq_some_iff] at hsimulate
  obtain ⟨t₀, ht₀, hnative⟩ := hsimulate
  obtain rfl := Ret.info.inj hnative
  obtain ⟨t, ht, hkeeps⟩ := hprecedes.at? ht₀
  exact ⟨t, ht, (infoView_of_keeps hkeeps).symm⟩

/-- An address that was read is that of a token of the present. -/
theorem exists_of_tokenAddress (haddress : rpc.tokenAddress index = some address) :
    ∃ t, m.tokens.at? index = some t ∧ address = sdk.address t.address := by
  obtain ⟨w, hw, env, a, hsimulate, rfl⟩ := hanswers.tokenAddress _ _ haddress
  obtain ⟨m₀, hm₀, hle, hprecedes⟩ := hS.worlds w hw
  rw [simulate_eq hm₀ hle, FactoryModel.answer, toOption_found, Option.map_eq_some_iff] at hsimulate
  obtain ⟨t₀, ht₀, ha⟩ := hsimulate
  obtain rfl := Ret.address.inj ha
  obtain ⟨t, ht, hkeeps⟩ := hprecedes.at? ht₀
  exact ⟨t, ht, congrArg sdk.address hkeeps.address.symm⟩

/-- A number that was looked up is that of the present. -/
theorem index?_of_tokenIndex (hinj : Function.Injective sdk.address) {a : Address}
    (hindex : rpc.tokenIndex (sdk.address a) = some index) : m.tokens.index? a = some index := by
  obtain ⟨w, hw, env, a', haddress, hsimulate⟩ := hanswers.tokenIndex _ _ hindex
  obtain rfl := hinj haddress
  obtain ⟨m₀, hm₀, hle, hprecedes⟩ := hS.worlds w hw
  rw [simulate_eq hm₀ hle, FactoryModel.answer, toOption_found, Option.map_eq_some_iff] at hsimulate
  obtain ⟨i, hi, hret⟩ := hsimulate
  obtain rfl := Ret.u32.inj hret
  exact hprecedes.index? hi

/-- A row that the backfill reads. -/
theorem describes_of_getTokenByIndex (hread : getTokenByIndex rpc index = some row) :
    ∃ t, Describes sdk m t row := by
  simp only [getTokenByIndex, Option.bind_eq_bind, Option.bind_eq_some_iff] at hread
  obtain ⟨info, hinfo, address, haddress, hrow⟩ := hread
  obtain rfl := Option.some.inj hrow
  obtain ⟨t, ht, rfl⟩ := exists_of_tokenInfo hS hanswers hinfo
  obtain ⟨t', ht', rfl⟩ :=
    exists_of_tokenAddress hS hanswers (Option.filter_eq_some_iff.mp haddress).1
  obtain rfl := Option.some.inj (ht.symm.trans ht')
  exact ⟨t, Keyed.find?_eq_some_iff_at?.mpr ⟨index, ht, rfl⟩, rfl, rfl, rfl, rfl,
    .inl (Keyed.index?_eq_some.mpr ⟨t, ht, rfl⟩), rfl, rfl⟩

/-- A `created` event that is delivered. -/
theorem describes_of_created (hinj : Function.Injective sdk.address) {start : EventsStart}
    {limit : ℕ} {response : EventsResponse} (hget : rpc.getEvents start limit = .ok response)
    (hraw : raw ∈ response.events) (hread : readEvent rpc raw = .ok (some (.created row))) :
    ∃ t, Describes sdk m t row := by
  obtain ⟨⟨time, ev⟩, hx, hdelivers⟩ := hanswers.getEvents _ _ _ hget raw hraw
  have hholds := hS.stream _ hx
  obtain ⟨haction, value, hvalue, rfl⟩ := readEvent_eq_created hread
  have htopic : topic ev = "created" := hdelivers.action.symm.trans haction
  -- the topic leaves one kind of event
  cases ev with
  | created token creator name symbol =>
    obtain rfl := Option.some.inj (hvalue.symm.trans (hdelivers.value _ rfl))
    obtain ⟨t, ht, rfl, rfl, rfl, hcreatedAt⟩ := hholds
    obtain rfl := Keyed.key_of_find? ht
    refine ⟨t, ht, rfl, rfl, rfl, rfl, ?_, rfl, ?_⟩
    · -- the number is read by another call, and stays 0 where that call fails
      show m.tokens.index? t.address = some ((rpc.tokenIndex (sdk.address t.address)).getD 0) ∨
        Indexer.TokenSource.event = .event ∧ (rpc.tokenIndex (sdk.address t.address)).getD 0 = 0
      rcases hindex : rpc.tokenIndex (sdk.address t.address) with _ | index
      · exact .inr ⟨rfl, rfl⟩
      · exact .inl (index?_of_tokenIndex hS hanswers hinj hindex)
    · show raw.ledgerClosedAt / 1000 = (t.createdAt : ℤ)
      have htime : t.createdAt = time := hcreatedAt
      rw [hdelivers.ledgerClosedAt, htime]
      exact Int.mul_ediv_cancel_left _ (by decide)
  | _ => simp [topic] at htopic

/-- The URI of a `meta` event that is delivered. -/
theorem hadUri_of_metadata {start : EventsStart} {limit : ℕ} {response : EventsResponse}
    (hget : rpc.getEvents start limit = .ok response) (hraw : raw ∈ response.events)
    (hread : readEvent rpc raw = .ok (some (.metadata address uri))) :
    HadUri sdk m address uri := by
  obtain ⟨⟨time, ev⟩, hx, hdelivers⟩ := hanswers.getEvents _ _ _ hget raw hraw
  have hholds := hS.stream _ hx
  obtain ⟨haction, value, hvalue, rfl, rfl⟩ := readEvent_eq_metadata hread
  have htopic : topic ev = "meta" := hdelivers.action.symm.trans haction
  cases ev with
  | metaSet token bytes version =>
    obtain rfl := Option.some.inj (hvalue.symm.trans (hdelivers.value _ rfl))
    obtain ⟨t, ht, hbytes⟩ := hholds
    obtain rfl := Keyed.key_of_find? ht
    exact ⟨t, bytes, ht, rfl, hbytes, rfl⟩
  | _ => simp [topic] at htopic

/-- **Each row that is written describes a registered token.** -/
theorem describes_of_readFrom (hinj : Function.Injective sdk.address)
    (h : (Write.upsert row).ReadFrom rpc) : ∃ t, Describes sdk m t row := by
  cases h with
  | backfill hread => exact describes_of_getTokenByIndex hS hanswers hread
  | created hget hraw hread => exact describes_of_created hS hanswers hinj hget hraw hread

theorem hadUri_of_readFrom (h : (Write.setUri address uri).ReadFrom rpc) :
    HadUri sdk m address uri := by
  cases h with
  | metadata hget hraw hread => exact hadUri_of_metadata hS hanswers hget hraw hread

end

/-- **Writes that are made of true answers keep every row true.** -/
theorem IndexTrue.replay (hS : History S m) (hinj : Function.Injective sdk.address)
    (h : IndexTrue sdk m tokens) (hread : ∀ w ∈ ws, ∃ rpc, Answers sdk S rpc ∧ w.ReadFrom rpc) :
    IndexTrue sdk m (Indexer.replay tokens ws) := by
  constructor
  · refine rows_replay (fun row uri ⟨t, ht⟩ => ⟨t, ?_⟩) h.describes fun row hrow => ?_
    · exact ⟨ht.find?, ht.address, ht.name, ht.symbol, ht.creator, ht.tokenIndex, ht.decimals,
        ht.createdAt⟩
    · obtain ⟨rpc, hanswers, hread⟩ := hread _ hrow
      exact describes_of_readFrom hS hanswers hinj hread
  · refine uris_replay h.uris (fun row hrow => ?_) fun address uri huri => ?_
    · obtain ⟨rpc, -, hread⟩ := hread _ hrow
      exact hread.bare
    · obtain ⟨rpc, hanswers, hread⟩ := hread _ huri
      exact hadUri_of_readFrom hS hanswers hread

/-- What happens to the index keeps every row true. -/
theorem rows_of_step (hS : History S m) (hinj : Function.Injective sdk.address) {e : IngestEvent}
    (hanswers : Answers sdk S e.rpc) {index index' : Ingesting} (hs : IngestStep index e index')
    (h : IndexTrue sdk m index.store.tokens) : IndexTrue sdk m index'.store.tokens := by
  obtain ⟨ws, htokens, hread⟩ := exists_writes_of_step hs
  rw [htokens]
  exact h.replay hS hinj fun w hw => ⟨e.rpc, hanswers, hread w hw⟩

/-! ### Runs -/

/-- **The run lemma**: the rows are true of the factory that the calls have led to. -/
theorem Deployed.indexTrue (hinj : Function.Injective sdk.address) (hS : Deployed sdk args h S) :
    ∃ m, History S m ∧ IndexTrue sdk m S.index.store.tokens := by
  obtain ⟨env, w₀, hc, hrun⟩ := hS
  have hempty : IndexTrue sdk args.initialModel (launched env w₀).index.store.tokens :=
    ⟨fun _ hrow => absurd hrow List.not_mem_nil, fun _ hrow => absurd hrow List.not_mem_nil⟩
  refine hrun.invariant (I := fun S => ∃ m, History S m ∧ IndexTrue sdk m S.index.store.tokens) ?_
    ⟨_, history_launched hc, hempty⟩
  rintro S a S' ⟨m, hS, hindex⟩ hstep
  cases hstep with
  | invoke hs hnew =>
    obtain ⟨m', hnext, hS'⟩ := hS.invoke hs hnew
    exact ⟨m', hS', hindex.of_precedes hnext.precedes⟩
  | ingest hanswers hs =>
    exact ⟨m, ⟨hS.represents, hS.length_le, hS.worlds, hS.stream⟩,
      rows_of_step hS hinj hanswers hs hindex⟩

/-- The URI of a row belongs to the token that the row describes. -/
theorem Describes.mem_uris (hinj : Function.Injective sdk.address) (h : Describes sdk m t row)
    (huri : HadUri sdk m row.address uri) : ∃ bytes ∈ t.uris, uri = sdk.text bytes := by
  obtain ⟨t', bytes, ht', haddress, hbytes, rfl⟩ := huri
  have hsame : t.address = t'.address := hinj (h.address.symm.trans haddress)
  have ht := h.find?
  rw [hsame] at ht
  obtain rfl := Option.some.inj (ht'.symm.trans ht)
  exact ⟨bytes, hbytes, rfl⟩

/-- **The index is sound**: whatever calls of the factory, ingest cycles, crashes and repeated deliveries
have led to a deployment, in any order, every row describes a registered token, and the URI of a row is one
that this token has had. -/
theorem index_sound (hinj : Function.Injective sdk.address) (hS : Deployed sdk args h S) :
    ∃ m, Represents S.world m ∧ ∀ row ∈ S.index.store.tokens.records, ∃ t, Describes sdk m t row ∧
      ∀ uri ∈ row.metadataUri, ∃ bytes ∈ t.uris, uri = sdk.text bytes := by
  obtain ⟨m, hhistory, hindex⟩ := hS.indexTrue hinj
  refine ⟨m, hhistory.represents, fun row hrow => ?_⟩
  obtain ⟨t, ht⟩ := hindex.describes row hrow
  exact ⟨t, ht, fun uri huri => ht.mem_uris hinj (hindex.uris row hrow uri huri)⟩

/-! ### A sample deployment -/

namespace SampleDeployment

open Frontend.Tokens (sampleIdentitySdk sampleIdentitySdk_parse)

/-- An SDK for the views of the sample. -/
def sampleSdk : ViewSdk := sampleIdentitySdk.toViewSdk

/-- An event in its ledger, as the node returns it. -/
def rawEvent (x : ℕ × Event) : RawEvent where
  action := topic x.2
  value := payloadOf sampleSdk x.2
  ledgerClosedAt := 1000 * x.1
  pagingToken := toString x.1

/-- A node that answers from the present state, and has kept the latest events. -/
def node (S : Deployment) : SorobanRpc where
  tokenCount := match simulate (permissiveEnv 20 ⟨5⟩) S.world .getState with
    | some (.state st) => .ok st.tokenCount
    | _ => .error "View call failed"
  tokenInfo i := match simulate (permissiveEnv 20 ⟨5⟩) S.world (.getTokenInfo i) with
    | some (.info native) => some (infoView sampleSdk native)
    | _ => none
  tokenAddress i := match simulate (permissiveEnv 20 ⟨5⟩) S.world (.getTokenAddress i) with
    | some (.address a) => some (sampleSdk.address a)
    | _ => none
  tokenIndex address := match sampleIdentitySdk.parseAddress address with
    | .error _ => none
    | .ok a =>
      match simulate (permissiveEnv 20 ⟨5⟩) S.world (.getTokenIndex a) with
      | some (.u32 i) => if sampleSdk.address a = address then some i else none
      | _ => none
  getEvents _ limit := .ok ⟨(S.stream.map rawEvent).take limit, none⟩
  startLedger := none
  now := 20000

/-- What this node answers is true. -/
theorem answers_node (S : Deployment) : Answers sampleSdk S (node S) where
  tokenCount n h := by
    have hworld : S.world ∈ S.worlds := List.mem_cons_self
    simp only [node] at h
    split at h
    · rename_i st hst
      exact ⟨S.world, hworld, _, st, hst, (Except.ok.inj h).symm⟩
    · cases h
  tokenInfo i info h := by
    have hworld : S.world ∈ S.worlds := List.mem_cons_self
    simp only [node] at h
    split at h
    · rename_i native hnative
      exact ⟨S.world, hworld, _, native, hnative, (Option.some.inj h).symm⟩
    · cases h
  tokenAddress i address h := by
    have hworld : S.world ∈ S.worlds := List.mem_cons_self
    simp only [node] at h
    split at h
    · rename_i a ha
      exact ⟨S.world, hworld, _, a, ha, (Option.some.inj h).symm⟩
    · cases h
  tokenIndex address i h := by
    have hworld : S.world ∈ S.worlds := List.mem_cons_self
    simp only [node] at h
    split at h
    · cases h
    · rename_i a ha
      split at h
      · rename_i j hj
        split_ifs at h with haddress
        obtain rfl := Option.some.inj h
        exact ⟨S.world, hworld, _, a, haddress.symm, hj⟩
      · cases h
  getEvents start limit response h raw hraw := by
    obtain rfl := Except.ok.inj h
    obtain ⟨x, hx, rfl⟩ := List.mem_map.mp (List.mem_of_mem_take hraw)
    exact ⟨x, hx, rfl, fun payload hpayload => hpayload, rfl⟩

/-- The ledger in which the token `50` is created. -/
def ledger : Env := { permissiveEnv 10 ⟨5⟩ with timestamp := 10 }

instance : ledger.NoReentry where
  storage_eq h := (congrArg Prod.snd (Option.some.inj h)).symm

/-- A creation. -/
def creation : Invocation := ⟨ledger, .createToken ⟨5⟩ SampleRun.params 100, .address ⟨50⟩⟩

/-- The factory is constructed. -/
def constructed : Deployment := launched (permissiveEnv 1 ⟨1⟩) SampleRun.world₀

/-- A token is created. -/
def called : Deployment :=
  { constructed with
    world := creation.call.exec.commit ledger SampleRun.world₀
    past := constructed.worlds
    stream := constructed.stream ++
      [.created ⟨50⟩ ⟨5⟩ [65] [66]].map fun ev => (creation.env.timestamp, ev) }

/-- Then a cycle runs. -/
def indexed : Deployment := { called with index := runIngest.commit (node called) .start }

/-- The creation, and a run that finds it. -/
def history : List Action := [.ingest (.cycle (node called)), .invoke creation]

theorem step : Step SampleRun.world₀ creation called.world := step_commit inferInstance rfl

/-- What the run reports. -/
def result : IngestResult where
  backfilled := 1
  eventsApplied := 1
  backfillComplete := true
  tokenCount := 1
  indexedCount := 1

theorem cycle : Cycle .start (node called) (runIngest.commit (node called) .start) :=
  ⟨_, returns_commit (a := result) rfl⟩

theorem deployed : Deployed sampleSdk SampleRun.constructorArgs history indexed := by
  have hcalled : Run (DeploymentStep sampleSdk) constructed [.invoke creation] called :=
    Run.nil.snoc (.invoke step rfl)
  have hindexed : Run (DeploymentStep sampleSdk) constructed history indexed :=
    hcalled.snoc (.ingest (answers_node called) cycle)
  exact ⟨permissiveEnv 1 ⟨1⟩, SampleRun.world₀, returns_commit rfl, hindexed⟩

theorem injective : Function.Injective sampleSdk.address :=
  sampleIdentitySdk.injective_address sampleIdentitySdk_parse

end SampleDeployment

/-- The row of the sample deployment describes the token `50`. -/
theorem index_sound_sampleDeployment :
    SampleDeployment.indexed.index.store.tokens.records.map IndexedToken.address = ["C50"] ∧
      ∃ m, Represents SampleDeployment.indexed.world m ∧
        ∀ row ∈ SampleDeployment.indexed.index.store.tokens.records,
          ∃ t, Describes SampleDeployment.sampleSdk m t row ∧ ∀ uri ∈ row.metadataUri,
            ∃ bytes ∈ t.uris, uri = SampleDeployment.sampleSdk.text bytes :=
  ⟨rfl, index_sound SampleDeployment.injective SampleDeployment.deployed⟩

end StellarForge.System
