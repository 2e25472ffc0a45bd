import StellarForge.Factory.Properties.EventRecords
import StellarForge.Factory.Properties.Views
import StellarForge.Frontend.TokenEvents
import StellarForge.Frontend.TokenReads
import StellarForge.Indexer.Provenance

/-!
# A deployment

The factory on its chain, and an index of its tokens that ingest cycles fill through an RPC node.  Calls of
the factory and whatever happens to the index come in any order.  While a cycle runs the chain goes on, so
each of its reads may be answered from another state that the factory has been in.

* `Answers`: what a cycle's server has answered was true of the factory at some time;
* `simulate_eq`: what a node answers in a state that represents an abstract factory;
* `Deployed.history`: **in every reachable deployment the past states precede the present one, and the
  events of the stream are true of it.**
-/

namespace StellarForge.System

open Soroban Contract Factory Transition Collections Indexer
open Frontend.Tokens (ViewSdk simulate)
open Frontend.TokenEvents (topic)

/-! ### States and steps -/

/-- The factory, the store of the indexer, and what the factory has been before. -/
structure Deployment where
  world : World
  /-- The states the factory has been in before, most recent first. -/
  past : List World
  /-- The events of the factory, with the close time of their ledgers. -/
  stream : List (ℕ × Event)
  index : Ingesting

/-- What happens: a call of the factory, or something that happens to the index. -/
inductive Action
  | invoke (i : Invocation)
  | ingest (e : IngestEvent)

/-- The states of the factory that a read may have met. -/
def Deployment.worlds (S : Deployment) : List World := S.world :: S.past

/-- The elements of a payload that the indexer reads, as `scValToNative` gives them. -/
def payloadOf (sdk : ViewSdk) : Event → Option (List String)
  | .created token creator name symbol =>
    some [sdk.address token, sdk.address creator, sdk.text name, sdk.text symbol]
  | .metaSet token uri version => some [sdk.address token, sdk.text uri, toString version]
  | _ => none

/-- What the node sends of an event; the paging token is its own. -/
structure Delivers (sdk : ViewSdk) (raw : RawEvent) (time : ℕ) (ev : Event) : Prop where
  action : raw.action = topic ev
  value : ∀ payload ∈ payloadOf sdk ev, raw.value = some payload
  ledgerClosedAt : raw.ledgerClosedAt = 1000 * time

/-- A record as `callView` decodes it. -/
def infoView (sdk : ViewSdk) (native : TokenInfo) : TokenInfoView where
  name := sdk.text native.name
  symbol := sdk.text native.symbol
  decimals := native.decimals
  creator := sdk.address native.creator
  createdAt := sdk.number native.createdAt

/-- Every answer of the server was given in some state of the factory; any read may fail. -/
structure Answers (sdk : ViewSdk) (S : Deployment) (rpc : SorobanRpc) : Prop where
  tokenCount : ∀ n, rpc.tokenCount = .ok n →
    ∃ w ∈ S.worlds, ∃ env st, simulate env w .getState = some (.state st) ∧ n = st.tokenCount
  tokenInfo : ∀ i info, rpc.tokenInfo i = some info → ∃ w ∈ S.worlds, ∃ env native,
    simulate env w (.getTokenInfo i) = some (.info native) ∧ info = infoView sdk native
  tokenAddress : ∀ i address, rpc.tokenAddress i = some address → ∃ w ∈ S.worlds, ∃ env a,
    simulate env w (.getTokenAddress i) = some (.address a) ∧ address = sdk.address a
  tokenIndex : ∀ address i, rpc.tokenIndex address = some i → ∃ w ∈ S.worlds, ∃ env a,
    address = sdk.address a ∧ simulate env w (.getTokenIndex a) = some (.u32 i)
  getEvents : ∀ start limit response, rpc.getEvents start limit = .ok response →
    ∀ raw ∈ response.events, ∃ x ∈ S.stream, Delivers sdk raw x.1 x.2

/-- One step.  The events of a call get the time of its ledger. -/
inductive DeploymentStep (sdk : ViewSdk) (S : Deployment) : Action → Deployment → Prop
  | invoke {i : Invocation} {w' : World} {new : List Event} (hs : Step S.world i w')
    (hnew : w'.events = S.world.events ++ new) :
    DeploymentStep sdk S (.invoke i)
      { S with
        world := w', past := S.worlds, stream := S.stream ++ new.map fun ev => (i.env.timestamp, ev) }
  | ingest {e : IngestEvent} {index : Ingesting} (hanswers : Answers sdk S e.rpc)
    (hs : IngestStep S.index e index) : DeploymentStep sdk S (.ingest e) { S with index }

/-- The factory has just been constructed, and nothing is indexed. -/
def launched (env : Env) (w : World) : Deployment where
  world := w
  past := []
  stream := w.events.map fun ev => (env.timestamp, ev)
  index := .start

/-- What has happened since the construction of the factory, most recent first, has led to `S`. -/
def Deployed (sdk : ViewSdk) (args : ConstructorArgs) (h : List Action) (S : Deployment) : Prop :=
  ∃ env w₀, Constructed env args w₀ ∧ Run (DeploymentStep sdk) (launched env w₀) h S

variable {sdk : ViewSdk} {args : ConstructorArgs} {h : List Action} {S S' : Deployment} {env : Env}
  {w : World} {m : FactoryModel} {i : Invocation} {e : IngestEvent}

/-! ### What a node answers -/

/-- A node answers a view as the abstract factory does, and fails where that has an error. -/
theorem simulate_eq (hw : Represents w m) (hle : m.tokens.length ≤ U32.MAX) (v : View) :
    simulate env w v = (m.answer v).toOption := by
  rw [simulate, hw.exec_view hle v]
  cases m.answer v <;> rfl

theorem toOption_found {α : Type} {f : α → Ret} {o : Option α} : (found f o).toOption = o.map f := by
  cases o <;> rfl

/-! ### The history of a deployment -/

/-- What is recorded of the factory's past is true of the abstract factory `m`. -/
structure History (S : Deployment) (m : FactoryModel) : Prop where
  represents : Represents S.world m
  length_le : m.tokens.length ≤ U32.MAX
  worlds : ∀ w ∈ S.worlds, ∃ m', Represents w m' ∧ m'.tokens.length ≤ U32.MAX ∧ m'.Precedes m
  stream : ∀ x ∈ S.stream, x.2.Holds m x.1

/-- The constructor publishes no event of a token. -/
theorem history_launched (hc : Constructed env args w) : History (launched env w) args.initialModel where
  represents := hc.represents
  length_le := Nat.zero_le _
  worlds w' hw' := by
    obtain rfl := List.mem_singleton.mp hw'
    exact ⟨_, hc.represents, Nat.zero_le _, .refl _⟩
  stream x hx := by
    have hmoves : Moves (Publishes []) (factoryConstructor args) := by
      unfold factoryConstructor
      iterate 7 refine .andThen inferInstance fun _ => ?_
      infer_instance
    obtain ⟨new, hevents, hminor⟩ := (hmoves.rel hc).exists_minor
    obtain ⟨ev, hev, rfl⟩ := List.mem_map.mp hx
    rw [hevents] at hev
    rcases List.mem_append.mp hev with hev | hev
    · cases hev
    · exact Event.holds_of_isMinor (hminor ev hev)

/-- A call keeps the history. -/
theorem History.invoke {w' : World} {new : List Event} (hS : History S m) (hs : Step S.world i w')
    (hnew : w'.events = S.world.events ++ new) : ∃ m', AbstractStep m i m' ∧ History
      { S with
        world := w', past := S.worlds,
        stream := S.stream ++ new.map fun ev => (i.env.timestamp, ev) } m' := by
  obtain ⟨m', hnext, hw'⟩ := hS.represents.step hs
  have hle := hS.represents.length_le_of_step hnext hs hw' hS.length_le
  refine ⟨m', hnext, hw', hle, fun w hw => ?_, fun x hx => ?_⟩
  · rcases List.mem_cons.mp hw with rfl | hw
    · exact ⟨m', hw', hle, .refl m'⟩
    · obtain ⟨m₀, hm₀, hle₀, hprecedes⟩ := hS.worlds w hw
      exact ⟨m₀, hm₀, hle₀, hprecedes.trans hnext.precedes⟩
  · rcases List.mem_append.mp hx with hx | hx
    · exact hnext.precedes.holds (hS.stream x hx)
    · obtain ⟨ev, hev, rfl⟩ := List.mem_map.mp hx
      obtain ⟨new', hnew', hholds⟩ := hs.holds_events hnext
      obtain rfl := List.append_cancel_left (hnew.symm.trans hnew')
      exact hholds ev hev

/-- **The history of a reachable deployment.** -/
theorem Deployed.history (hS : Deployed sdk args h S) : ∃ m, History S m := by
  obtain ⟨env, w₀, hc, hrun⟩ := hS
  refine hrun.invariant (I := fun S => ∃ m, History S m) ?_ ⟨_, history_launched hc⟩
  rintro S a S' ⟨m, hS⟩ hstep
  cases hstep with
  | invoke hs hnew =>
    obtain ⟨m', -, hS'⟩ := hS.invoke hs hnew
    exact ⟨m', hS'⟩
  | ingest hanswers hs => exact ⟨m, hS.represents, hS.length_le, hS.worlds, hS.stream⟩

end StellarForge.System
