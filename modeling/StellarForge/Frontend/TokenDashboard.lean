import StellarForge.Frontend.Events
import StellarForge.Frontend.TokenReads
import StellarForge.Frontend.TransactionHistory

/-!
# The token dashboard

`useTokenDashboard` lists the tokens of the connected wallet.  It reads all tokens of the factory, and takes
their addresses from the first page of the factory's events, by the index that a `created` event carries.

* `flatMap_pageRows`: the pages are the wallet's rows, in order;
* `load_eq`: no event that is parsed carries an index, so that no row is made;
* `dashboard_complete_iff`: **the dashboard of a wallet is complete if and only if the wallet has created no
  token**;
* `not_complete`: a factory with one token.
-/

namespace StellarForge.Frontend.Dashboard

open Soroban Factory Encoding Text Tokens

/-! ### Events of the factory, as a node reports them -/

/-- How the host encodes the values of the factory. -/
structure HostEncoding where
  address : Address → ScVal
  text : Bytes → String
  u32 : ℕ → ScVal
  bytesN : BytesN32 → ScVal
  map : List (Address × ℕ) → ScVal

/-- An `i128`, in two halves. -/
def i128Val (x : ℤ) : ScVal := .i128 (x / 2 ^ 64) (x % 2 ^ 64).toNat

/-- The second topic of an event, and the items of its payload. -/
def published (host : HostEncoding) : Event → String × List ScVal
  -- topic and items stand in the order in which the contract publishes them
  | .init admin => ("init", [host.address admin])
  | .wlAdd address => ("wl_add", [host.address address])
  | .wlRm address => ("wl_rm", [host.address address])
  | .wlTog enabled => ("wl_tog", [.bool enabled])
  | .created token creator name symbol =>
    ("created", [host.address token, host.address creator, .str (host.text name), .str (host.text symbol)])
  | .metaSet token uri version =>
    ("meta", [host.address token, .str (host.text uri), host.u32 version])
  | .metaFrz token admin => ("meta_frz", [host.address token, host.address admin])
  | .mint token recipient amount =>
    ("mint", [host.address token, host.address recipient, i128Val amount])
  | .burn token holder amount => ("burn", [host.address token, host.address holder, i128Val amount])
  | .pause admin => ("pause", [host.address admin])
  | .unpause admin => ("unpause", [host.address admin])
  | .splitClr admin => ("split_clr", [host.address admin])
  | .splitSet admin splits => ("split_set", [host.address admin, host.map splits])
  | .fees baseFee metadataFee =>
    ("fees", [baseFee.elim .void i128Val, metadataFee.elim .void i128Val])
  | .feeRedir recipient share => ("fee_redir", [host.address recipient, i128Val share])
  | .upgProp admin wasmHash readyAt =>
    ("upg_prop", [host.address admin, host.bytesN wasmHash, host.u32 readyAt])
  | .upgExec admin wasmHash => ("upg_exec", [host.address admin, host.bytesN wasmHash])
  | .upgCan admin wasmHash => ("upg_can", [host.address admin, host.bytesN wasmHash])
  | .admProp admin newAdmin expiry =>
    ("adm_prop", [host.address admin, host.address newAdmin, host.u32 expiry])
  | .admAcc oldAdmin newAdmin => ("adm_acc", [host.address oldAdmin, host.address newAdmin])
  | .admCan admin cancelled => ("adm_can", [host.address admin, host.address cancelled])
  | .admDep admin newAdmin expiry entrypoint =>
    ("adm_dep", [host.address admin, host.address newAdmin, host.u32 expiry, .sym entrypoint])

/-- `raw` is the event `ev` of the factory. -/
def Reports (sdk : EventSdk) (host : HostEncoding) (ev : Event) (raw : RpcEventResponse) : Prop :=
  (raw.topic[1]?.bind sdk.fromXDR = some (.sym (published host ev).1)) ∧
    sdk.fromXDR raw.value = some (.vec (published host ev).2)

/-- The node has retained all events of the factory. -/
def Retained (sdk : EventSdk) (host : HostEncoding) (w : World) (raws : List RpcEventResponse) : Prop :=
  List.Forall₂ (Reports sdk host) w.events raws

/-! ### The hook -/

/-- The rows of a page. -/
def PAGE_SIZE : ℕ := 10

/-- A row of the dashboard. -/
structure TokenRow where
  info : Tokens.TokenInfo
  /-- Token contract address -/
  address : String
  deriving DecidableEq, Repr

/-- `getFactoryState`, as far as the hook reads it. -/
def getFactoryState (node : Node) : Option ℕ :=
  match node .getState with
  | some (.state st) => some st.tokenCount
  | _ => none

/-- One round of the loop over the events; the entry that was set last comes first. -/
def setAddress (indexToAddress : List (Number × String)) (e : ContractEvent) : List (Number × String) :=
  match e.type, (e.data.lookup "tokenAddress").filter (· ≠ "") with
  | .created, some tokenAddress =>
    let idx := (e.data.lookup "index").elim (.finite (-1)) fun index =>
      History.toNumber (units index)
    if (Number.finite 0).le idx then (idx, tokenAddress) :: indexToAddress else indexToAddress
  | _, _ => indexToAddress

/-- The row of a token: both its record and its address are there. -/
def tokenRow (read : ℕ → Option Tokens.TokenInfo) (indexToAddress : List (Number × String)) (i : ℕ) :
    Option TokenRow := do
  let info ← read i
  let address ← (indexToAddress.lookup (.finite i)).filter (· ≠ "")
  return ⟨info, address⟩

/-- `load`: all rows, `none` where the state or the events cannot be read.  A token that cannot be read is
left out. -/
def load (readState : Option ℕ) (getContractEvents : ℕ → Option GetEventsResult)
    (read : ℕ → Option Tokens.TokenInfo) : Option (List TokenRow) := do
  let count ← readState
  if count = 0 then return []
  let result ← getContractEvents 200
  let indexToAddress := result.events.foldl setAddress []
  return (List.range' 1 count).filterMap (tokenRow read indexToAddress)

/-- The rows of the connected wallet. -/
def myRows (walletAddress : Option String) (allRows : List TokenRow) : List TokenRow :=
  allRows.filter fun r => (walletAddress.filter (· ≠ "")).any fun address =>
    toLowerCase r.info.creator == toLowerCase address

/-- The pages, one at least. -/
def totalPages (rows : List TokenRow) : ℕ := max 1 ((rows.length + PAGE_SIZE - 1) / PAGE_SIZE)

/-- `rows` of the hook, on a page. -/
def pageRows (rows : List TokenRow) (page : ℕ) : List TokenRow :=
  (rows.drop ((page - 1) * PAGE_SIZE)).take PAGE_SIZE

/-! ### Pages -/

variable {rows allRows : List TokenRow} {n : ℕ}

theorem flatMap_pageRows_take (rows : List TokenRow) (n : ℕ) :
    (List.range' 1 n).flatMap (pageRows rows) = rows.take (n * PAGE_SIZE) := by
  induction n with
  | zero => rw [Nat.zero_mul, List.take_zero, List.range'_zero, List.flatMap_nil]
  | succ n ih =>
    rw [List.range'_1_concat, List.flatMap_append, ih, List.flatMap_singleton, pageRows,
      Nat.add_sub_cancel_left, Nat.succ_mul, List.take_add]

/-- The pages are the rows, in order. -/
theorem flatMap_pageRows (rows : List TokenRow) :
    (List.range' 1 (totalPages rows)).flatMap (pageRows rows) = rows := by
  rw [flatMap_pageRows_take]
  apply List.take_of_length_le
  unfold totalPages PAGE_SIZE
  omega

/-! ### Rows -/

variable {sdk : EventSdk} {raw : RpcEventResponse} {e : ContractEvent} {events : List ContractEvent}
  {getEvents : ℕ → Option String → Option (List RpcEventResponse)} {readState : Option ℕ}
  {read : ℕ → Option Tokens.TokenInfo}

/-- The payload of an event has the fields of its type. -/
theorem fields_of_parseRpcEvent (h : parseRpcEvent sdk raw = some e) :
    e.data.map Prod.fst = EVENT_PAYLOAD_FIELDS e.type := by
  unfold parseRpcEvent at h
  simp only [Option.bind_eq_bind, Option.bind_eq_some_iff] at h
  obtain ⟨_, -, _, -, eventType, -, _, -, items, -, hevent⟩ := h
  obtain rfl := Option.some.inj hevent
  refine List.ext_getElem? fun i => ?_
  rw [List.getElem?_map, List.getElem?_mapIdx, Option.map_map]
  exact Option.map_id'

/-- A `created` event carries no index. -/
theorem lookup_index (h : parseRpcEvent sdk raw = some e) (hcreated : e.type = .created) :
    e.data.lookup "index" = none := by
  rw [List.lookup_eq_none_iff]
  intro p hp
  have hfield : p.1 ∈ EVENT_PAYLOAD_FIELDS .created := by
    rw [← hcreated, ← fields_of_parseRpcEvent h]
    exact List.mem_map_of_mem hp
  have hne : ∀ field ∈ EVENT_PAYLOAD_FIELDS .created, ("index" != field) = true := by decide
  exact hne p.1 hfield

theorem setAddress_eq {indexToAddress : List (Number × String)} (h : parseRpcEvent sdk raw = some e) :
    setAddress indexToAddress e = indexToAddress := by
  unfold setAddress
  split
  · next hcreated _ =>
    rw [lookup_index h hcreated]
    exact if_neg (by decide)
  · rfl

theorem foldl_setAddress (h : ∀ e ∈ events, ∃ raw, parseRpcEvent sdk raw = some e) :
    events.foldl setAddress [] = [] := by
  induction events with
  | nil => rfl
  | cons e events ih =>
    obtain ⟨raw, hraw⟩ := h e List.mem_cons_self
    rw [List.foldl_cons, setAddress_eq hraw]
    exact ih fun e he => h e (List.mem_cons_of_mem _ he)

/-- An event of a page has been decoded from one of the node's. -/
theorem parsed_of_getContractEvents {result : GetEventsResult} {limit : ℕ} {cursor : Option String}
    (h : getContractEvents sdk getEvents limit cursor = some result) :
    ∀ e ∈ result.events, ∃ raw, parseRpcEvent sdk raw = some e := by
  unfold getContractEvents at h
  simp only [Option.bind_eq_bind, Option.bind_eq_some_iff] at h
  obtain ⟨raws, -, hresult⟩ := h
  obtain rfl := Option.some.inj hresult
  intro e he
  obtain ⟨raw, -, hraw⟩ := List.mem_filterMap.mp (List.mem_mergeSort.mp he)
  exact ⟨raw, hraw⟩

/-- No row is made, whatever the events are. -/
theorem load_eq (h : load readState (fun limit => getContractEvents sdk getEvents limit none) read =
    some allRows) : allRows = [] := by
  unfold load at h
  simp only [Option.bind_eq_bind, Option.bind_eq_some_iff] at h
  obtain ⟨count, -, h⟩ := h
  split_ifs at h
  · exact (Option.some.inj h).symm
  · simp only [Option.bind_eq_some_iff] at h
    obtain ⟨result, hresult, h⟩ := h
    rw [foldl_setAddress (parsed_of_getContractEvents hresult)] at h
    obtain rfl := Option.some.inj h
    rw [List.filterMap_eq_nil_iff]
    intro i _
    -- the address of every token is missing
    cases hread : read i with
    | none => rw [tokenRow, hread]; rfl
    | some info => rw [tokenRow, hread]; rfl

/-- A load whose reads succeed ends. -/
theorem load_of_reads {count : ℕ} {raws : List RpcEventResponse} (hstate : readState = some count)
    (hevents : getEvents 200 none = some raws) :
    load readState (fun limit => getContractEvents sdk getEvents limit none) read = some [] := by
  obtain ⟨allRows, hload⟩ : ∃ allRows,
      load readState (fun limit => getContractEvents sdk getEvents limit none) read = some allRows := by
    have hserved : getEvents 200 ((none : Option String).filter (· ≠ "")) = some raws := hevents
    obtain ⟨result, hresult⟩ : ∃ result, getContractEvents sdk getEvents 200 none = some result := by
      rw [getContractEvents, hserved]
      exact ⟨_, rfl⟩
    rw [load, hstate, hresult]
    show ∃ allRows, (if count = 0 then some [] else some _) = some allRows
    split_ifs
    · exact ⟨_, rfl⟩
    · exact ⟨_, rfl⟩
  rw [hload, load_eq hload]

/-! ### The tokens of a wallet -/

/-- The row of a token, from the factory alone. -/
def ownRow (sdk : ViewSdk) (node : Node) (i : ℕ) : Option TokenRow := do
  let info ← Tokens.getTokenInfo sdk node i
  match node (.getTokenAddress i) with
  | some (.address a) => some ⟨info, sdk.address a⟩
  | _ => none

/-- The pages have one row for each of the wallet's tokens, with its address and its record, and no other
row. -/
def Complete (sdk : ViewSdk) (node : Node) (walletAddress : String) (indices : List ℕ)
    (allRows : List TokenRow) : Prop :=
  let rows := myRows (some walletAddress) allRows
  ((List.range' 1 (totalPages rows)).flatMap (pageRows rows)).Perm
    (indices.filterMap (ownRow sdk node))

variable {w : World} {m : FactoryModel} {args : ConstructorArgs} {h : List Invocation} {env : Env}
  {viewSdk : ViewSdk} {wallet : Address} {i : ℕ}

/-- Every listed token has a row. -/
theorem isSome_ownRow (hw : Represents w m) (hi : i ∈ m.creatorTokens wallet) :
    (ownRow viewSdk (simulate env w) i).isSome := by
  obtain ⟨info, hinfo⟩ : ∃ info, simulate env w (.getTokenInfo i) = some (.info info) :=
    simulate_getTokenInfo hw hi
  obtain ⟨t, ht, -⟩ := FactoryModel.mem_creatorTokens.mp hi
  have haddress : simulate env w (.getTokenAddress i) = some (.address t.address) := by
    rw [simulate_getTokenAddress hw, ht, Option.map_some]
  rw [ownRow, Tokens.getTokenInfo, hinfo, haddress]
  rfl

/-- **The dashboard of a wallet is complete if and only if the wallet has created no token**, in every
factory that a run reaches, whatever events the node serves. -/
theorem dashboard_complete_iff (hr : Reaches args h w)
    (hload : load (getFactoryState (simulate env w))
      (fun limit => getContractEvents sdk getEvents limit none)
      (Tokens.getTokenInfo viewSdk (simulate env w)) = some allRows) :
    Complete viewSdk (simulate env w) (viewSdk.address wallet) (w.creatorList wallet) allRows ↔
      w.creatorList wallet = [] := by
  obtain ⟨m, -, hw⟩ := hr.represents
  obtain rfl := load_eq hload
  rw [Complete, flatMap_pageRows, hw.creatorList]
  constructor
  · -- the rows shown are none, so no token of the wallet may have a row
    intro hperm
    have hnil : (m.creatorTokens wallet).filterMap (ownRow viewSdk (simulate env w)) = [] :=
      hperm.symm.eq_nil
    rw [List.eq_nil_iff_forall_not_mem]
    intro i hi
    have hnone := List.filterMap_eq_nil_iff.mp hnil i hi
    have hsome : (ownRow viewSdk (simulate env w) i).isSome := isSome_ownRow hw hi
    rw [hnone] at hsome
    cases hsome
  · intro hnone
    rw [hnone]
    exact List.Perm.nil

/-! ### A factory with one token -/

namespace Sample

/-- The address `50` is a contract, the others are accounts. -/
def host : HostEncoding where
  address a :=
    if a = ⟨50⟩ then .contract (List.replicate 32 50) else .account (List.replicate 32 (.ofNat a.id))
  text bytes := String.ofList (bytes.map fun b => Char.ofNat b.toNat)
  u32 n := .other (toString n)
  bytesN _ := .bytes []
  map _ := .other ""

/-- The texts that the node sends, decoded. -/
def values : List (String × ScVal) :=
  [("AAAADwAAAAdmYWN0b3J5AA==", .sym "factory"),
    ("AAAADwAAAARpbml0", .sym "init"),
    ("AAAADwAAAAdjcmVhdGVkAA==", .sym "created"),
    ("AAAADwAAAARtaW50", .sym "mint"),
    ("AAAAEAAAAAEAAAABAAAAEgAAAAAAAAAAAQEBAQEBAQEBAQEBAQEBAQEBAQEBAQEBAQEBAQEBAQE=",
      .vec [host.address ⟨1⟩]),
    ("AAAAEAAAAAEAAAAEAAAAEgAAAAEyMjIyMjIyMjIyMjIyMjIyMjIyMjIyMjIyMjIyMjIyMgAAABIAAAAAAAAAAAUF" ++
      "BQUFBQUFBQUFBQUFBQUFBQUFBQUFBQUFBQUFBQUFAAAADgAAAAFBAAAAAAAADgAAAAFCAAAA",
      .vec [host.address ⟨50⟩, host.address ⟨5⟩, .str "A", .str "B"]),
    ("AAAAEAAAAAEAAAADAAAAEgAAAAEyMjIyMjIyMjIyMjIyMjIyMjIyMjIyMjIyMjIyMjIyMgAAABIAAAAAAAAAAAYG" ++
      "BgYGBgYGBgYGBgYGBgYGBgYGBgYGBgYGBgYGBgYGAAAACgAAAAAAAAAAAAAAAAAAAZA=",
      .vec [host.address ⟨50⟩, host.address ⟨6⟩, i128Val 400])]

/-- An SDK that knows the values of the sample. -/
def eventSdk : EventSdk where
  fromXDR text := values.lookup text
  encodeEd25519PublicKey key := "G" ++ bytesToHex key
  getTime _ := none

/-- An event of the sample, in a ledger. -/
def rawEvent (ledger : ℕ) (topic value : String × ScVal) : RpcEventResponse where
  id := toString ledger
  ledger := ledger
  ledgerClosedAt := ""
  pagingToken := toString ledger
  txHash := ""
  topic := ["AAAADwAAAAdmYWN0b3J5AA==", topic.1]
  value := value.1

/-- The events that the node returns. -/
def raws : List RpcEventResponse :=
  [rawEvent 1 values[1] values[4], rawEvent 10 values[2] values[5], rawEvent 20 values[3] values[6]]

/-- An SDK for the views of the sample. -/
def sampleSdk : ViewSdk where
  text := host.text
  address a := scValToString eventSdk (host.address a)
  number := id

/-- A node at the end of the sample run. -/
def node : Node := simulate (permissiveEnv 20 ⟨5⟩) SampleRun.world₂

theorem retained : Retained eventSdk host SampleRun.world₂ raws := by
  refine .cons ⟨rfl, rfl⟩ (.cons ⟨rfl, ?_⟩ (.cons ⟨rfl, ?_⟩ .nil))
  · simp [eventSdk, values, rawEvent, List.lookup_cons]
    rfl
  · simp [eventSdk, values, rawEvent, List.lookup_cons]
    rfl

theorem load_eq_nil : load (getFactoryState node)
    (fun limit => getContractEvents eventSdk (fun limit _ => some (raws.take limit)) limit none)
    (Tokens.getTokenInfo sampleSdk node) = some [] := by
  have hstate : getFactoryState node = some 1 := rfl
  exact load_of_reads hstate rfl

end Sample

/-- The wallet `6` has created none of the tokens. -/
theorem dashboard_complete_iff_six : Complete Sample.sampleSdk Sample.node (Sample.sampleSdk.address ⟨6⟩)
    (SampleRun.world₂.creatorList ⟨6⟩) [] :=
  (dashboard_complete_iff SampleRun.reaches Sample.load_eq_nil).mpr rfl

/-- The wallet `5` has created the token `50`; its dashboard is empty. -/
theorem not_complete : ¬ ∀ sdk host args h w raws viewSdk env wallet allRows,
    Reaches args h w → Retained sdk host w raws →
    load (getFactoryState (simulate env w))
      (fun limit => getContractEvents sdk (fun limit _ => some (raws.take limit)) limit none)
      (Tokens.getTokenInfo viewSdk (simulate env w)) = some allRows →
    Complete viewSdk (simulate env w) (viewSdk.address wallet) (w.creatorList wallet) allRows := by
  intro hall
  have hcomplete := hall _ _ _ _ _ _ Sample.sampleSdk _ ⟨5⟩ _ SampleRun.reaches Sample.retained
    Sample.load_eq_nil
  have hlist : SampleRun.world₂.creatorList ⟨5⟩ = [1] := rfl
  rw [hlist, Complete, flatMap_pageRows] at hcomplete
  have hlength := hcomplete.length_eq
  revert hlength
  decide

end StellarForge.Frontend.Dashboard
