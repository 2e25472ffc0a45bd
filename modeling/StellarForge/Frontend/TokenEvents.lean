import StellarForge.Frontend.Addresses
import StellarForge.Frontend.TokenIndex

/-!
# The payloads of events, as texts

What the factory publishes is encoded by the host, and `parseRpcEvent` makes texts of it.  `canonical`
is the text of a value as the network's tools write it.

* `data_of_encodes`: the fields of an event are the values that the factory has published under them;
* `scValToString_iff`: a value has its canonical text unless it is the address of a contract;
* `canonical_iff`: **the events of a node are decoded canonically, and `getTokenEvents` finds those of a
  token, if and only if no field of them is the address of a contract**;
* `not_canonical_created`: the address of a new token.
-/

namespace StellarForge.Frontend.TokenEvents

open Encoding Text Factory TokenIndex

/-! ### Payloads -/

/-- 32 bytes. -/
abbrev KeyBytes := {bytes : List UInt8 // bytes.length = 32}

/-- An address on the network, which is of an account or of a contract. -/
inductive NetworkAddress
  | account (ed25519 : KeyBytes)
  | contract (contractId : KeyBytes)

/-- What stands behind the identities, the texts and the values that the factory's model leaves open. -/
structure Chain where
  address : Address → NetworkAddress
  /-- The bytes of a string as a text. -/
  text : Bytes → String
  /-- The XDR of a `u32` and of a fee split. -/
  xdrU32 : ℕ → String
  xdrSplits : List (Address × ℕ) → String

/-- A field of a payload. -/
inductive PayloadValue
  | address (a : Address)
  | string (b : Bytes)
  | symbol (s : Symbol)
  | i128 (n : ℤ)
  | u64 (n : ℕ)
  | bool (b : Bool)
  | hash (h : BytesN32)
  | none
  /-- A value of a kind that `scValToString` does not know. -/
  | other (xdr : String)

/-- An amount that may be missing. -/
def optionValue : Option ℤ → PayloadValue
  | none => .none
  | some n => .i128 n

/-- The payload that the factory publishes. -/
def payload (chain : Chain) : Event → List PayloadValue
  -- values by their kind on the chain; addresses and numbers are encoded later
  | .init admin => [.address admin]
  | .wlAdd address => [.address address]
  | .wlRm address => [.address address]
  | .wlTog enabled => [.bool enabled]
  | .created token creator name symbol =>
    [.address token, .address creator, .string name, .string symbol]
  | .metaSet token uri version => [.address token, .string uri, .other (chain.xdrU32 version)]
  | .metaFrz token admin => [.address token, .address admin]
  | .mint token recipient amount => [.address token, .address recipient, .i128 amount]
  | .burn token holder amount => [.address token, .address holder, .i128 amount]
  | .pause admin => [.address admin]
  | .unpause admin => [.address admin]
  | .splitClr admin => [.address admin]
  | .splitSet admin splits => [.address admin, .other (chain.xdrSplits splits)]
  | .fees baseFee metadataFee => [optionValue baseFee, optionValue metadataFee]
  | .feeRedir recipient share => [.address recipient, .i128 share]
  | .upgProp admin wasmHash readyAt => [.address admin, .hash wasmHash, .u64 readyAt]
  | .upgExec admin wasmHash => [.address admin, .hash wasmHash]
  | .upgCan admin wasmHash => [.address admin, .hash wasmHash]
  | .admProp admin newAdmin expiry => [.address admin, .address newAdmin, .u64 expiry]
  | .admAcc oldAdmin newAdmin => [.address oldAdmin, .address newAdmin]
  | .admCan admin cancelled => [.address admin, .address cancelled]
  | .admDep admin newAdmin expiry entrypoint =>
    [.address admin, .address newAdmin, .u64 expiry, .symbol entrypoint]

/-- The symbol in the second topic. -/
def topic : Event → String
  | .init .. => "init"
  | .wlAdd .. => "wl_add"
  | .wlRm .. => "wl_rm"
  | .wlTog .. => "wl_tog"
  | .created .. => "created"
  | .metaSet .. => "meta"
  | .metaFrz .. => "meta_frz"
  | .mint .. => "mint"
  | .burn .. => "burn"
  | .pause .. => "pause"
  | .unpause .. => "unpause"
  | .splitClr .. => "split_clr"
  | .splitSet .. => "split_set"
  | .fees .. => "fees"
  | .feeRedir .. => "fee_redir"
  | .upgProp .. => "upg_prop"
  | .upgExec .. => "upg_exec"
  | .upgCan .. => "upg_can"
  | .admProp .. => "adm_prop"
  | .admAcc .. => "adm_acc"
  | .admCan .. => "adm_can"
  | .admDep .. => "adm_dep"

/-- The bytes of a hash, the highest first. -/
def hashBytes (h : BytesN32) : List UInt8 := (digits 256 32 h.toNat).map UInt8.ofNat

/-- The value as the host encodes it; an `i128` has a signed upper half and an unsigned lower one. -/
def toScVal (chain : Chain) : PayloadValue → ScVal
  | .address a => match chain.address a with
    | .account key => .account key.1
    | .contract contractId => .contract contractId.1
  | .string b => .str (chain.text b)
  | .symbol s => .sym s
  | .i128 n => .i128 (n / 2 ^ 64) (n % 2 ^ 64).toNat
  | .u64 n => .u64 n
  | .bool b => .bool b
  | .hash h => .bytes (hashBytes h)
  | .none => .void
  | .other xdr => .other xdr

/-- What the node sends has been made of the event. -/
structure Encodes (sdk : EventSdk) (chain : Chain) (raw : RpcEventResponse) (ev : Event) : Prop where
  topic : ∃ text ∈ raw.topic[1]?, sdk.fromXDR text = some (.sym (topic ev))
  value : sdk.fromXDR raw.value = some (.vec ((payload chain ev).map (toScVal chain)))

/-! ### Canonical texts -/

/-- An address as the network writes it. -/
def strKeyText (version : UInt8) (key : KeyBytes) : String :=
  String.ofList ((strKey version key.1).map unitChar)

/-- The text of an address. -/
def addressText : NetworkAddress → String
  | .account key => strKeyText 0x30 key
  | .contract contractId => strKeyText 0x10 contractId

/-- The 64 digits of a hash. -/
def hashText (h : BytesN32) : String := String.ofList ((digits 16 64 h.toNat).map Nat.digitChar)

/-- The text of a value: the address, the decimal digits of a number, the hexadecimal digits of a
hash. -/
def canonical (chain : Chain) : PayloadValue → String
  | .address a => addressText (chain.address a)
  | .string b => chain.text b
  | .symbol s => s
  | .i128 n => toString n
  | .u64 n => toString n
  | .bool b => toString b
  | .hash h => hashText h
  | .none => "none"
  | .other xdr => xdr

/-- The SDK writes the key of an account as its address. -/
def EncodesKeys (sdk : EventSdk) : Prop :=
  ∀ key : KeyBytes, sdk.encodeEd25519PublicKey key.1 = strKeyText 0x30 key

/-- The value is the address of a contract. -/
def IsContract (chain : Chain) (v : PayloadValue) : Prop :=
  ∃ a contractId, v = .address a ∧ chain.address a = .contract contractId

variable {sdk : EventSdk} {chain : Chain} {raw : RpcEventResponse} {ev : Event} {v : PayloadValue}

theorem bytesToHex_hashBytes (h : BytesN32) : bytesToHex (hashBytes h) = hashText h := by
  have hdigits : (hashBytes h).flatMap hexDigits = (digits 16 64 h.toNat).map Nat.digitChar := by
    rw [show 64 = 2 * 32 from rfl, digits_mul, List.map_flatMap, hashBytes, List.flatMap_map]
    apply List.flatMap_congr
    intro d hd
    have hlt : d < 256 := lt_of_mem_digits (by decide) hd
    rw [hexDigits, UInt8.toNat_ofNat_of_lt' hlt]
  rw [← String.toList_inj, toList_bytesToHex, hdigits, hashText, String.toList_ofList]

theorem i128_halves (n : ℤ) : n / 2 ^ 64 * 2 ^ 64 + ((n % 2 ^ 64).toNat : ℤ) = n := by
  omega

theorem length_strKeyText (version : UInt8) (key : KeyBytes) :
    (strKeyText version key).toList.length = 56 := by
  rw [strKeyText, String.toList_ofList, List.length_map]
  exact length_lettersOf _

/-- The addresses of accounts and of contracts begin with different letters. -/
theorem strKeyText_ne (key contractId : KeyBytes) :
    strKeyText 0x30 key ≠ strKeyText 0x10 contractId := by
  intro h
  have hhead (version : UInt8) (key : KeyBytes) : (strKeyText version key).toList[0]? =
      some (unitChar (letter (version.toNat / 8))) := by
    rw [strKeyText, String.toList_ofList, List.getElem?_map, head?_strKey key.2, Option.map_some]
  have hletters := hhead 0x30 key
  rw [h, hhead 0x10 contractId] at hletters
  revert hletters
  decide

/-- **A value has its canonical text unless it is the address of a contract.** -/
theorem scValToString_iff (hkeys : EncodesKeys sdk) :
    scValToString sdk (toScVal chain v) = canonical chain v ↔ ¬ IsContract chain v := by
  by_cases hcontract : IsContract chain v
  · refine iff_of_false ?_ (not_not.mpr hcontract)
    obtain ⟨a, contractId, rfl, ha⟩ := hcontract
    rw [toScVal, canonical, ha]
    -- the hexadecimal digits are more than an address has letters
    intro (h : bytesToHex contractId.1 = strKeyText 0x10 contractId)
    have hlength := length_bytesToHex contractId.1
    rw [h, length_strKeyText, contractId.2] at hlength
    omega
  · refine iff_of_true ?_ hcontract
    cases v with
    | address a =>
      rw [toScVal, canonical]
      cases ha : chain.address a with
      | account key => exact hkeys key
      | contract contractId => exact absurd ⟨a, contractId, rfl, ha⟩ hcontract
    | i128 n =>
      show bigIntText _ = toString n
      rw [i128_halves, bigIntText_eq]
    | u64 n => exact bigIntText_eq n
    | hash h => exact bytesToHex_hashBytes h
    | _ => rfl

/-! ### Fields -/

/-- The fields that an event is shown with, and their values. -/
def namedFields : Event → List (String × PayloadValue)
  -- the fields the frontend names, in the order of the payload
  | .init admin => [("admin", .address admin)]
  | .wlAdd address => [("address", .address address)]
  | .wlRm address => [("address", .address address)]
  | .wlTog enabled => [("enabled", .bool enabled)]
  | .created token creator name symbol =>
    [("tokenAddress", .address token), ("creator", .address creator), ("name", .string name),
      ("symbol", .string symbol)]
  | .metaSet token uri _ => [("tokenAddress", .address token), ("metadataUri", .string uri)]
  | .metaFrz .. => []
  | .mint token recipient amount =>
    [("tokenAddress", .address token), ("to", .address recipient), ("amount", .i128 amount)]
  | .burn token holder amount =>
    [("tokenAddress", .address token), ("from", .address holder), ("amount", .i128 amount)]
  | .pause admin => [("admin", .address admin)]
  | .unpause admin => [("admin", .address admin)]
  | .splitClr _ => []
  | .splitSet .. => []
  | .fees baseFee metadataFee =>
    [("baseFee", optionValue baseFee), ("metadataFee", optionValue metadataFee)]
  | .feeRedir recipient share => [("recipient", .address recipient), ("amount", .i128 share)]
  | .upgProp admin wasmHash readyAt =>
    [("admin", .address admin), ("wasmHash", .hash wasmHash), ("readyAtLedger", .u64 readyAt)]
  | .upgExec admin wasmHash => [("admin", .address admin), ("wasmHash", .hash wasmHash)]
  | .upgCan admin wasmHash => [("admin", .address admin), ("cancelledWasmHash", .hash wasmHash)]
  | .admProp admin newAdmin expiry =>
    [("currentAdmin", .address admin), ("newAdmin", .address newAdmin), ("expiryLedger", .u64 expiry)]
  | .admAcc oldAdmin newAdmin => [("currentAdmin", .address oldAdmin), ("newAdmin", .address newAdmin)]
  | .admCan admin cancelled =>
    [("currentAdmin", .address admin), ("cancelledAdmin", .address cancelled)]
  | .admDep admin newAdmin expiry entrypoint =>
    [("currentAdmin", .address admin), ("newAdmin", .address newAdmin), ("expiryLedger", .u64 expiry),
      ("deprecatedEntrypoint", .symbol entrypoint)]

/-- A field of the event is the address of a contract. -/
def NamesContract (chain : Chain) (ev : Event) : Prop :=
  ∃ field ∈ namedFields ev, IsContract chain field.2

/-- **The fields of an event are the values that the factory has published under them.** -/
theorem data_of_encodes (henc : Encodes sdk chain raw ev) : ∃ e, parseRpcEvent sdk raw = some e ∧
    e.data = (namedFields ev).map fun field =>
      (field.1, scValToString sdk (toScVal chain field.2)) := by
  obtain ⟨⟨text, htext, htopic⟩, hvalue⟩ := henc
  -- the topic of every kind is in the table of the frontend
  have hlookup : CONTRACT_TOPIC_MAP.lookup (scValToString sdk (.sym (topic ev))) =
      some (eventType ev) := by
    cases ev <;> rfl
  have hparse : parseRpcEvent sdk raw = some {
      id := raw.id, type := eventType ev, ledger := raw.ledger
      timestamp :=
        if raw.ledgerClosedAt = "" then some 0 else (sdk.getTime raw.ledgerClosedAt).map (· / 1000)
      txHash := raw.txHash
      data := (EVENT_PAYLOAD_FIELDS (eventType ev)).mapIdx fun i field =>
        (field, itemToString sdk ((payload chain ev).map (toScVal chain))[i]?) } := by
    rw [parseRpcEvent, htext]
    show (sdk.fromXDR text).bind _ = _
    rw [htopic]
    show (CONTRACT_TOPIC_MAP.lookup _).bind _ = _
    rw [hlookup]
    show (sdk.fromXDR raw.value).bind _ = _
    rw [hvalue]
    rfl
  refine ⟨_, hparse, ?_⟩
  -- names and values are paired by position, kind by kind
  cases ev <;> rfl

/-- The event is shown with the canonical texts of its values. -/
def Canonical (sdk : EventSdk) (chain : Chain) (raw : RpcEventResponse) (ev : Event) : Prop :=
  ∃ e, parseRpcEvent sdk raw = some e ∧
    e.data = (namedFields ev).map fun field => (field.1, canonical chain field.2)

/-- An event is decoded canonically, unless it names a contract. -/
theorem canonical_event_iff (hkeys : EncodesKeys sdk) (henc : Encodes sdk chain raw ev) :
    Canonical sdk chain raw ev ↔ ¬ NamesContract chain ev := by
  obtain ⟨e, hparse, hdata⟩ := data_of_encodes henc
  have hsame : Canonical sdk chain raw ev ↔
      (namedFields ev).map (fun field => (field.1, scValToString sdk (toScVal chain field.2))) =
        (namedFields ev).map fun field => (field.1, canonical chain field.2) := by
    constructor
    · rintro ⟨e', hparse', hdata'⟩
      obtain rfl := Option.some.inj (hparse.symm.trans hparse')
      rw [← hdata, hdata']
    · intro h
      exact ⟨e, hparse, hdata.trans h⟩
  rw [hsame, List.map_inj_left, NamesContract, not_exists]
  simp only [not_and]
  refine forall₂_congr fun field _ => ?_
  rw [Prod.mk.injEq, scValToString_iff hkeys]
  exact and_iff_right rfl

/-! ### The events of a token -/

/-- How long the node keeps events. -/
def RPC_EVENT_RETENTION_DAYS : ℕ := 7

/-- What `getTokenEvents` returns. -/
structure TokenEventsResult where
  events : List ContractEvent
  retentionLimited : Bool
  retentionDays : ℕ
  cursor : Option String

/-- `getTokenEvents`, with the events of the factory; an empty `factoryContractId` counts as none. -/
def getTokenEvents (source : ℕ → Option String → Option GetEventsResult) (factoryContractId : String)
    (tokenAddress : String) : Option TokenEventsResult := do
  let events ← if factoryContractId = "" then some [] else
    (fetchAllContractEvents source).map fun events =>
      (events.filter fun event => event.data.lookup "tokenAddress" = some tokenAddress).mergeSort
        fun a b => b.ledger ≤ a.ledger
  return {
    events
    retentionLimited := true
    retentionDays := RPC_EVENT_RETENTION_DAYS
    cursor := none }

/-- What the node answers to some request. -/
def Served (getEvents : ℕ → Option String → Option (List RpcEventResponse)) (raw : RpcEventResponse) :
    Prop :=
  ∃ limit cursor, ∃ raws ∈ getEvents limit cursor, raw ∈ raws

/-- The event has been read from one that names the token. -/
def Concerns (sdk : EventSdk) (getEvents : ℕ → Option String → Option (List RpcEventResponse))
    (emitted : RpcEventResponse → Event) (token : Address) (e : ContractEvent) : Prop :=
  ∃ raw, Served getEvents raw ∧ parseRpcEvent sdk raw = some e ∧
    (namedFields (emitted raw)).lookup "tokenAddress" = some (.address token)

open Classical in
/-- Of the events that the frontend reads, `getTokenEvents` returns those that name the token. -/
def FindsEvents (sdk : EventSdk) (getEvents : ℕ → Option String → Option (List RpcEventResponse))
    (emitted : RpcEventResponse → Event) (factoryContractId tokenAddress : String) (token : Address) :
    Prop :=
  ∀ history ∈ fetchAllContractEvents (getContractEvents sdk getEvents),
    ∃ result ∈ getTokenEvents (getContractEvents sdk getEvents) factoryContractId tokenAddress,
      result.events.Perm (history.filter fun e => Concerns sdk getEvents emitted token e)

variable {getEvents : ℕ → Option String → Option (List RpcEventResponse)}
  {emitted : RpcEventResponse → Event} {source : ℕ → Option String → Option GetEventsResult}

/-- What is collected has been on some page. -/
theorem mem_collectEvents {pageSize fuel : ℕ} {cursor : Option String}
    {collected history : List ContractEvent} {e : ContractEvent}
    (h : collectEvents source pageSize fuel cursor collected = some history) (he : e ∈ history) :
    e ∈ collected ∨ ∃ limit cursor, ∃ result ∈ source limit cursor, e ∈ result.events := by
  induction fuel generalizing cursor collected with
  | zero =>
    obtain rfl := Option.some.inj h
    exact .inl he
  | succ fuel ih =>
    -- one more page, and the rest by induction
    rw [collectEvents] at h
    obtain ⟨result, hresult, h⟩ := Option.bind_eq_some_iff.mp h
    have hnew : e ∈ collected ++ result.events →
        e ∈ collected ∨ ∃ limit cursor, ∃ result ∈ source limit cursor, e ∈ result.events := by
      intro he
      rcases List.mem_append.mp he with he | he
      · exact .inl he
      · exact .inr ⟨pageSize, cursor, result, hresult, he⟩
    dsimp only at h
    split_ifs at h
    · obtain rfl := Option.some.inj h
      exact hnew he
    · rcases ih h with he | hsource
      · exact hnew he
      · exact .inr hsource

/-- Every event that the frontend reads has been sent by the node. -/
theorem served_of_mem {history : List ContractEvent} {e : ContractEvent}
    (h : fetchAllContractEvents (getContractEvents sdk getEvents) = some history) (he : e ∈ history) :
    ∃ raw, Served getEvents raw ∧ parseRpcEvent sdk raw = some e := by
  rcases mem_collectEvents h he with hnil | ⟨limit, cursor, result, hresult, he⟩
  · cases hnil
  · obtain ⟨raws, hraws, hsorted⟩ := Option.bind_eq_some_iff.mp hresult
    obtain rfl := Option.some.inj hsorted
    obtain ⟨raw, hraw, hparse⟩ := List.mem_filterMap.mp (List.mem_mergeSort.mp he)
    exact ⟨raw, ⟨limit, _, raws, hraws, hraw⟩, hparse⟩

theorem lookup_map {α β : Type} (f : α → β) (l : List (String × α)) (name : String) :
    (l.map fun field => (field.1, f field.2)).lookup name = (l.lookup name).map f := by
  induction l with
  | nil => rfl
  | cons field l ih =>
    rw [List.map_cons, List.lookup_cons, List.lookup_cons, ih]
    cases name == field.1 <;> rfl

theorem token_is_address (h : (namedFields ev).lookup "tokenAddress" = some v) :
    ∃ token, v = .address token := by
  cases ev <;> first | exact ⟨_, (Option.some.inj h).symm⟩ | cases h

theorem mem_of_lookup {α : Type} {l : List (String × α)} {name : String} {a : α}
    (h : l.lookup name = some a) : (name, a) ∈ l := by
  obtain ⟨l₁, l₂, rfl, -⟩ := List.lookup_eq_some_iff.mp h
  simp

/-- Where no field is the address of a contract, an event is not shown as one of a token. -/
theorem lookup_ne_contract (hkeys : EncodesKeys sdk) (henc : Encodes sdk chain raw ev)
    (hnone : ¬ NamesContract chain ev) {e : ContractEvent} (hparse : parseRpcEvent sdk raw = some e)
    (contractId : KeyBytes) :
    e.data.lookup "tokenAddress" ≠ some (strKeyText 0x10 contractId) := by
  intro hlookup
  obtain ⟨e', hparse', hdata⟩ := data_of_encodes henc
  obtain rfl := Option.some.inj (hparse.symm.trans hparse')
  rw [hdata, lookup_map fun v => scValToString sdk (toScVal chain v)] at hlookup
  obtain ⟨v, hv, htext⟩ := Option.map_eq_some_iff.mp hlookup
  obtain ⟨token, rfl⟩ := token_is_address hv
  have hcontract : ¬ IsContract chain (.address token) := fun h => hnone ⟨_, mem_of_lookup hv, h⟩
  rw [(scValToString_iff hkeys).mpr hcontract, canonical] at htext
  cases htoken : chain.address token with
  | account key =>
    rw [htoken] at htext
    exact strKeyText_ne key contractId htext
  | contract contractId => exact hcontract ⟨token, contractId, rfl, htoken⟩

/-- Where no event names a contract, those of a token are found. -/
theorem findsEvents_of_none (hkeys : EncodesKeys sdk)
    (hserves : ∀ raw, Served getEvents raw → Encodes sdk chain raw (emitted raw))
    (hnone : ∀ raw, Served getEvents raw → ¬ NamesContract chain (emitted raw))
    {token : Address} {contractId : KeyBytes} (htoken : chain.address token = .contract contractId)
    (factoryContractId : String) :
    FindsEvents sdk getEvents emitted factoryContractId (strKeyText 0x10 contractId) token := by
  intro history hhistory
  -- no row carries the address, since no event served names a contract
  have hfound : history.filter (fun e => e.data.lookup "tokenAddress" =
      some (strKeyText 0x10 contractId)) = [] := by
    refine List.filter_eq_nil_iff.mpr fun e he => ?_
    obtain ⟨raw, hserved, hparse⟩ := served_of_mem hhistory he
    simpa using lookup_ne_contract hkeys (hserves raw hserved) (hnone raw hserved) hparse contractId
  have hresult : ∃ result ∈ getTokenEvents (getContractEvents sdk getEvents) factoryContractId
      (strKeyText 0x10 contractId), result.events = [] := by
    rw [getTokenEvents]
    split_ifs
    · exact ⟨_, rfl, rfl⟩
    · rw [hhistory, Option.map_some, hfound]
      exact ⟨_, rfl, List.mergeSort_nil⟩
  -- nothing is served about the token either, so both sides are empty
  obtain ⟨result, hmem, hevents⟩ := hresult
  refine ⟨result, hmem, ?_⟩
  rw [hevents, List.filter_eq_nil_iff.mpr]
  rintro e - hconcerns
  simp only [decide_eq_true_eq] at hconcerns
  obtain ⟨raw, hserved, -, hlookup⟩ := hconcerns
  exact hnone raw hserved ⟨_, mem_of_lookup hlookup, token, contractId, rfl, htoken⟩

/-- **The events of a node are decoded canonically, and `getTokenEvents` finds those of a token, if and
only if no field of them is the address of a contract.** -/
theorem canonical_iff (hkeys : EncodesKeys sdk)
    (hserves : ∀ raw, Served getEvents raw → Encodes sdk chain raw (emitted raw))
    (factoryContractId : String) :
    ((∀ raw, Served getEvents raw → Canonical sdk chain raw (emitted raw)) ∧
      ∀ token contractId, chain.address token = .contract contractId →
        FindsEvents sdk getEvents emitted factoryContractId (strKeyText 0x10 contractId) token) ↔
    ∀ raw, Served getEvents raw → ¬ NamesContract chain (emitted raw) := by
  constructor
  · rintro ⟨hcanonical, -⟩ raw hserved
    exact (canonical_event_iff hkeys (hserves raw hserved)).mp (hcanonical raw hserved)
  · intro hnone
    refine ⟨fun raw hserved => ?_, fun token contractId htoken => ?_⟩
    · exact (canonical_event_iff hkeys (hserves raw hserved)).mpr (hnone raw hserved)
    · exact findsEvents_of_none hkeys hserves hnone htoken factoryContractId

/-! ### A token is created -/

/-- The key of an account. -/
def sampleKey : KeyBytes := ⟨List.replicate 32 0, by decide⟩

/-- The address 1 is an account, the others are contracts. -/
def sampleChain : Chain where
  address a := if a.id = 1 then .account sampleKey else .contract sampleKey
  text _ := "Gold"
  xdrU32 _ := ""
  xdrSplits _ := ""

/-- It decodes the parts of one event. -/
def sampleSdk (ev : Event) : EventSdk where
  fromXDR text :=
    if text = "topic" then some (.sym (topic ev))
    else if text = "value" then some (.vec ((payload sampleChain ev).map (toScVal sampleChain)))
    else none
  encodeEd25519PublicKey key := if h : key.length = 32 then strKeyText 0x30 ⟨key, h⟩ else ""
  getTime _ := none

/-- An event without a payload. -/
def sampleRaw : RpcEventResponse where
  id := "1"
  ledger := 1
  ledgerClosedAt := ""
  pagingToken := "1"
  txHash := ""
  topic := ["factory", "topic"]
  value := "value"

/-- A node that has this event. -/
def sampleEvents (_limit : ℕ) (_cursor : Option String) : Option (List RpcEventResponse) :=
  some [sampleRaw]

theorem encodesKeys_sampleSdk (ev : Event) : EncodesKeys (sampleSdk ev) := fun key => dif_pos key.2

theorem encodes_sampleRaw (ev : Event) : Encodes (sampleSdk ev) sampleChain sampleRaw ev :=
  ⟨⟨"topic", rfl, rfl⟩, rfl⟩

theorem eq_of_served_sampleEvents (h : Served sampleEvents raw) : raw = sampleRaw := by
  obtain ⟨limit, cursor, raws, hraws, hmem⟩ := h
  obtain rfl := Option.some.inj hraws
  exact List.mem_singleton.mp hmem

theorem served_sampleRaw : Served sampleEvents sampleRaw :=
  ⟨0, none, [sampleRaw], rfl, List.mem_singleton_self _⟩

theorem encodes_of_served_sampleEvents (ev : Event) (raw : RpcEventResponse)
    (h : Served sampleEvents raw) : Encodes (sampleSdk ev) sampleChain raw ev := by
  rw [eq_of_served_sampleEvents h]
  exact encodes_sampleRaw ev

/-- A pause by an account. -/
theorem canonical_iff_pause :
    Canonical (sampleSdk (.pause ⟨1⟩)) sampleChain sampleRaw (.pause ⟨1⟩) := by
  have hiff := canonical_iff (encodesKeys_sampleSdk (.pause ⟨1⟩))
    (encodes_of_served_sampleEvents (.pause ⟨1⟩)) "factory"
  refine (hiff.mpr fun raw _ => ?_).1 sampleRaw served_sampleRaw
  rintro ⟨field, hfield, a, contractId, ha, hcontract⟩
  obtain rfl := List.mem_singleton.mp hfield
  cases ha
  cases hcontract

/-- **The address of a new token is shown in hexadecimal digits.** -/
theorem not_canonical_created : ¬ ∀ sdk chain getEvents emitted factoryContractId,
    EncodesKeys sdk →
    (∀ raw, Served getEvents raw → Encodes sdk chain raw (emitted raw)) →
    (∀ raw, Served getEvents raw → Canonical sdk chain raw (emitted raw)) ∧
      ∀ token contractId, chain.address token = .contract contractId →
        FindsEvents sdk getEvents emitted factoryContractId (strKeyText 0x10 contractId) token := by
  intro h
  have hcanonical := (h (sampleSdk (.created ⟨2⟩ ⟨1⟩ [] [])) sampleChain sampleEvents
    (fun _ => .created ⟨2⟩ ⟨1⟩ [] []) "factory" (encodesKeys_sampleSdk _)
    (encodes_of_served_sampleEvents _)).1 sampleRaw served_sampleRaw
  have hnone := (canonical_event_iff (encodesKeys_sampleSdk _) (encodes_sampleRaw _)).mp hcanonical
  exact hnone ⟨("tokenAddress", .address ⟨2⟩), List.mem_cons_self, ⟨2⟩, sampleKey, rfl, rfl⟩

end StellarForge.Frontend.TokenEvents
