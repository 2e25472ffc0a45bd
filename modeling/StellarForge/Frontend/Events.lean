import Mathlib.Data.List.Sort
import StellarForge.Collections.Collect
import StellarForge.Collections.Numerals
import StellarForge.Encoding.Radix

/-!
# Events of the factory, as the frontend reads them

`parseRpcEvent` makes an event of what the node sends and drops what it does not know;
`getContractEvents` reads one page, and `fetchAllContractEvents` follows the cursor from the first page
on.
-/

namespace StellarForge.Frontend

open Collections Encoding Text

/-! ### Values -/

/-- `xdr.ScVal`, as far as `scValToString` tells the kinds apart. -/
inductive ScVal
  | account (ed25519 : List UInt8)
  | contract (contractId : List UInt8)
  | i128 (hi : ℤ) (lo : ℕ)
  | u64 (n : ℕ)
  | str (text : String)
  | sym (text : String)
  | bool (b : Bool)
  | void
  /-- The key under which a contract's instance is stored; like `void` it carries nothing. -/
  | ledgerKeyContractInstance
  | vec (items : List ScVal)
  | bytes (b : List UInt8)
  /-- An error with the code of a contract, where it has one, and the name of its type. -/
  | error (contractCode : Option ℕ) (name : String)
  /-- Any other value, by its XDR in base64. -/
  | other (xdr : String)

/-- What the frontend takes from the SDK and from the host language. -/
structure EventSdk where
  /-- `xdr.ScVal.fromXDR(text, 'base64')`, which can throw. -/
  fromXDR : String → Option ScVal
  encodeEd25519PublicKey : List UInt8 → String
  /-- `new Date(text).getTime()`, unless it is not a number. -/
  getTime : String → Option ℤ

/-- `b.toString(16).padStart(2, '0')` -/
def byteToHex (b : UInt8) : String :=
  String.ofList ((digits 16 2 b.toNat).map Nat.digitChar)

/-- Two lower-case digits for each byte. -/
def bytesToHex (bytes : List UInt8) : String := String.join (bytes.map byteToHex)

/-- The two digits of a byte. -/
def hexDigits (b : UInt8) : List Char := (digits 16 2 b.toNat).map Nat.digitChar

theorem toList_bytesToHex (bytes : List UInt8) :
    (bytesToHex bytes).toList = bytes.flatMap hexDigits := by
  rw [bytesToHex, String.toList_join, List.flatMap_map]
  congr 1
  funext b
  exact String.toList_ofList

theorem length_hexDigits (b : UInt8) : (hexDigits b).length = 2 := by
  rw [hexDigits, List.length_map, length_digits]

/-- Two bytes differ in their digits. -/
theorem hexDigits_injective : Function.Injective hexDigits := by
  -- a digit is read back from its character
  have hread (d : ℕ) (hd : d < 16) : digitValue d.digitChar = some d := by
    revert d
    decide
  have hmap (b : UInt8) : (hexDigits b).map digitValue = (digits 16 2 b.toNat).map some := by
    rw [hexDigits, List.map_map]
    apply List.map_congr_left
    intro d hd
    exact hread d (lt_of_mem_digits (by decide) hd)
  intro b c h
  have hdigits : (digits 16 2 b.toNat).map some = (digits 16 2 c.toNat).map some := by
    rw [← hmap, h, hmap]
  have hvalue := congrArg (value 16) (List.map_injective_iff.mpr (Option.some_injective ℕ) hdigits)
  have hlt (b : UInt8) : b.toNat < 16 ^ 2 := b.toNat_lt
  rw [value_digits (hlt b), value_digits (hlt c)] at hvalue
  exact UInt8.toNat_inj.mp hvalue

theorem length_bytesToHex (bytes : List UInt8) :
    (bytesToHex bytes).toList.length = 2 * bytes.length := by
  rw [toList_bytesToHex]
  induction bytes with
  | nil => rfl
  | cons b bytes ih =>
    rw [List.flatMap_cons, List.length_append, ih, length_hexDigits, List.length_cons]
    omega

/-- Two texts of bytes differ, if the bytes do. -/
theorem bytesToHex_injective : Function.Injective bytesToHex := by
  intro bytes bytes' h
  have hlength : 2 * bytes.length = 2 * bytes'.length := by
    rw [← length_bytesToHex, h, length_bytesToHex]
  have hlist : bytes.flatMap hexDigits = bytes'.flatMap hexDigits := by
    rw [← toList_bytesToHex, h, toList_bytesToHex]
  induction bytes generalizing bytes' with
  | nil =>
    cases bytes' with
    | nil => rfl
    | cons c bytes' => cases hlength
  | cons b bytes ih =>
    cases bytes' with
    | nil => cases hlength
    | cons c bytes' =>
      rw [List.flatMap_cons, List.flatMap_cons] at hlist
      obtain ⟨hhead, htail⟩ := List.append_inj hlist (by rw [length_hexDigits, length_hexDigits])
      have htext : bytesToHex bytes = bytesToHex bytes' := by
        rw [← String.toList_inj, toList_bytesToHex, toList_bytesToHex, htail]
      rw [hexDigits_injective hhead, ih htext (by simpa using hlength) htail]

mutual

/-- A value as the page shows it. -/
def scValToString (sdk : EventSdk) : ScVal → String
  | .account ed25519 => sdk.encodeEd25519PublicKey ed25519
  | .contract contractId => bytesToHex contractId
  | .i128 hi lo => bigIntText (hi * 2 ^ 64 + lo)
  | .u64 n => bigIntText n
  | .str text => text
  | .sym text => text
  | .bool b => toString b
  | .void => "none"
  -- the XDR of its tag, 20, in base64
  | .ledgerKeyContractInstance => "AAAAFA=="
  | .vec items => ", ".intercalate (scValsToStrings sdk items)
  | .bytes b => bytesToHex b
  | .error (some code) _ => "Error(Contract, " ++ toString code ++ ")"
  | .error none name => name
  | .other xdr => xdr

/-- The values of a vector. -/
def scValsToStrings (sdk : EventSdk) : List ScVal → List String
  | [] => []
  | v :: vs => scValToString sdk v :: scValsToStrings sdk vs

end

/-- `scValToString(items[i])` -/
def itemToString (sdk : EventSdk) (item : Option ScVal) : String :=
  match item with
  | none => ""
  | some val => scValToString sdk val

/-- `val.vec() ?? []`.  The accessor throws for a value of another kind; for a value that carries
nothing it is undefined, and the items are none. -/
def ScVal.vec? : ScVal → Option (List ScVal)
  | .vec items => some items
  | .void => some []
  | .ledgerKeyContractInstance => some []
  | _ => none

/-! ### Events -/

/-- The kinds of the factory's events. -/
inductive ContractEventType
  | init | created | metaSet | metaFrz | mint | burn | fees | feeRedir | splitSet | splitClr
  | pause | unpause | admProp | admAcc | admCan | admDep | wlAdd | wlRm | wlTog
  | upgProp | upgExec | upgCan
  deriving DecidableEq, Repr

/-- The kind that a topic stands for. -/
def CONTRACT_TOPIC_MAP : List (String × ContractEventType) :=
  [("init", .init), ("created", .created), ("meta", .metaSet), ("meta_frz", .metaFrz),
    ("mint", .mint), ("burn", .burn), ("fees", .fees), ("fee_redir", .feeRedir),
    ("split_set", .splitSet), ("split_clr", .splitClr), ("pause", .pause),
    ("unpause", .unpause), ("adm_prop", .admProp), ("adm_acc", .admAcc), ("adm_can", .admCan),
    ("adm_dep", .admDep), ("wl_add", .wlAdd), ("wl_rm", .wlRm), ("wl_tog", .wlTog),
    ("upg_prop", .upgProp), ("upg_exec", .upgExec), ("upg_can", .upgCan)]

/-- The names of the fields of a payload, in their order. -/
def EVENT_PAYLOAD_FIELDS : ContractEventType → List String
  | .init => ["admin"]
  | .created => ["tokenAddress", "creator", "name", "symbol"]
  | .metaSet => ["tokenAddress", "metadataUri"]
  | .metaFrz => []
  | .mint => ["tokenAddress", "to", "amount"]
  | .burn => ["tokenAddress", "from", "amount"]
  | .fees => ["baseFee", "metadataFee"]
  | .feeRedir => ["recipient", "amount"]
  | .splitSet => []
  | .splitClr => []
  | .pause => ["admin"]
  | .unpause => ["admin"]
  | .admProp => ["currentAdmin", "newAdmin", "expiryLedger"]
  | .admAcc => ["currentAdmin", "newAdmin"]
  | .admCan => ["currentAdmin", "cancelledAdmin"]
  | .admDep => ["currentAdmin", "newAdmin", "expiryLedger", "deprecatedEntrypoint"]
  | .wlAdd => ["address"]
  | .wlRm => ["address"]
  | .wlTog => ["enabled"]
  | .upgProp => ["admin", "wasmHash", "readyAtLedger"]
  | .upgExec => ["admin", "wasmHash"]
  | .upgCan => ["admin", "cancelledWasmHash"]

/-- An event of `getEvents`, as the node returns it. -/
structure RpcEventResponse where
  id : String
  ledger : ℕ
  ledgerClosedAt : String
  pagingToken : String
  txHash : String
  topic : List String
  value : String
  deriving DecidableEq, Repr

/-- The payload by field; the timestamp is `none` where it is not a number. -/
structure ContractEvent where
  id : String
  type : ContractEventType
  ledger : ℕ
  timestamp : Option ℤ
  txHash : String
  data : List (String × String)
  deriving DecidableEq, Repr

/-- `none` for `null`, whether the event is not known or the decoding throws. -/
def parseRpcEvent (sdk : EventSdk) (raw : RpcEventResponse) : Option ContractEvent := do
  -- the second topic is the action
  let topic ← raw.topic[1]?
  let topicVal ← sdk.fromXDR topic
  let eventType ← CONTRACT_TOPIC_MAP.lookup (scValToString sdk topicVal)
  let value ← sdk.fromXDR raw.value
  let items ← value.vec?
  return {
    id := raw.id
    type := eventType
    ledger := raw.ledger
    timestamp :=
      if raw.ledgerClosedAt = "" then some 0 else (sdk.getTime raw.ledgerClosedAt).map (· / 1000)
    txHash := raw.txHash
    data := (EVENT_PAYLOAD_FIELDS eventType).mapIdx fun i field =>
      (field, itemToString sdk items[i]?) }

/-! ### Pages -/

/-- A page of decoded events, with the cursor of the next one. -/
structure GetEventsResult where
  events : List ContractEvent
  cursor : Option String

/-- `getContractEvents`, with the node's answer to `getEvents` for a limit and a cursor; `none` where a
request fails.  An empty cursor counts as none. -/
def getContractEvents (sdk : EventSdk)
    (getEvents : ℕ → Option String → Option (List RpcEventResponse)) (limit : ℕ)
    (cursor : Option String) : Option GetEventsResult := do
  let result ← getEvents limit (cursor.filter (· ≠ ""))
  let parsed := result.filterMap (parseRpcEvent sdk)
  return {
    events := parsed.mergeSort fun a b => b.ledger ≤ a.ledger
    cursor := result.getLast?.map RpcEventResponse.pagingToken }

/-- The pages of one walk. -/
def MAX_PAGES : ℕ := 10000

/-- The loop of `fetchAllContractEvents`, with the pages that it may still read. -/
def collectEvents (source : ℕ → Option String → Option GetEventsResult) (pageSize : ℕ) :
    (fuel : ℕ) → (cursor : Option String) → (collected : List ContractEvent) →
    Option (List ContractEvent)
  | 0, _, collected => some collected
  | fuel + 1, cursor, collected => do
    let result ← source pageSize cursor
    let collected := collected ++ result.events
    if result.events.length < pageSize ∨ result.cursor.filter (· ≠ "") = none then
      some collected
    else
      collectEvents source pageSize fuel result.cursor collected

/-- The events of all pages, or none when one of them cannot be read. -/
def fetchAllContractEvents (source : ℕ → Option String → Option GetEventsResult)
    (pageSize : ℕ := 100) : Option (List ContractEvent) :=
  collectEvents source pageSize MAX_PAGES none []

end StellarForge.Frontend
