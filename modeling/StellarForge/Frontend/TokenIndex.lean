import StellarForge.Collections.Sorting
import StellarForge.Factory.Properties.CreatedEvents
import StellarForge.Frontend.Events
import StellarForge.Frontend.TokenReads

/-!
# Addresses and metadata of tokens, from events

`buildTokenEventIndex` numbers the `created` events that are at hand, and takes that for the index of the
token; of the `meta` events of a token it keeps the last one of the last ledger.

* `foldl_setAddress`, `foldl_setMeta`: what the maps hold;
* `addresses_iff`: the addresses are right if and only if no `created` event is missing before those at
  hand;
* `indexCorrect_iff`: **for every history and every window of its events, the addresses and the metadata
  are right if and only if** that holds and the pages do not turn round the `meta` events of a ledger.
-/

namespace StellarForge.Frontend.TokenIndex

open Soroban Contract Factory Transition Collections Tokens

/-! ### The index -/

/-- `a.localeCompare(b) <= 0` -/
structure LocaleOrder where
  le : String → String → Bool
  total : ∀ a b, (le a b || le b a) = true
  trans : ∀ a b c, le a b = true → le b c = true → le a c = true

/-- A field of `e.data`, unless it is empty. -/
def field (e : ContractEvent) (name : String) : Option String :=
  (e.data.lookup name).filter (· ≠ "")

/-- The order of the `created` events: by ledger, then by identifier. -/
def createdLE (order : LocaleOrder) (a b : ContractEvent) : Bool :=
  decide (a.ledger < b.ledger) || (a.ledger == b.ledger && order.le a.id b.id)

/-- `TokenEventIndex`, with the maps as functions. -/
structure TokenEventIndex where
  indexToAddress : ℕ → Option String
  addressToMeta : String → Option String

/-- `indexToAddress.set(k + 1, e.data.tokenAddress)` -/
def setAddress (map : ℕ → Option String) (entry : ContractEvent × ℕ) : ℕ → Option String :=
  match field entry.1 "tokenAddress" with
  | some address => Function.update map (entry.2 + 1) (some address)
  | none => map

/-- `addressToMeta.set(e.data.tokenAddress, e.data.metadataUri)` -/
def setMeta (map : String → Option String) (e : ContractEvent) : String → Option String :=
  match field e "tokenAddress", field e "metadataUri" with
  | some address, some uri => Function.update map address (some uri)
  | _, _ => map

/-- The event tells of a new token. -/
def isCreated (e : ContractEvent) : Bool := e.type = .created

/-- The event tells of new metadata. -/
def isMeta (e : ContractEvent) : Bool := e.type = .metaSet

/-- The index that the page makes of the events of the factory. -/
def buildTokenEventIndex (order : LocaleOrder) (events : List ContractEvent) : TokenEventIndex :=
  let created := (events.filter isCreated).mergeSort (createdLE order)
  let metaEvents := (events.filter isMeta).mergeSort fun a b => a.ledger ≤ b.ledger
  { indexToAddress := created.zipIdx.foldl setAddress fun _ => none
    addressToMeta := metaEvents.foldl setMeta fun _ => none }

variable {order : LocaleOrder} {events : List ContractEvent} {e : ContractEvent} {a : String} {i : ℕ}

/-! ### What the maps hold -/

/-- The position of an event is the number of its token. -/
theorem foldl_setAddress (created : List ContractEvent) :
    created.zipIdx.foldl setAddress (fun _ => none) i =
      (if i = 0 then none else created[i - 1]?).bind (field · "tokenAddress") := by
  induction created using List.reverseRecOn with
  | nil => simp
  | append_singleton created e ih =>
    rw [List.zipIdx_append, List.foldl_append]
    show setAddress _ (e, 0 + created.length) i = _
    rw [Nat.zero_add]
    -- the slot of the event that came last, or an earlier one
    by_cases hi : i = created.length + 1
    · have hne : i ≠ 0 := by omega
      have hold : (if i = 0 then none else created[i - 1]?) = none := by
        rw [if_neg hne, List.getElem?_eq_none_iff]
        omega
      have hnew : (created ++ [e])[i - 1]? = some e := by
        rw [hi, Nat.add_sub_cancel, List.getElem?_concat_length]
      rw [hold] at ih
      rw [if_neg hne, hnew, Option.bind_some, setAddress]
      cases field e "tokenAddress" with
      | none => exact ih
      | some address =>
        rw [hi]
        exact Function.update_self ..
    · -- earlier slots are read from the shorter list
      have hsame : (if i = 0 then none else (created ++ [e])[i - 1]?) =
          if i = 0 then none else created[i - 1]? := by
        split_ifs with hzero
        · rfl
        · rcases Nat.lt_or_ge (i - 1) created.length with hlt | hge
          · rw [List.getElem?_append_left hlt]
          · rw [List.getElem?_eq_none_iff.mpr hge, List.getElem?_eq_none_iff, List.length_append,
              List.length_singleton]
            omega
      rw [hsame, ← ih, setAddress]
      cases field e "tokenAddress" with
      | none => rfl
      | some address => exact Function.update_of_ne hi ..

/-- The event gives the token a URI. -/
def givesUri (a : String) (e : ContractEvent) : Bool :=
  field e "tokenAddress" == some a && (field e "metadataUri").isSome

/-- The last event that gives the token a URI decides. -/
theorem foldl_setMeta (metaEvents : List ContractEvent) :
    metaEvents.foldl setMeta (fun _ => none) a =
      ((metaEvents.filter (givesUri a)).getLast?).bind (field · "metadataUri") := by
  induction metaEvents using List.reverseRecOn with
  | nil => rfl
  | append_singleton metaEvents e ih =>
    rw [List.foldl_concat, List.filter_append, setMeta]
    cases hgives : givesUri a e with
    | true =>
      rw [givesUri, Bool.and_eq_true, beq_iff_eq, Option.isSome_iff_exists] at hgives
      obtain ⟨htoken, uri, huri⟩ := hgives
      have hself : [e].filter (givesUri a) = [e] := by
        rw [List.filter_cons_of_pos, List.filter_nil]
        rw [givesUri, htoken, huri, beq_self_eq_true]
        rfl
      rw [htoken, huri, hself, List.getLast?_concat, Option.bind_some, huri]
      exact Function.update_self ..
    | false =>
      have hnone : [e].filter (givesUri a) = [] := by
        rw [List.filter_cons_of_neg (by rw [hgives]; exact Bool.false_ne_true), List.filter_nil]
      rw [hnone, List.append_nil, ← ih]
      -- the map is set for another token, or not at all
      cases htoken : field e "tokenAddress" with
      | none => rfl
      | some address =>
        cases huri : field e "metadataUri" with
        | none => rfl
        | some uri =>
          have hne : a ≠ address := by
            rintro rfl
            rw [givesUri, htoken, huri, beq_self_eq_true] at hgives
            cases hgives
          exact Function.update_of_ne hne ..

/-! ### Events of the chain -/

/-- How the frontend shows what the chain holds. -/
structure ChainText where
  contractId : Address → List UInt8
  contractId_injective : Function.Injective contractId
  contractId_ne_nil : ∀ token, contractId token ≠ []
  text : Bytes → String
  text_ne_empty : ∀ uri, ipfsPrefix <+: uri → text uri ≠ ""

/-- The address of a token in an event. -/
def ChainText.tokenText (chain : ChainText) (token : Address) : String :=
  bytesToHex (chain.contractId token)

/-- The kind of an event of the factory. -/
def eventType : Event → ContractEventType
  | .init .. => .init
  | .wlAdd .. => .wlAdd
  | .wlRm .. => .wlRm
  | .wlTog .. => .wlTog
  | .created .. => .created
  | .metaSet .. => .metaSet
  | .metaFrz .. => .metaFrz
  | .mint .. => .mint
  | .burn .. => .burn
  | .pause .. => .pause
  | .unpause .. => .unpause
  | .splitClr .. => .splitClr
  | .splitSet .. => .splitSet
  | .fees .. => .fees
  | .feeRedir .. => .feeRedir
  | .upgProp .. => .upgProp
  | .upgExec .. => .upgExec
  | .upgCan .. => .upgCan
  | .admProp .. => .admProp
  | .admAcc .. => .admAcc
  | .admCan .. => .admCan
  | .admDep .. => .admDep

/-- The frontend has read the event `ev` of the chain as `e`. -/
structure Carries (chain : ChainText) (ev : Event) (e : ContractEvent) : Prop where
  type : e.type = eventType ev
  created : ∀ token creator name symbol, ev = .created token creator name symbol →
    e.data.lookup "tokenAddress" = some (chain.tokenText token)
  metaSet : ∀ token uri version, ev = .metaSet token uri version →
    e.data.lookup "tokenAddress" = some (chain.tokenText token) ∧
    e.data.lookup "metadataUri" = some (chain.text uri)

/-- The events of a factory, oldest first. -/
structure EventStream (chain : ChainText) (order : LocaleOrder) (w : World) where
  events : List ContractEvent
  carries : List.Forall₂ (Carries chain) w.events events
  ordered : events.Pairwise fun a b => a.ledger ≤ b.ledger ∧
    (a.ledger = b.ledger → order.le a.id b.id = true ∧ order.le b.id a.id = false)

/-- The events of a page, as `getContractEvents` returns them. -/
def sortedPage (page : List ContractEvent) : List ContractEvent :=
  page.mergeSort fun a b => b.ledger ≤ a.ledger

/-- The events that are at hand have been read page by page, the pages in any order. -/
structure Collected (available events : List ContractEvent) : Prop where
  exists_pages : ∃ pages read : List (List ContractEvent), pages.flatten = available ∧
    read.Perm pages ∧ events = read.flatMap sortedPage

/-- A `meta` event of the token. -/
def isMetaOf (a : String) (e : ContractEvent) : Bool :=
  isMeta e && field e "tokenAddress" == some a

/-- The URI of the latest `meta` event of the token. -/
def latestUri (events : List ContractEvent) (a : String) : Option String :=
  ((events.filter (isMetaOf a)).getLast?).bind (field · "metadataUri")

/-- The addresses are those on the chain, and the URIs are those of the latest events. -/
structure IndexCorrect (chain : ChainText) (env : Env) (w : World)
    (stream available : List ContractEvent) (index : TokenEventIndex) : Prop where
  addresses : ∀ i a, index.indexToAddress i = some a →
    ∃ token, simulate env w (.getTokenAddress i) = some (.address token) ∧
      a = chain.tokenText token
  metadata : ∀ a uri, index.addressToMeta a = some uri → latestUri stream a = some uri
  found : ∀ a, (∃ e ∈ available, isMetaOf a e = true) → (index.addressToMeta a).isSome

/-- Of the `meta` events of a token in the last ledger that has one, the last in the order of the pages has
the URI of the last in the stream. -/
def TiesInOrder (available events : List ContractEvent) : Prop :=
  ∀ a e, (available.filter (isMetaOf a)).getLast? = some e →
    ((events.filter fun e' => isMetaOf a e' && e'.ledger == e.ledger).getLast?).bind
      (field · "metadataUri") = field e "metadataUri"

variable {args : ConstructorArgs} {h : List Invocation} {w : World} {env : Env} {chain : ChainText}
  {stream : EventStream chain order w} {available : List ContractEvent} {missing : ℕ}

/-! ### What is at hand -/

theorem perm_sortedPage (page : List ContractEvent) : (sortedPage page).Perm page :=
  List.mergeSort_perm ..

theorem Collected.perm (hc : Collected available events) : events.Perm available := by
  obtain ⟨pages, read, rfl, hperm, rfl⟩ := hc.exists_pages
  have hpages : (read.flatMap sortedPage).Perm read.flatten := by
    rw [← List.flatMap_id]
    exact List.Perm.flatMap_left _ fun page _ => perm_sortedPage page
  exact hpages.trans hperm.flatten

theorem field_of_lookup {name value : String} (h : e.data.lookup name = some value)
    (hne : value ≠ "") : field e name = some value := by
  rw [field, h, Option.filter_some_pos (by simpa using hne)]

theorem ChainText.tokenText_ne_empty (chain : ChainText) (token : Address) :
    chain.tokenText token ≠ "" := by
  intro hempty
  have hlength := length_bytesToHex (chain.contractId token)
  rw [show bytesToHex (chain.contractId token) = "" from hempty] at hlength
  have hpos := List.length_pos_of_ne_nil (chain.contractId_ne_nil token)
  have hzero : ("" : String).toList.length = 0 := rfl
  omega

theorem ChainText.tokenText_injective (chain : ChainText) :
    Function.Injective chain.tokenText :=
  bytesToHex_injective.comp chain.contractId_injective

/-- The `created` events name the tokens that the factory has created. -/
theorem map_created {evs : List Event} (hcarries : List.Forall₂ (Carries chain) evs events) :
    (events.filter isCreated).map (field · "tokenAddress") =
      (evs.filterMap Event.createdToken).map fun token => some (chain.tokenText token) := by
  induction hcarries with
  | nil => rfl
  | @cons ev e evs events hc _ ih =>
    have htype := hc.type
    cases ev with
    | created token creator name symbol =>
      have hself : isCreated e = true := decide_eq_true htype
      have hfield : field e "tokenAddress" = some (chain.tokenText token) :=
        field_of_lookup (hc.created token creator name symbol rfl) (chain.tokenText_ne_empty token)
      rw [List.filter_cons_of_pos hself, List.map_cons, ih, hfield]
      rfl
    | _ =>
      have hother : ¬ isCreated e = true := by
        rw [isCreated, decide_eq_true_eq, htype]
        exact ContractEventType.noConfusion
      rw [List.filter_cons_of_neg hother, ih]
      rfl

/-- A `meta` event carries a token and one of the URIs that the factory has published. -/
theorem exists_of_isMeta {evs : List Event} (hcarries : List.Forall₂ (Carries chain) evs events)
    (he : e ∈ events) (hmeta : isMeta e = true) :
    ∃ uri ∈ evs.filterMap Event.metadataUri, e.data.lookup "metadataUri" = some (chain.text uri) := by
  induction hcarries with
  | nil => cases he
  | @cons ev e' evs events hc _ ih =>
    rcases List.mem_cons.mp he with rfl | he
    · have htype : eventType ev = .metaSet := hc.type.symm.trans (of_decide_eq_true hmeta)
      cases ev with
      | metaSet token uri version =>
        exact ⟨uri, List.mem_cons_self, (hc.metaSet token uri version rfl).2⟩
      | _ => cases htype
    · obtain ⟨uri, huri, hlookup⟩ := ih he
      refine ⟨uri, ?_, hlookup⟩
      rw [List.filterMap_cons]
      cases ev.metadataUri with
      | none => exact huri
      | some uri' => exact List.mem_cons_of_mem _ huri

/-- Every `meta` event of a factory has a URI. -/
theorem EventStream.metadataUri_isSome (stream : EventStream chain order w) (hr : Reaches args h w)
    (he : e ∈ stream.events) (hmeta : isMeta e = true) : (field e "metadataUri").isSome = true := by
  obtain ⟨uri, huri, hlookup⟩ := exists_of_isMeta stream.carries he hmeta
  have hvalid := validUri_of_mem_metadataUris hr huri
  rw [field_of_lookup hlookup (chain.text_ne_empty uri hvalid.starts)]
  rfl

/-! ### Addresses -/

theorem createdLE_iff {a b : ContractEvent} : createdLE order a b = true ↔
    a.ledger < b.ledger ∨ a.ledger = b.ledger ∧ order.le a.id b.id = true := by
  rw [createdLE, Bool.or_eq_true, Bool.and_eq_true, decide_eq_true_eq, beq_iff_eq]

/-- The order of the creations is transitive. -/
theorem createdLE_trans (a b c : ContractEvent) (hab : createdLE order a b = true)
    (hbc : createdLE order b c = true) : createdLE order a c = true := by
  rw [createdLE_iff] at hab hbc ⊢
  rcases hab with hab | ⟨hab, hle⟩
  · left
    omega
  · rcases hbc with hbc | ⟨hbc, hle'⟩
    · left
      omega
    · exact Or.inr ⟨hab.trans hbc, order.trans _ _ _ hle hle'⟩

/-- The order of the creations is total. -/
theorem createdLE_total (a b : ContractEvent) :
    (createdLE order a b || createdLE order b a) = true := by
  rw [Bool.or_eq_true, createdLE_iff, createdLE_iff]
  rcases Nat.lt_trichotomy a.ledger b.ledger with hlt | heq | hgt
  · exact Or.inl (Or.inl hlt)
  · have htotal := order.total a.id b.id
    rw [Bool.or_eq_true] at htotal
    rcases htotal with hle | hle
    · exact Or.inl (Or.inr ⟨heq, hle⟩)
    · exact Or.inr (Or.inr ⟨heq.symm, hle⟩)
  · exact Or.inr (Or.inl hgt)

/-- Sorting puts the `created` events back into the order of the stream. -/
theorem mergeSort_created (stream : EventStream chain order w)
    (hperm : events.Perm (stream.events.drop missing)) :
    (events.filter isCreated).mergeSort (createdLE order) =
      (stream.events.drop missing).filter isCreated := by
  apply mergeSort_eq_of_perm createdLE_trans createdLE_total (hperm.filter isCreated)
  have hordered := (stream.ordered.sublist (List.drop_sublist missing _)).filter isCreated
  refine hordered.imp ?_
  rintro a b ⟨hle, hties⟩
  rcases Nat.lt_or_eq_of_le hle with hlt | heq
  · refine ⟨createdLE_iff.mpr (Or.inl hlt), ?_⟩
    rw [Bool.eq_false_iff]
    intro hba
    rcases createdLE_iff.mp hba with hba | ⟨hba, -⟩
    · omega
    · omega
  · obtain ⟨hab, hba⟩ := hties heq
    refine ⟨createdLE_iff.mpr (Or.inr ⟨heq, hab⟩), ?_⟩
    rw [createdLE, hba, Bool.and_false, Bool.or_false]
    exact decide_eq_false (by omega)

/-- What `indexToAddress` holds: the tokens after those whose events are missing. -/
theorem indexToAddress_eq (stream : EventStream chain order w)
    (hperm : events.Perm (stream.events.drop missing)) :
    (buildTokenEventIndex order events).indexToAddress i =
      if i = 0 then none
      else (w.createdTokens[((stream.events.take missing).filter isCreated).length + (i - 1)]?).map
        chain.tokenText := by
  show ((events.filter isCreated).mergeSort (createdLE order)).zipIdx.foldl setAddress _ i = _
  rw [foldl_setAddress, mergeSort_created stream hperm]
  split_ifs with hi
  · rfl
  · -- the events at hand come after the missing ones
    have hsplit : stream.events.filter isCreated =
        (stream.events.take missing).filter isCreated ++
          (stream.events.drop missing).filter isCreated := by
      rw [← List.filter_append, List.take_append_drop]
    have hget : ((stream.events.drop missing).filter isCreated)[i - 1]? =
        (stream.events.filter isCreated)[((stream.events.take missing).filter isCreated).length +
          (i - 1)]? := by
      rw [hsplit, List.getElem?_append_right (Nat.le_add_right ..), Nat.add_sub_cancel_left]
    have hmap := congrArg
      (fun l => l[((stream.events.take missing).filter isCreated).length + (i - 1)]?)
      (map_created stream.carries)
    simp only [List.getElem?_map] at hmap
    have hjoin (o : Option ContractEvent) :
        o.bind (field · "tokenAddress") = (o.map (field · "tokenAddress")).join := by
      cases o with
      | none => rfl
      | some e => rfl
    rw [hget, hjoin, hmap, World.createdTokens]
    cases (w.events.filterMap Event.createdToken)[
      ((stream.events.take missing).filter isCreated).length + (i - 1)]? with
    | none => rfl
    | some token => rfl

/-- What `get_token_address` returns: the tokens in the order of their creation. -/
theorem simulate_getTokenAddress_iff (hr : Reaches args h w) {token : Address} :
    simulate env w (.getTokenAddress i) = some (.address token) ↔
      i ≠ 0 ∧ w.createdTokens[i - 1]? = some token := by
  obtain ⟨m, hw, htokens⟩ := hr.createdTokens
  rw [simulate_getTokenAddress hw, htokens, List.getElem?_map]
  cases i with
  | zero => exact iff_of_false nofun fun h => h.1 rfl
  | succ i => exact ⟨fun h => ⟨Nat.succ_ne_zero i, h⟩, fun h => h.2⟩

theorem nodup_createdTokens (hr : Reaches args h w) : w.createdTokens.Nodup := by
  obtain ⟨m, -, htokens⟩ := hr.createdTokens
  rw [htokens]
  exact m.tokens.nodup

/-- No `created` event precedes those at hand, or none is at hand. -/
def NoneMissing (stream : List ContractEvent) (missing : ℕ) : Prop :=
  (∀ e ∈ stream.take missing, e.type ≠ .created) ∨ ∀ e ∈ stream.drop missing, e.type ≠ .created

/-- The same by counting the creations. -/
theorem noneMissing_iff : NoneMissing events missing ↔
    ((events.take missing).filter isCreated).length = 0 ∨
      (events.filter isCreated).length ≤ ((events.take missing).filter isCreated).length := by
  have hnil (l : List ContractEvent) :
      (∀ e ∈ l, e.type ≠ .created) ↔ (l.filter isCreated).length = 0 := by
    rw [List.length_eq_zero_iff, List.filter_eq_nil_iff]
    refine forall₂_congr fun e _ => ?_
    rw [isCreated, decide_eq_true_eq]
  have hsum : (events.filter isCreated).length =
      ((events.take missing).filter isCreated).length +
        ((events.drop missing).filter isCreated).length := by
    rw [← List.length_append, ← List.filter_append, List.take_append_drop]
  rw [NoneMissing, hnil, hnil]
  omega

/-- **The addresses are right if and only if no `created` event is missing before those at hand**, or none
is at hand. -/
theorem addresses_iff (hr : Reaches args h w) (stream : EventStream chain order w)
    (hperm : events.Perm (stream.events.drop missing)) (env : Env) :
    (∀ i a, (buildTokenEventIndex order events).indexToAddress i = some a →
      ∃ token, simulate env w (.getTokenAddress i) = some (.address token) ∧
        a = chain.tokenText token) ↔ NoneMissing stream.events missing := by
  have hlength : (stream.events.filter isCreated).length = w.createdTokens.length := by
    have hmap := congrArg List.length (map_created stream.carries)
    rwa [List.length_map, List.length_map] at hmap
  rw [noneMissing_iff, hlength]
  generalize hn : ((stream.events.take missing).filter isCreated).length = n
  have hindex (i : ℕ) : (buildTokenEventIndex order events).indexToAddress i =
      if i = 0 then none else (w.createdTokens[n + (i - 1)]?).map chain.tokenText := by
    rw [indexToAddress_eq stream hperm, hn]
  constructor
  · intro hright
    by_contra! hmissing
    -- the first event at hand is not that of the first token
    have hget : w.createdTokens[n + (1 - 1)]? = some w.createdTokens[n] := by
      rw [Nat.sub_self, Nat.add_zero, List.getElem?_eq_getElem hmissing.2]
    have hfirst : (buildTokenEventIndex order events).indexToAddress 1 =
        some (chain.tokenText w.createdTokens[n]) := by
      rw [hindex, if_neg Nat.one_ne_zero, hget, Option.map_some]
    obtain ⟨token, htoken, htext⟩ := hright 1 _ hfirst
    obtain ⟨-, htoken⟩ := (simulate_getTokenAddress_iff hr).mp htoken
    obtain ⟨hpos, htoken⟩ := List.getElem?_eq_some_iff.mp htoken
    have hsame : w.createdTokens[0] = w.createdTokens[n] := by
      rw [chain.tokenText_injective htext]
      exact htoken
    have hzero := (List.getElem_inj (nodup_createdTokens hr)).mp hsame
    exact hmissing.1 hzero.symm
  · rintro hnone i a ha
    rw [hindex] at ha
    split_ifs at ha with hi
    obtain ⟨token, htoken, rfl⟩ := Option.map_eq_some_iff.mp ha
    have hzero : n = 0 := by
      have hlt := (List.getElem?_eq_some_iff.mp htoken).1
      omega
    rw [hzero, Nat.zero_add] at htoken
    exact ⟨token, (simulate_getTokenAddress_iff hr).mpr ⟨hi, htoken⟩, rfl⟩

/-! ### Metadata -/

/-- The last `meta` event of a token is in its last ledger. -/
theorem ledger_le_of_getLast? (stream : EventStream chain order w)
    (hlast : ((stream.events.drop missing).filter (isMetaOf a)).getLast? = some e)
    {x : ContractEvent} (hx : x ∈ (stream.events.drop missing).filter (isMetaOf a)) :
    x.ledger ≤ e.ledger := by
  have hordered := (stream.ordered.sublist (List.drop_sublist missing _)).filter (isMetaOf a)
  obtain ⟨init, hinit⟩ := List.getLast?_eq_some_iff.mp hlast
  rw [hinit] at hordered hx
  rcases List.mem_append.mp hx with hx | hx
  · exact ((List.pairwise_append.mp hordered).2.2 x hx e (List.mem_singleton.mpr rfl)).1
  · rw [List.mem_singleton.mp hx]

/-- What `addressToMeta` holds for a token with a `meta` event: the last one of its last ledger, as the
pages have it. -/
theorem addressToMeta_eq (hr : Reaches args h w) (stream : EventStream chain order w)
    (hperm : events.Perm (stream.events.drop missing))
    (hlast : ((stream.events.drop missing).filter (isMetaOf a)).getLast? = some e) :
    (buildTokenEventIndex order events).addressToMeta a =
      ((events.filter fun e' => isMetaOf a e' && e'.ledger == e.ledger).getLast?).bind
        (field · "metadataUri") := by
  -- every metadata event of a factory carries its URI
  have huri : ∀ x ∈ events, isMeta x = true → (field x "metadataUri").isSome = true := by
    intro x hx hmeta
    exact stream.metadataUri_isSome hr (List.mem_of_mem_drop (hperm.mem_iff.mp hx)) hmeta
  have hgives : ∀ x ∈ events, isMeta x = true → givesUri a x = isMetaOf a x := by
    intro x hx hmeta
    rw [givesUri, isMetaOf, hmeta, huri x hx hmeta, Bool.and_true, Bool.true_and]
  have hmem : e ∈ (stream.events.drop missing).filter (isMetaOf a) := List.mem_of_getLast? hlast
  obtain ⟨he, hmetaOf⟩ := List.mem_filter.mp hmem
  have hmeta : isMeta e = true := (Bool.and_eq_true .. ▸ hmetaOf).1
  have hevents : e ∈ events := hperm.mem_iff.mpr he
  -- the source sorts by ledger and lets the last event win
  show ((events.filter isMeta).mergeSort fun a b => decide (a.ledger ≤ b.ledger)).foldl setMeta _ a =
    _
  rw [foldl_setMeta, getLast?_filter_mergeSort (n := e.ledger), List.filter_filter]
  · congr 2
    apply List.filter_congr
    intro x hx
    cases hx' : isMeta x with
    | true => rw [Bool.and_true, hgives x hx hx']
    | false => rw [Bool.and_false, isMetaOf, hx', Bool.false_and, Bool.false_and]
  · intro x hx hx'
    obtain ⟨hx, hmeta⟩ := List.mem_filter.mp hx
    rw [hgives x hx hmeta] at hx'
    exact ledger_le_of_getLast? stream hlast (List.mem_filter.mpr ⟨hperm.mem_iff.mp hx, hx'⟩)
  · -- the event itself is among those of its ledger
    refine ⟨e, List.mem_filter.mpr ⟨hevents, hmeta⟩, ?_, rfl⟩
    rw [hgives e hevents hmeta]
    exact hmetaOf

/-- Without a `meta` event at hand there is nothing for a token. -/
theorem addressToMeta_eq_none (hperm : events.Perm available)
    (hnone : available.filter (isMetaOf a) = []) :
    (buildTokenEventIndex order events).addressToMeta a = none := by
  show ((events.filter isMeta).mergeSort fun a b => decide (a.ledger ≤ b.ledger)).foldl setMeta _ a =
    _
  have hnil : ((events.filter isMeta).mergeSort fun a b => decide (a.ledger ≤ b.ledger)).filter
      (givesUri a) = [] := by
    rw [List.filter_eq_nil_iff]
    intro x hx hgives
    obtain ⟨hx, hmeta⟩ := List.mem_filter.mp ((List.mergeSort_perm ..).mem_iff.mp hx)
    have htoken := (Bool.and_eq_true .. ▸ hgives).1
    rw [List.filter_eq_nil_iff] at hnone
    apply hnone x (hperm.mem_iff.mp hx)
    rw [isMetaOf, hmeta, htoken]
    rfl
  rw [foldl_setMeta, hnil]
  rfl

/-- The latest event at hand is the latest of all. -/
theorem latestUri_of_getLast?
    (hlast : ((events.drop missing).filter (isMetaOf a)).getLast? = some e) :
    latestUri events a = field e "metadataUri" := by
  have hsplit : events.filter (isMetaOf a) =
      (events.take missing).filter (isMetaOf a) ++ (events.drop missing).filter (isMetaOf a) := by
    rw [← List.filter_append, List.take_append_drop]
  rw [latestUri, hsplit, List.getLast?_append, hlast]
  rfl

/-- **The URIs are those of the latest events if and only if** the pages keep the last `meta` event of each
token the last one of its ledger. -/
theorem metadata_iff (hr : Reaches args h w) (stream : EventStream chain order w)
    (hperm : events.Perm (stream.events.drop missing)) :
    ((∀ a uri, (buildTokenEventIndex order events).addressToMeta a = some uri →
        latestUri stream.events a = some uri) ∧
      ∀ a, (∃ e ∈ stream.events.drop missing, isMetaOf a e = true) →
        ((buildTokenEventIndex order events).addressToMeta a).isSome) ↔
      TiesInOrder (stream.events.drop missing) events := by
  constructor
  · -- the last event of the stream must be the one that wins after sorting
    rintro ⟨hmetadata, hfound⟩ a e hlast
    have hmem := List.mem_filter.mp (List.mem_of_getLast? hlast)
    obtain ⟨uri, huri⟩ := Option.isSome_iff_exists.mp (hfound a ⟨e, hmem⟩)
    have hlatest := hmetadata a uri huri
    rw [latestUri_of_getLast? hlast] at hlatest
    rw [← addressToMeta_eq hr stream hperm hlast, huri, hlatest]
  · -- conversely within one ledger the order of arrival decides, and it is the right one
    intro hties
    constructor
    · intro a uri huri
      cases hlast : ((stream.events.drop missing).filter (isMetaOf a)).getLast? with
      | none =>
        rw [addressToMeta_eq_none hperm (List.getLast?_eq_none_iff.mp hlast)] at huri
        cases huri
      | some e =>
        rw [addressToMeta_eq hr stream hperm hlast, hties a e hlast] at huri
        rw [latestUri_of_getLast? hlast, huri]
    · rintro a ⟨x, hx, hmetaOf⟩
      cases hlast : ((stream.events.drop missing).filter (isMetaOf a)).getLast? with
      | none =>
        have hmem : x ∈ (stream.events.drop missing).filter (isMetaOf a) :=
          List.mem_filter.mpr ⟨hx, hmetaOf⟩
        rw [List.getLast?_eq_none_iff.mp hlast] at hmem
        cases hmem
      | some e =>
        rw [addressToMeta_eq hr stream hperm hlast, hties a e hlast]
        obtain ⟨he, hmetaOf⟩ := List.mem_filter.mp (List.mem_of_getLast? hlast)
        have hmeta : isMeta e = true := (Bool.and_eq_true .. ▸ hmetaOf).1
        exact stream.metadataUri_isSome hr (List.mem_of_mem_drop he) hmeta

/-- Pages in the order of the stream do not turn round the events of a ledger. -/
theorem tiesInOrder_of_pages (pages : List (List ContractEvent)) :
    TiesInOrder pages.flatten (pages.flatMap sortedPage) := by
  intro a e hlast
  -- sorting a page by ledger keeps the order of events of one ledger
  have hpage (page : List ContractEvent) :
      (sortedPage page).filter (fun e' => isMetaOf a e' && e'.ledger == e.ledger) =
        page.filter fun e' => isMetaOf a e' && e'.ledger == e.ledger := by
    apply filter_mergeSort
    · intro x y z hxy hyz
      exact decide_eq_true (Nat.le_trans (of_decide_eq_true hyz) (of_decide_eq_true hxy))
    · intro x y
      rw [Bool.or_eq_true, decide_eq_true_eq, decide_eq_true_eq]
      exact Nat.le_total ..
    · intro x y hx hy
      rw [Bool.and_eq_true, beq_iff_eq] at hx hy
      exact decide_eq_true (Nat.le_of_eq (hy.2.trans hx.2.symm))
  have hpages : (pages.flatMap sortedPage).filter
      (fun e' => isMetaOf a e' && e'.ledger == e.ledger) =
      (pages.flatten.filter (isMetaOf a)).filter fun e' => e'.ledger == e.ledger := by
    rw [List.filter_filter, List.filter_flatten, List.filter_flatMap, List.flatMap_def]
    congr 1
    apply List.map_congr_left
    intro page _
    rw [hpage]
    apply List.filter_congr
    intro x _
    exact Bool.and_comm ..
  obtain ⟨init, hinit⟩ := List.getLast?_eq_some_iff.mp hlast
  have hself : [e].filter (fun e' => e'.ledger == e.ledger) = [e] :=
    List.filter_cons_of_pos (beq_self_eq_true _)
  rw [hpages, hinit, List.filter_append, hself, List.getLast?_concat, Option.bind_some]

/-- **Addresses and metadata are right if and only if** no `created` event is missing before those at hand,
and the pages keep the last `meta` event of each token the last one of its ledger. -/
theorem indexCorrect_iff (hr : Reaches args h w) (stream : EventStream chain order w)
    (hcollected : Collected (stream.events.drop missing) events) (env : Env) :
    IndexCorrect chain env w stream.events (stream.events.drop missing)
        (buildTokenEventIndex order events) ↔
      NoneMissing stream.events missing ∧ TiesInOrder (stream.events.drop missing) events := by
  have haddresses := addresses_iff hr stream hcollected.perm env
  have hmetadata := metadata_iff hr stream hcollected.perm
  constructor
  · intro hcorrect
    exact ⟨haddresses.mp hcorrect.addresses, hmetadata.mp ⟨hcorrect.metadata, hcorrect.found⟩⟩
  · rintro ⟨hnone, hties⟩
    obtain ⟨huris, hfound⟩ := hmetadata.mpr hties
    exact ⟨haddresses.mpr hnone, huris, hfound⟩

/-! ### A window without the first token -/

/-- A contract identifier of 32 bytes, and more where they are not enough. -/
def sampleContractId (token : Address) : List UInt8 :=
  (Encoding.digits 256 (32 + token.id / 256 ^ 32) token.id).map Nat.toUInt8

/-- The identifier is read back from its bytes. -/
theorem value_sampleContractId (token : Address) :
    Encoding.value 256 ((sampleContractId token).map UInt8.toNat) = token.id := by
  have hbytes : (sampleContractId token).map UInt8.toNat =
      Encoding.digits 256 (32 + token.id / 256 ^ 32) token.id := by
    rw [sampleContractId, List.map_map]
    refine (List.map_congr_left fun d hd => ?_).trans (List.map_id _)
    exact Nat.mod_eq_of_lt (Encoding.lt_of_mem_digits (by decide) hd)
  have hlt : token.id < 256 ^ (32 + token.id / 256 ^ 32) := by
    calc token.id < 256 ^ 32 * (token.id / 256 ^ 32 + 1) :=
          Nat.lt_mul_div_succ _ (Nat.pow_pos (by decide))
      _ ≤ 256 ^ 32 * 256 ^ (token.id / 256 ^ 32) :=
          Nat.mul_le_mul_left _ (Nat.lt_pow_self (by decide))
      _ = 256 ^ (32 + token.id / 256 ^ 32) := (Nat.pow_add ..).symm
  rw [hbytes, Encoding.value_digits hlt]

/-- Contract addresses of the sample. -/
def sampleChain : ChainText where
  contractId := sampleContractId
  contractId_injective token token' h := by
    have hvalue := value_sampleContractId token
    rw [h, value_sampleContractId] at hvalue
    cases token
    cases token'
    exact congrArg Address.mk hvalue.symm
  contractId_ne_nil token := by
    intro hnil
    have hlength := congrArg List.length hnil
    rw [sampleContractId, List.length_map, Encoding.length_digits, List.length_nil] at hlength
    omega
  text _ := "ipfs://"
  text_ne_empty _ _ := by decide

/-- A comparison that tells no texts apart. -/
def sampleOrder : LocaleOrder where
  le _ _ := true
  total _ _ := rfl
  trans _ _ _ _ _ := rfl

/-- The event, as the `i`-th one, in a ledger of its own. -/
def shown (i : ℕ) (ev : Event) : ContractEvent where
  id := ""
  type := eventType ev
  ledger := i
  timestamp := none
  txHash := ""
  data := match ev with
    | .created token .. => [("tokenAddress", sampleChain.tokenText token)]
    | .metaSet token uri _ =>
      [("tokenAddress", sampleChain.tokenText token), ("metadataUri", sampleChain.text uri)]
    | _ => []

theorem carries_shown (i : ℕ) (ev : Event) : Carries sampleChain ev (shown i ev) where
  type := rfl
  created := by
    rintro token creator name symbol rfl
    rfl
  metaSet := by
    rintro token uri version rfl
    exact ⟨rfl, rfl⟩

/-- The events of a factory, each in a ledger of its own. -/
def sampleStream (w : World) : EventStream sampleChain sampleOrder w where
  events := w.events.mapIdx shown
  carries := by
    rw [List.forall₂_iff_get]
    refine ⟨List.length_mapIdx.symm, fun i h₁ h₂ => ?_⟩
    rw [List.get_eq_getElem, List.get_eq_getElem, List.getElem_mapIdx]
    exact carries_shown i _
  ordered := by
    rw [List.pairwise_iff_getElem]
    intro i j hi hj hlt
    rw [List.getElem_mapIdx, List.getElem_mapIdx]
    have hne : i ≠ j := Nat.ne_of_lt hlt
    exact ⟨Nat.le_of_lt hlt, fun heq => absurd heq hne⟩

/-- The index of the sample run is correct: it is read whole, in one page. -/
theorem indexCorrect_iff_sampleRun :
    Reaches SampleRun.constructorArgs SampleRun.history SampleRun.world₂ ∧
      IndexCorrect sampleChain (permissiveEnv 10 ⟨5⟩) SampleRun.world₂
        (sampleStream SampleRun.world₂).events ((sampleStream SampleRun.world₂).events.drop 0)
        (buildTokenEventIndex sampleOrder
          ([(sampleStream SampleRun.world₂).events.drop 0].flatMap sortedPage)) := by
  refine ⟨SampleRun.reaches, ?_⟩
  have hcollected : Collected ((sampleStream SampleRun.world₂).events.drop 0)
      ([(sampleStream SampleRun.world₂).events.drop 0].flatMap sortedPage) :=
    ⟨⟨_, _, List.flatten_singleton, .refl _, rfl⟩⟩
  refine (indexCorrect_iff SampleRun.reaches (sampleStream _) hcollected _).mpr ⟨.inl nofun, ?_⟩
  have hties := tiesInOrder_of_pages [(sampleStream SampleRun.world₂).events.drop 0]
  rwa [List.flatten_singleton] at hties

/-- Of two tokens the event of the first is missing. -/
theorem not_indexCorrect : ¬ ∀ args h w, Reaches args h w → ∀ chain order
    (stream : EventStream chain order w) missing events env,
    Collected (stream.events.drop missing) events →
    IndexCorrect chain env w stream.events (stream.events.drop missing)
      (buildTokenEventIndex order events) := by
  intro hall
  obtain ⟨h, w, m, hreaches, hw, hgrown⟩ := reaches_created (n := 2) (by decide)
  have hcount : ((sampleStream w).events.filter isCreated).length = 2 := by
    have hmap := congrArg List.length (map_created (sampleStream w).carries)
    rw [List.length_map, List.length_map] at hmap
    obtain ⟨m', hw', htokens⟩ := hreaches.createdTokens
    have hstate : some m'.state = some m.state :=
      (Holds.state? hw').symm.trans (Holds.state? hw)
    have hlength : m'.tokens.length = m.tokens.length :=
      congrArg FactoryState.tokenCount (Option.some.inj hstate)
    rw [hmap, ← World.createdTokens, htokens, List.length_map]
    exact hlength.trans hgrown.length
  -- the window begins after the first of the two events
  obtain ⟨first, second, htwo⟩ := List.length_eq_two.mp hcount
  obtain ⟨l₁, l₂, hsplit, -, hfirst, hrest⟩ := List.filter_eq_cons_iff.mp htwo
  have hdrop : (sampleStream w).events.drop (l₁.length + 1) = l₂ := by
    rw [hsplit, ← List.drop_drop, List.drop_left]
    rfl
  have hread : Collected ((sampleStream w).events.drop (l₁.length + 1)) (sortedPage l₂) := by
    rw [hdrop]
    exact ⟨[l₂], [l₂], List.flatten_singleton, .refl _, (List.flatMap_singleton ..).symm⟩
  have hcorrect := hall _ _ _ hreaches _ _ (sampleStream w) _ _ (permissiveEnv 10 ⟨5⟩) hread
  rcases (addresses_iff hreaches _ hread.perm _).mp hcorrect.addresses with hnone | hnone
  · have hmem : first ∈ (sampleStream w).events.take (l₁.length + 1) := by
      rw [hsplit, List.take_length_add_append]
      exact List.mem_append_right _ List.mem_cons_self
    exact hnone first hmem (of_decide_eq_true hfirst)
  · have hmem : second ∈ l₂.filter isCreated := by
      rw [hrest]
      exact List.mem_singleton.mpr rfl
    obtain ⟨hmem, hsecond⟩ := List.mem_filter.mp hmem
    rw [hdrop] at hnone
    exact hnone second hmem (of_decide_eq_true hsecond)

end StellarForge.Frontend.TokenIndex
