import StellarForge.Collections.Latest
import StellarForge.Factory.Properties.CreatedEvents
import StellarForge.Factory.Properties.Isolation

/-!
# What the events say of the tokens

`Event.Holds m time ev` says that an event published at `time` is true of the abstract factory `m`: a
`created` event has the creator, the name, the symbol and the creation time of the token, and a `meta`
event one of the token's URIs.  `Chronicle events m` says that the events leave nothing out: the tokens that
they create are the tokens of `m`, and the URI that they last set for a token is the one that it has.

* `Step.publishes`: of tokens and metadata, a call announces what it has done, once and in order;
* `AbstractStep.holds_announced`: what a call announces is true after it;
* `FactoryModel.Precedes`: the tokens that there are stay, with their numbers, creators and URIs;
* `Step.holds_events`: **the events of a call are true of the factory after it**;
* `Chronicle.step`: **the events tell all of the tokens**.
-/

namespace StellarForge.Factory

open Soroban Contract Transition Collections FactoryModel

/-- What an event, published at `time`, says of a token is true of the factory. -/
def Event.Holds (m : FactoryModel) (time : ℕ) : Event → Prop
  | .created token creator name symbol => ∃ t, m.tokens.find? token = some t ∧ t.creator = creator ∧
      t.params.name = name ∧ t.params.symbol = symbol ∧ t.createdAt = time
  | .metaSet token uri _ => ∃ t, m.tokens.find? token = some t ∧ uri ∈ t.uris
  | _ => True

/-- The creator whose tokens a call makes. -/
def Call.creatorOf : Call → Option Address
  | .createToken creator _ _ | .createTokensBatch creator _ _ => some creator
  | _ => none

/-- The events of tokens and of metadata that a call publishes, in order. -/
inductive Invocation.Announces (i : Invocation) : List Event → Prop
  | created {creator : Address} (hc : i.call.creatorOf = some creator) :
    Announces i (i.created.map fun q => .created q.1 creator q.2.name q.2.symbol)
  | metaSet {token admin : Address} {uri : Bytes} {feePayment : ℤ} (version : ℕ)
    (hcall : i.call = .setMetadata token admin uri feePayment) :
    Announces i [.metaSet token uri version]
  | silent (hc : i.call.creatorOf = none) (hset : ∀ token, i.setUri token = []) : Announces i []

/-- What a later record of a token has kept. -/
structure Token.Keeps (t t' : Token) : Prop where
  origin : t'.origin = t.origin
  creator : t'.creator = t.creator
  createdAt : t'.createdAt = t.createdAt
  uris : t.uris ⊆ t'.uris

/-- Every token of `m` is one of `m'`, under the same number. -/
structure FactoryModel.Precedes (m m' : FactoryModel) : Prop where
  find? : ∀ {a : Address} {t : Token}, m.tokens.find? a = some t →
    ∃ t', m'.tokens.find? a = some t' ∧ t.Keeps t'
  index? : ∀ {a : Address} {i : ℕ}, m.tokens.index? a = some i → m'.tokens.index? a = some i

/-- Events have been appended, and those that are not minor are `l`. -/
def Publishes (l : List Event) (w w' : World) : Prop :=
  ∃ new, w'.events = w.events ++ new ∧ new.filter (fun ev => !ev.isMinor) = l

/-- The URI that an event sets for the token. -/
def Event.uriFor (a : Address) : Event → Option Bytes
  | .metaSet token uri _ => if token = a then some uri else none
  | _ => none

/-- The events tell of every token of `m`, and of the URI that it has. -/
structure Chronicle (events : List Event) (m : FactoryModel) : Prop where
  created : ∀ a, a ∈ events.filterMap Event.createdToken ↔ (m.tokens.find? a).isSome
  uri : ∀ a, lastValue (Event.uriFor a) events = (m.tokens.find? a).bind fun t => t.uris.head?
  /-- Metadata is told of after the creation only. -/
  order : ∀ n a, lastValue (Event.uriFor a) (events.take n) ≠ none →
    a ∈ (events.take n).filterMap Event.createdToken

variable {env : Env} {w w' w₁ : World} {m m' : FactoryModel} {i : Invocation} {l l' events : List Event}
  {ev : Event} {k : DataKey} {st : FactoryState} {token creator : Address} {p : BatchTokenParams}
  {ps : List BatchTokenParams} {uri : Bytes} {time : ℕ} {t : Token} {a : Address}

/-! ### The events of a call -/

theorem Publishes.of_events (h : w'.events = w.events) : Publishes [] w w' :=
  ⟨[], by rw [h, List.append_nil], rfl⟩

theorem Publishes.trans (h : Publishes l w w₁) (h' : Publishes l' w₁ w') : Publishes (l ++ l') w w' := by
  obtain ⟨new, hevents, hnew⟩ := h
  obtain ⟨new', hevents', hnew'⟩ := h'
  refine ⟨new ++ new', ?_, ?_⟩
  · rw [hevents', hevents, List.append_assoc]
  · rw [List.filter_append, hnew, hnew']

/-- What is published otherwise is minor. -/
theorem Publishes.exists_minor (h : Publishes [] w w') :
    ∃ new, w'.events = w.events ++ new ∧ ∀ ev ∈ new, ev.isMinor = true := by
  obtain ⟨new, hevents, hnew⟩ := h
  refine ⟨new, hevents, fun ev hev => ?_⟩
  cases hminor : ev.isMinor with
  | true => rfl
  | false =>
    have hmem : ev ∈ new.filter fun ev => !ev.isMinor := List.mem_filter.mpr ⟨hev, by rw [hminor]; rfl⟩
    rw [hnew] at hmem
    cases hmem

theorem publishes_of_minor (h : ev.isMinor = true) : Publishes [] w (w.publish ev) :=
  ⟨[ev], rfl, by rw [List.filter_singleton, h]; rfl⟩

theorem publishes_publish (h : ev.isMinor = false) : Publishes [ev] w (w.publish ev) :=
  ⟨[ev], rfl, by rw [List.filter_singleton, h]; rfl⟩

instance : Std.Refl (Publishes []) := ⟨fun _ => .of_events rfl⟩

instance : IsTrans World (Publishes []) := ⟨fun _ _ _ h h' => h.trans h'⟩

instance : MinorFrame (Publishes []) where
  publish _ hev := publishes_of_minor hev
  addContract _ _ := .of_events rfl
  extendTtl _ _ := .of_events rfl
  extendInstTtl _ := .of_events rfl
  migrateAddrKeyed _ _ _ := by
    apply Publishes.of_events
    unfold World.migrateAddrKeyed
    split
    · rfl
    · split <;> rfl

instance : MayWrite (Publishes []) k where
  setPersistent _ _ := .of_events rfl
  removePersistent := .of_events rfl
  setInst _ := .of_events rfl
  removeInst := .of_events rfl

instance : ListFrame (Publishes []) :=
  ⟨fun _ _ => inferInstance, fun _ => inferInstance, fun _ => inferInstance⟩

instance : TokenFrame (Publishes []) := ⟨fun _ => inferInstance, fun _ => inferInstance⟩

instance : EntryFrame (Publishes []) where
  tokenAddress _ := inferInstance
  metadata _ := inferInstance
  metadataVersion _ := inferInstance
  metadataFrozen _ := inferInstance
  owner _ := inferInstance
  supply _ := inferInstance
  backfilled _ := inferInstance
  whitelist _ := inferInstance
  split := inferInstance

/-- Contracts that are called publish events of their own. -/
instance {c : ExtCall} : MayCall (fun _ => True) (Publishes []) c where
  tryCall := by
    refine ⟨fun _ h => ?_⟩
    unfold tryCall at h
    split at h <;>
    · obtain ⟨-, rfl⟩ := Prod.mk.inj (Option.some.inj h)
      exact .of_events rfl

instance : PaymentFrame (fun _ => True) (Publishes []) := ⟨fun _ _ _ _ => inferInstance⟩

instance : CreationFrame (fun _ => True) (Publishes []) :=
  ⟨fun _ _ _ => inferInstance, fun _ _ _ _ _ => inferInstance, fun _ _ _ => inferInstance⟩

instance : BurnFrame (fun _ => True) (Publishes []) :=
  ⟨fun _ _ => inferInstance, fun _ _ _ => inferInstance⟩

instance {token admin : Address} {enabled : Bool} :
    Moves (Publishes []) (setBurnEnabled token admin enabled) := by
  unfold setBurnEnabled
  iterate 8 refine .andThen inferInstance fun _ => ?_
  infer_instance

theorem Publishes.of_returns {α : Type} {x : ContractM α} {a : α}
    [MovesIn (fun _ => True) (Publishes []) x] (h : x.Returns env w a w') : Publishes [] w w' :=
  h.relIn (E := fun _ => True) trivial

/-- The record of a creation. -/
theorem publishes_recordToken {r : Address × FactoryState}
    (h : (recordToken creator p st).Returns env w r w') :
    Publishes [.created r.1 creator p.name p.symbol] w w' := by
  simp only [recordToken, returns_bind, returns_publish, returns_pure] at h
  obtain ⟨a, w₁, hdeploy, _, w₂, hinit, _, w₃, hmint, _, w₄, hseed, _, w₅, hindex, _, w₆, henv, _, w₇,
    hregister, _, _, rfl, rfl, rfl⟩ := h
  have hsilent : Publishes [] w w₇ := by
    calc Publishes [] w w₁ := .of_returns hdeploy
      Publishes [] _ w₂ := .of_returns hinit
      Publishes [] _ w₃ := .of_returns hmint
      Publishes [] _ w₄ := .of_returns hseed
      Publishes [] _ w₅ := .of_returns hindex
      Publishes [] _ w₆ := .of_returns henv
      Publishes [] _ w₇ := .of_returns hregister
  exact hsilent.trans (publishes_publish rfl)

/-- The records of the creations of a batch. -/
theorem publishes_recordTokens {addresses : List Address} {r : List Address × FactoryState}
    (h : (recordTokens creator ps addresses st).Returns env w r w') :
    ∃ new, r.1 = addresses ++ new ∧ Publishes ((new.zip ps).map fun q =>
      .created q.1 creator q.2.name q.2.symbol) w w' := by
  induction ps generalizing addresses st w with
  | nil =>
    simp only [recordTokens, returns_pure] at h
    obtain ⟨rfl, rfl⟩ := h
    exact ⟨[], (List.append_nil _).symm, .of_events rfl⟩
  | cons p ps ih =>
    simp only [recordTokens, returns_bind] at h
    obtain ⟨recorded, w₁, hrecord, hrest⟩ := h
    obtain ⟨new, hnew, hpublishes⟩ := ih hrest
    refine ⟨recorded.1 :: new, ?_, (publishes_recordToken hrecord).trans hpublishes⟩
    rw [hnew, List.append_assoc, List.singleton_append]

theorem publishes_createToken {feePayment : ℤ} {a : Address}
    (h : (createToken creator p feePayment).Returns env w a w') :
    Publishes [.created a creator p.name p.symbol] w w' := by
  obtain ⟨st, s, w₁, w₂, -, -, -, hpaid, hrecord, rfl⟩ := returns_createToken h
  have hbefore : Publishes [] w w₁ := by
    calc Publishes [] w (w.saveState env { st with locked := true }) := .of_events rfl
      Publishes [] _ w₁ := .of_returns hpaid
  have hafter : Publishes [] w₂ (w₂.saveState env { s with locked := false }) := .of_events rfl
  exact (hbefore.trans (publishes_recordToken hrecord)).trans hafter

/-- A batch publishes a record for each of its tokens. -/
theorem publishes_createTokensBatch {feePayment : ℤ} {as : List Address}
    (h : (createTokensBatch creator ps feePayment).Returns env w as w') :
    Publishes ((as.zip ps).map fun q => .created q.1 creator q.2.name q.2.symbol) w w' := by
  obtain ⟨st, s, w₁, w₂, fee, -, -, -, -, -, -, -, -, hrecords, hpaid, rfl⟩ :=
    returns_createTokensBatch h
  obtain ⟨new, hnew, hpublishes⟩ := publishes_recordTokens hrecords
  obtain rfl : as = new := hnew
  have hbefore : Publishes [] w (w.saveState env { st with locked := true }) := .of_events rfl
  have hafter : Publishes [] w₁ (w₂.saveState env { s with locked := false }) := by
    calc Publishes [] w₁ w₂ := .of_returns hpaid
      Publishes [] _ _ := .of_events rfl
  have hall := (hbefore.trans hpublishes).trans hafter
  rwa [List.nil_append, List.append_nil] at hall

/-- An update of the metadata publishes the URI and its version. -/
theorem publishes_setMetadata {admin : Address} {feePayment : ℤ} {u : Unit}
    (h : (setMetadata token admin uri feePayment).Returns env w u w') :
    ∃ version, Publishes [.metaSet token uri version] w w' := by
  simp only [setMetadata, returns_bind, returns_requireNotPaused, returns_requireAuth,
    returns_loadUnlockedState, returns_throwIf, returns_validateMetadataUri_iff, returns_setLocked,
    returns_setPersistent, returns_publish] at h
  obtain ⟨_, _, ⟨-, rfl⟩, _, _, ⟨-, rfl⟩, st, _, ⟨-, -, rfl⟩, _, _, ⟨-, rfl⟩, _, _, ⟨-, rfl⟩,
    h⟩ := h
  obtain ⟨_, w₁, hcreator, _, _, ⟨-, rfl⟩, _, w₂, hfrozen, _, _, ⟨-, rfl⟩, _, w₃, hversion, h⟩ := h
  obtain ⟨_, _, ⟨-, rfl⟩, _, _, ⟨rfl, rfl⟩, _, w₄, hpaid, n, w₅, hnext, h⟩ := h
  obtain ⟨_, _, rfl, _, _, rfl, _, _, ⟨-, rfl⟩, rfl⟩ := h
  have hsilent : Publishes [] w w₅ := by
    calc Publishes [] w w₁ := .of_returns hcreator
      Publishes [] _ w₂ := .of_returns hfrozen
      Publishes [] _ w₃ := .of_returns hversion
      Publishes [] _ (w₃.saveState env { st with locked := true }) := .of_events rfl
      Publishes [] _ w₄ := .of_returns hpaid
      Publishes [] _ w₅ := .of_returns hnext
  exact ⟨_, (hsilent.trans (.of_events rfl)).trans (publishes_publish rfl)⟩

/-- **A call announces what it has done**, once and in order. -/
theorem Step.publishes (hs : Step w i w') : ∃ l, i.Announces l ∧ Publishes l w w' := by
  obtain ⟨env, call, ret⟩ := i
  obtain ⟨-, hexec⟩ := hs
  cases call with
  | createToken creator p feePayment =>
    obtain ⟨a, ha, rfl⟩ := returns_wrap.mp hexec
    exact ⟨_, .created rfl, publishes_createToken ha⟩
  | createTokensBatch creator ps feePayment =>
    obtain ⟨as, has, rfl⟩ := returns_wrap.mp hexec
    exact ⟨_, .created rfl, publishes_createTokensBatch has⟩
  | setMetadata token admin uri feePayment =>
    obtain ⟨_, hset, -⟩ := returns_wrap.mp hexec
    obtain ⟨version, hpublishes⟩ := publishes_setMetadata hset
    exact ⟨_, .metaSet version rfl, hpublishes⟩
  | view v => exact ⟨[], .silent rfl fun _ => rfl, .of_returns (x := v.exec) hexec⟩
  | _ =>
    obtain ⟨_, hcall, -⟩ := returns_wrap.mp hexec
    exact ⟨[], .silent rfl fun _ => rfl, .of_returns hcall⟩

/-! ### What has been announced is true -/

/-- The record of a created token. -/
theorem FactoryModel.find?_create {a : Address} (h : m.create env creator p a = some m') :
    ∃ t, m'.tokens.find? a = some t ∧ t.creator = creator ∧ t.params = p ∧
      t.createdAt = env.timestamp := by
  obtain ⟨hp, hfree, rfl⟩ := create_eq_some h
  let t := Token.new env creator p hp a m.tokenWasmHash
  have hfree' : m.tokens.find? t.address = none := hfree
  refine ⟨t, ?_, rfl, rfl, rfl⟩
  change (m.tokens.push t hfree').find? a = some t
  rw [Keyed.find?_push]
  exact if_pos rfl

/-- A batch leaves the records alone that it finds. -/
theorem FactoryModel.find?_createAll_of_some {as : List Address} {a : Address}
    (h : m.createAll env creator ps as = some m') (ht : m.tokens.find? a = some t) :
    m'.tokens.find? a = some t := by
  have hfate : Token.Fate env m a (.createTokensBatch creator ps 0) (m.tokens.find? a)
      (m'.tokens.find? a) := .createAll rfl h
  rw [ht] at hfate
  generalize m'.tokens.find? a = o at hfate ⊢
  cases hfate with
  | same => rfl
  | updated hupdate => cases hupdate

/-- The records of the tokens of a batch. -/
theorem FactoryModel.find?_createAll {as : List Address} {a : Address}
    (h : m.createAll env creator ps as = some m') (hq : (a, p) ∈ as.zip ps) :
    ∃ t, m'.tokens.find? a = some t ∧ t.creator = creator ∧ t.params = p ∧
      t.createdAt = env.timestamp := by
  induction ps generalizing m as with
  | nil => simp at hq
  | cons p' ps ih =>
    rcases as with _ | ⟨a', as⟩
    · simp at hq
    · rw [createAll, Option.bind_eq_some_iff] at h
      obtain ⟨m₁, hm₁, hrest⟩ := h
      rw [List.zip_cons_cons, List.mem_cons] at hq
      rcases hq with heq | hq
      · obtain ⟨rfl, rfl⟩ := Prod.mk.inj heq
        obtain ⟨t, ht, hfields⟩ := find?_create hm₁
        exact ⟨t, find?_createAll_of_some hrest ht, hfields⟩
      · exact ih hrest hq

/-- The record of a token that a call has created. -/
theorem AbstractStep.find?_created (h : AbstractStep m i m') (hc : i.call.creatorOf = some creator)
    (hp : (token, p) ∈ i.created) : ∃ t, m'.tokens.find? token = some t ∧ t.creator = creator ∧
      t.params = p ∧ t.createdAt = i.env.timestamp := by
  obtain ⟨env, call, ret⟩ := i
  unfold AbstractStep at h
  cases h with
  | createToken hmay hm =>
    obtain rfl := Option.some.inj hc
    obtain ⟨rfl, rfl⟩ := Prod.mk.inj (List.mem_singleton.mp hp)
    exact find?_create hm
  | createTokensBatch hmay hm =>
    obtain rfl := Option.some.inj hc
    exact find?_createAll hm hp
  | _ => cases hc

/-- The URI that a call has set is one of the token's. -/
theorem AbstractStep.mem_uris {admin : Address} {feePayment : ℤ} (h : AbstractStep m i m')
    (hcall : i.call = .setMetadata token admin uri feePayment) :
    ∃ t, m'.tokens.find? token = some t ∧ uri ∈ t.uris := by
  have hfate := AbstractStep.fate h token
  have hedits : i.call.edits = some token := by rw [hcall]; rfl
  generalize m.tokens.find? token = o at hfate
  generalize m'.tokens.find? token = o' at hfate ⊢
  cases hfate with
  | same hother => exact absurd hedits hother
  | created hother => exact absurd hedits hother
  | @updated t t' hupdate =>
    have huris : t'.uris = i.setUri token ++ t.uris := hupdate.metadata.1
    have hset : i.setUri token = [uri] := by
      rw [Invocation.setUri, hcall]
      exact if_pos rfl
    refine ⟨t', rfl, ?_⟩
    rw [huris, hset]
    exact List.mem_append_left _ (List.mem_singleton_self _)

/-- A minor event says nothing of a token. -/
theorem Event.holds_of_isMinor (h : ev.isMinor = true) : ev.Holds m time := by
  cases ev with
  | created => cases h
  | metaSet => cases h
  | _ => trivial

/-- **What a call announces is true after it.** -/
theorem AbstractStep.holds_announced (h : AbstractStep m i m') (hl : i.Announces l) (hev : ev ∈ l) :
    ev.Holds m' i.env.timestamp := by
  cases hl with
  | created hc =>
    obtain ⟨⟨a, p⟩, hp, rfl⟩ := List.mem_map.mp hev
    obtain ⟨t, ht, hcreator, rfl, hcreatedAt⟩ := h.find?_created hc hp
    exact ⟨t, ht, hcreator, rfl, rfl, hcreatedAt⟩
  | metaSet version hcall =>
    obtain rfl := List.mem_singleton.mp hev
    exact h.mem_uris hcall
  | silent => cases hev

/-! ### What stays true -/

theorem Token.Keeps.params {t' : Token} (h : t.Keeps t') : t'.params = t.params :=
  congrArg Prod.snd h.origin

theorem Token.Keeps.address {t' : Token} (h : t.Keeps t') : t'.address = t.address :=
  congrArg Prod.fst h.origin

theorem Token.Keeps.refl (t : Token) : t.Keeps t := ⟨rfl, rfl, rfl, List.Subset.refl _⟩

theorem Token.Keeps.trans {t' t'' : Token} (h : t.Keeps t') (h' : t'.Keeps t'') : t.Keeps t'' where
  origin := h'.origin.trans h.origin
  creator := h'.creator.trans h.creator
  createdAt := h'.createdAt.trans h.createdAt
  uris := List.Subset.trans h.uris h'.uris

theorem FactoryModel.Precedes.refl (m : FactoryModel) : m.Precedes m where
  find? {_ t} ht := ⟨t, ht, .refl t⟩
  index? hi := hi

theorem FactoryModel.Precedes.trans {m'' : FactoryModel} (h : m.Precedes m') (h' : m'.Precedes m'') :
    m.Precedes m'' where
  find? ht := by
    obtain ⟨t₁, ht₁, hkeeps⟩ := h.find? ht
    obtain ⟨t₂, ht₂, hkeeps'⟩ := h'.find? ht₁
    exact ⟨t₂, ht₂, hkeeps.trans hkeeps'⟩
  index? hi := h'.index? (h.index? hi)

/-- The token of a number keeps it. -/
theorem FactoryModel.Precedes.at? {n : ℕ} (h : m.Precedes m') (ht : m.tokens.at? n = some t) :
    ∃ t', m'.tokens.at? n = some t' ∧ t.Keeps t' := by
  have hindex : m.tokens.index? t.address = some n := Keyed.index?_eq_some.mpr ⟨t, ht, rfl⟩
  have hfind : m.tokens.find? t.address = some t := Keyed.find?_eq_some_iff_at?.mpr ⟨n, ht, rfl⟩
  obtain ⟨t', ht', hkeeps⟩ := h.find? hfind
  exact ⟨t', Keyed.at?_of_index? (h.index? hindex) ht', hkeeps⟩

/-- A call keeps every token. -/
theorem AbstractStep.precedes (h : AbstractStep m i m') : m.Precedes m' where
  find? {a t} ht := by
    have hfate := AbstractStep.fate h a
    rw [ht] at hfate
    generalize m'.tokens.find? a = o' at hfate ⊢
    cases hfate with
    | same => exact ⟨t, rfl, .refl t⟩
    | @updated _ t' hupdate =>
      obtain ⟨horigin, hcreator, hcreatedAt⟩ := hupdate.evolves
      have huris : t'.uris = i.setUri a ++ t.uris := hupdate.metadata.1
      refine ⟨t', rfl, horigin, hcreator, hcreatedAt, ?_⟩
      rw [huris]
      exact List.subset_append_right _ _
  index? {a n} hn := by
    have hsome : (m.tokens.find? a).isSome := by
      rw [← Keyed.isSome_index?, hn]
      rfl
    obtain ⟨t, ht⟩ := Option.isSome_iff_exists.mp hsome
    rw [index?_of_run (.snoc .nil h) ht, hn]

/-- **What is true of the tokens stays true.** -/
theorem FactoryModel.Precedes.holds (h : m.Precedes m') (hev : ev.Holds m time) :
    ev.Holds m' time := by
  cases ev with
  | created token creator name symbol =>
    obtain ⟨t, ht, rfl, rfl, rfl, rfl⟩ := hev
    obtain ⟨t', ht', hkeeps⟩ := h.find? ht
    exact ⟨t', ht', hkeeps.creator, by rw [hkeeps.params], by rw [hkeeps.params], hkeeps.createdAt⟩
  | metaSet token uri version =>
    obtain ⟨t, ht, huri⟩ := hev
    obtain ⟨t', ht', hkeeps⟩ := h.find? ht
    exact ⟨t', ht', hkeeps.uris huri⟩
  | _ => trivial

/-- **The events of a call are true of the factory after it.** -/
theorem Step.holds_events (hs : Step w i w') (h : AbstractStep m i m') :
    ∃ new, w'.events = w.events ++ new ∧ ∀ ev ∈ new, ev.Holds m' i.env.timestamp := by
  obtain ⟨l, hl, new, hevents, rfl⟩ := hs.publishes
  refine ⟨new, hevents, fun ev hev => ?_⟩
  cases hminor : ev.isMinor with
  | true => exact Event.holds_of_isMinor hminor
  | false => exact h.holds_announced hl (List.mem_filter.mpr ⟨hev, by rw [hminor]; rfl⟩)

/-! ### The events tell all -/

theorem uriFor_of_isMinor (h : ev.isMinor = true) : ev.uriFor a = none := by
  cases ev with
  | metaSet => cases h
  | _ => rfl

theorem createdToken_of_isMinor (h : ev.isMinor = true) : ev.createdToken = none := by
  cases ev with
  | created => cases h
  | _ => rfl

/-- Minor events may be left out. -/
theorem lastValue_uriFor {new : List Event} :
    lastValue (Event.uriFor a) (new.filter fun ev => !ev.isMinor) = lastValue (Event.uriFor a) new :=
  lastValue_filter fun ev _ hev => uriFor_of_isMinor (by simpa using hev)

theorem createdTokens_filter {new : List Event} :
    (new.filter fun ev => !ev.isMinor).filterMap Event.createdToken =
      new.filterMap Event.createdToken := by
  rw [List.filterMap_filter]
  apply List.filterMap_congr
  intro ev _
  cases hminor : ev.isMinor with
  | true => exact (createdToken_of_isMinor hminor).symm
  | false => rfl

/-- Only the calls that have a creator make tokens. -/
theorem Invocation.created_of_creatorOf (h : i.call.creatorOf = none) : i.created = [] := by
  obtain ⟨env, call, ret⟩ := i
  cases call with
  | createToken => cases h
  | createTokensBatch => cases h
  | _ => rfl

/-- The tokens that a call announces are those that it has created. -/
theorem Invocation.Announces.createdTokens (h : i.Announces l) :
    l.filterMap Event.createdToken = i.created.map Prod.fst := by
  cases h with
  | created hc =>
    rw [List.filterMap_map, ← List.filterMap_eq_map]
    rfl
  | metaSet version hcall =>
    have hcreated : i.created = [] := Invocation.created_of_creatorOf (by rw [hcall]; rfl)
    rw [hcreated]
    rfl
  | silent hc =>
    rw [Invocation.created_of_creatorOf hc]
    rfl

/-- The URIs that a call announces are those that it has set. -/
theorem Invocation.Announces.lastValue_uriFor (h : i.Announces l) (a : Address) :
    lastValue (Event.uriFor a) l = (i.setUri a).head? := by
  cases h with
  | created hc =>
    have hset : i.setUri a = [] := by
      obtain ⟨env, call, ret⟩ := i
      cases call with
      | setMetadata => cases hc
      | _ => rfl
    rw [hset, List.head?_nil, lastValue_eq_none]
    intro ev hev
    obtain ⟨q, -, rfl⟩ := List.mem_map.mp hev
    rfl
  | @metaSet token admin uri feePayment version hcall =>
    rw [Invocation.setUri, hcall]
    by_cases ha : token = a
    · simp [lastValue, Event.uriFor, ha]
    · simp [lastValue, Event.uriFor, ha]
  | silent hc hset => rw [hset a, List.head?_nil, lastValue_nil]

theorem isSome_find?_iff : (m.tokens.find? a).isSome ↔ a ∈ m.tokens.records.map Token.address := by
  rw [Option.isSome_iff_exists, List.mem_map]
  constructor
  · rintro ⟨t, ht⟩
    exact ⟨t, Keyed.find?_eq_some.mp ht⟩
  · rintro ⟨t, ht, hkey⟩
    exact ⟨t, Keyed.find?_eq_some.mpr ⟨ht, hkey⟩⟩

/-- A call registers the tokens that it has created. -/
theorem AbstractStep.isSome_find?_iff (h : AbstractStep m i m') :
    (m'.tokens.find? a).isSome ↔ (m.tokens.find? a).isSome ∨ a ∈ i.created.map Prod.fst := by
  have haddresses : m'.tokens.records.map Token.address =
      m.tokens.records.map Token.address ++ i.created.map Prod.fst := by
    have horigins := congrArg (List.map Prod.fst) h.origins
    rwa [List.map_append, List.map_map, List.map_map] at horigins
  rw [Factory.isSome_find?_iff, Factory.isSome_find?_iff, haddresses, List.mem_append]

/-- A call sets the URI that a token has after it, or leaves it. -/
theorem AbstractStep.head?_uris (h : AbstractStep m i m') (a : Address) :
    ((m'.tokens.find? a).bind fun t => t.uris.head?) =
      (i.setUri a).head?.or ((m.tokens.find? a).bind fun t => t.uris.head?) := by
  have hfate := AbstractStep.fate h a
  -- any other call sets no URI of this token
  have hother (hcall : i.call.edits ≠ some a) : i.setUri a = [] := by
    obtain ⟨env, call, ret⟩ := i
    cases call with
    | setMetadata token admin uri feePayment => exact if_neg fun ha => hcall (congrArg some ha)
    | _ => rfl
  generalize m.tokens.find? a = o at hfate ⊢
  generalize m'.tokens.find? a = o' at hfate ⊢
  cases hfate with
  | same hcall =>
    rw [hother hcall]
    rfl
  | created hcall huris =>
    rw [hother hcall]
    show List.head? _ = none
    rw [huris]
    rfl
  | @updated t t' hupdate =>
    have huris : t'.uris = i.setUri a ++ t.uris := hupdate.metadata.1
    show t'.uris.head? = (i.setUri a).head?.or t.uris.head?
    rw [huris, List.head?_append]

/-- Only a registered token has its metadata set. -/
theorem AbstractStep.isSome_of_setUri (h : AbstractStep m i m') (hset : i.setUri a ≠ []) :
    (m.tokens.find? a).isSome := by
  have hfate := AbstractStep.fate h a
  have hedits : i.call.edits = some a := by
    obtain ⟨env, call, ret⟩ := i
    cases call with
    | setMetadata token admin uri feePayment =>
      by_cases ha : token = a
      · exact congrArg some ha
      · exact absurd (if_neg ha) hset
    | _ => exact absurd rfl hset
  generalize m.tokens.find? a = o at hfate ⊢
  generalize m'.tokens.find? a = o' at hfate
  cases hfate with
  | same hother => exact absurd hedits hother
  | created hother => exact absurd hedits hother
  | updated => rfl

/-- The constructor makes no tokens. -/
theorem Constructed.chronicle {args : ConstructorArgs} (hc : Constructed env args w) :
    Chronicle w.events args.initialModel := by
  have hmoves : Moves (Publishes []) (factoryConstructor args) := by
    unfold factoryConstructor
    iterate 7 refine .andThen inferInstance fun _ => ?_
    infer_instance
  obtain ⟨new, hevents, hminor⟩ := (hmoves.rel hc).exists_minor
  have hnew : w.events = new := hevents
  have hnone (a : Address) : lastValue (Event.uriFor a) w.events = none := by
    rw [hnew, lastValue_eq_none]
    exact fun ev hev => uriFor_of_isMinor (hminor ev hev)
  refine ⟨fun a => ?_, fun a => hnone a, fun n a hn => absurd ?_ hn⟩
  · have hcreated : w.events.filterMap Event.createdToken = [] := by
      rw [hnew, List.filterMap_eq_nil_iff]
      exact fun ev hev => createdToken_of_isMinor (hminor ev hev)
    rw [hcreated]
    exact iff_of_false List.not_mem_nil Bool.false_ne_true
  · have hall := lastValue_eq_none.mp (hnone a)
    exact lastValue_eq_none.mpr fun ev hev => hall ev (List.mem_of_mem_take hev)

/-- **The events tell all of the tokens.** -/
theorem Chronicle.step (hc : Chronicle w.events m) (hs : Step w i w') (h : AbstractStep m i m') :
    Chronicle w'.events m' := by
  obtain ⟨l, hl, new, hevents, hmajor⟩ := hs.publishes
  have hcreated : new.filterMap Event.createdToken = i.created.map Prod.fst := by
    rw [← createdTokens_filter, hmajor, hl.createdTokens]
  have huri (a : Address) : lastValue (Event.uriFor a) new = (i.setUri a).head? := by
    rw [← lastValue_uriFor, hmajor, hl.lastValue_uriFor]
  rw [hevents]
  refine ⟨fun a => ?_, fun a => ?_, fun n a hn => ?_⟩
  · rw [List.filterMap_append, List.mem_append, hc.created, hcreated, h.isSome_find?_iff]
  · rw [lastValue_append, huri, hc.uri, h.head?_uris]
  · by_cases hle : n ≤ w.events.length
    · rw [List.take_append_of_le_length hle] at hn ⊢
      exact hc.order n a hn
    · -- all of the earlier events are among the first `n`
      have hsplit : (w.events ++ new).take n = w.events ++ new.take (n - w.events.length) := by
        rw [List.take_append, List.take_of_length_le (by omega)]
      rw [hsplit] at hn ⊢
      rw [List.filterMap_append]
      refine List.mem_append_left _ ((hc.created a).mpr ?_)
      by_cases hnone : i.setUri a = []
      · -- then the URI was set before
        have hlast : lastValue (Event.uriFor a) (new.take (n - w.events.length)) = none := by
          have hnew := huri a
          rw [hnone, List.head?_nil, lastValue_eq_none] at hnew
          exact lastValue_eq_none.mpr fun ev hev => hnew ev (List.mem_of_mem_take hev)
        rw [lastValue_append, hlast, Option.none_or, hc.uri] at hn
        obtain ⟨uri, huri⟩ := Option.ne_none_iff_exists'.mp hn
        obtain ⟨t, ht, -⟩ := Option.bind_eq_some_iff.mp huri
        rw [ht]
        rfl
      · exact h.isSome_of_setUri hnone

end StellarForge.Factory
