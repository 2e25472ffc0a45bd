import StellarForge.Factory.Properties.Creation
import StellarForge.Factory.Properties.Metadata

/-!
# What the events tell of the tokens

* `createdTokens_eq`: in every reachable state the `created` events name the tokens that the calls have
  created, in that order;
* `validUri_of_metadataUris`: the `meta` events carry valid URIs only.
-/

namespace StellarForge.Factory

open Soroban Contract Transition

/-- The token of a `created` event. -/
def Event.createdToken : Event → Option Address
  | .created token _ _ _ => some token
  | _ => none

/-- The URI of a `meta` event. -/
def Event.metadataUri : Event → Option Bytes
  | .metaSet _ uri _ => some uri
  | _ => none

/-- The tokens of the `created` events, oldest first. -/
def World.createdTokens (w : World) : List Address := w.events.filterMap Event.createdToken

/-- The URIs of the metadata events, in their order. -/
def World.metadataUris (w : World) : List Bytes := w.events.filterMap Event.metadataUri

/-- Neither a token nor a URI has been published. -/
structure SameRecords (w w' : World) : Prop where
  createdTokens : w'.createdTokens = w.createdTokens
  metadataUris : w'.metadataUris = w.metadataUris

variable {args : ConstructorArgs} {h : List Invocation} {i : Invocation} {w w' w₁ : World} {env : Env}
  {ev : Event} {token creator : Address} {k : DataKey} {E : Env → Prop} {st : FactoryState}
  {p : BatchTokenParams} {ps : List BatchTokenParams} {uri : Bytes}

/-! ### One event -/

theorem createdTokens_publish :
    (w.publish ev).createdTokens = w.createdTokens ++ ev.createdToken.toList := by
  show (w.events ++ [ev]).filterMap Event.createdToken = _
  rw [List.filterMap_append, World.createdTokens, List.filterMap_cons]
  cases ev.createdToken <;> rfl

theorem metadataUris_publish :
    (w.publish ev).metadataUris = w.metadataUris ++ ev.metadataUri.toList := by
  show (w.events ++ [ev]).filterMap Event.metadataUri = _
  rw [List.filterMap_append, World.metadataUris, List.filterMap_cons]
  cases ev.metadataUri <;> rfl

theorem SameRecords.of_events (h : w'.events = w.events) : SameRecords w w' := by
  constructor
  · rw [World.createdTokens, h, World.createdTokens]
  · rw [World.metadataUris, h, World.metadataUris]

/-! ### Parts that publish minor events -/

instance : Std.Refl SameRecords := ⟨fun _ => ⟨rfl, rfl⟩⟩

instance : IsTrans World SameRecords where
  trans _ _ _ h h' :=
    ⟨h'.createdTokens.trans h.createdTokens, h'.metadataUris.trans h.metadataUris⟩

instance : MinorFrame SameRecords where
  publish ev hev := by
    constructor
    · rw [createdTokens_publish]
      -- the two kinds that carry records are not minor
      cases ev with
      | created => cases hev
      | _ => exact List.append_nil _
    · rw [metadataUris_publish]
      cases ev with
      | metaSet => cases hev
      | _ => exact List.append_nil _
  addContract _ _ := .of_events rfl
  extendTtl _ _ := .of_events rfl
  extendInstTtl _ := .of_events rfl
  migrateAddrKeyed _ _ _ := by
    unfold World.migrateAddrKeyed
    split
    · exact .of_events rfl
    · split
      · exact .of_events rfl
      · exact .of_events rfl

instance : MayWrite SameRecords k where
  setPersistent _ _ := .of_events rfl
  removePersistent := .of_events rfl
  setInst _ := .of_events rfl
  removeInst := .of_events rfl

instance : ListFrame SameRecords :=
  ⟨fun _ _ => inferInstance, fun _ => inferInstance, fun _ => inferInstance⟩

instance : TokenFrame SameRecords := ⟨fun _ => inferInstance, fun _ => inferInstance⟩

instance : EntryFrame SameRecords where
  tokenAddress _ := inferInstance
  metadata _ := inferInstance
  metadataVersion _ := inferInstance
  metadataFrozen _ := inferInstance
  owner _ := inferInstance
  supply _ := inferInstance
  backfilled _ := inferInstance
  whitelist _ := inferInstance
  split := inferInstance

/-- The factory's events are its own. -/
instance {c : ExtCall} : MayCall (fun _ => True) SameRecords c where
  tryCall := by
    refine ⟨fun _ h => ?_⟩
    unfold tryCall at h
    split at h <;>
    · obtain ⟨-, rfl⟩ := Prod.mk.inj (Option.some.inj h)
      exact .of_events rfl

instance : PaymentFrame (fun _ => True) SameRecords := ⟨fun _ _ _ _ => inferInstance⟩

instance : CreationFrame (fun _ => True) SameRecords :=
  ⟨fun _ _ _ => inferInstance, fun _ _ _ _ _ => inferInstance, fun _ _ _ => inferInstance⟩

instance : BurnFrame (fun _ => True) SameRecords :=
  ⟨fun _ _ => inferInstance, fun _ _ _ => inferInstance⟩

instance {token admin : Address} {enabled : Bool} :
    Moves SameRecords (setBurnEnabled token admin enabled) := by
  unfold setBurnEnabled
  iterate 8 refine .andThen inferInstance fun _ => ?_
  infer_instance

theorem SameRecords.of_returns {α : Type} {x : ContractM α} {a : α}
    [MovesIn (fun _ => True) SameRecords x] (h : x.Returns env w a w') : SameRecords w w' :=
  h.relIn (E := fun _ => True) trivial

/-! ### New tokens and new metadata -/

/-- What a call has published: these tokens, and URIs that are valid. -/
structure Published (w : World) (tokens : List Address) (w' : World) : Prop where
  tokens : w'.createdTokens = w.createdTokens ++ tokens
  uris : ∀ uri ∈ w'.metadataUris, uri ∈ w.metadataUris ∨ ValidUri uri

theorem SameRecords.published (h : SameRecords w w') : Published w [] w' where
  tokens := by rw [h.createdTokens, List.append_nil]
  uris uri huri := by
    rw [h.metadataUris] at huri
    exact Or.inl huri

theorem Published.trans {w₂ : World} {tokens tokens' : List Address} (h : Published w tokens w₁)
    (h' : Published w₁ tokens' w₂) : Published w (tokens ++ tokens') w₂ where
  tokens := by rw [h'.tokens, h.tokens, List.append_assoc]
  uris uri huri := by
    rcases h'.uris uri huri with huri | hvalid
    · exact h.uris uri huri
    · exact Or.inr hvalid

theorem published_created {name symbol : Bytes} :
    Published w [token] (w.publish (.created token creator name symbol)) where
  tokens := createdTokens_publish
  uris uri huri := by
    rw [metadataUris_publish] at huri
    exact Or.inl (by simpa [Event.metadataUri] using huri)

/-- A creation publishes its event. -/
theorem published_recordToken {r : Address × FactoryState}
    (h : (recordToken creator p st).Returns env w r w') : Published w [r.1] w' := by
  simp only [recordToken, returns_bind, returns_publish, returns_pure] at h
  obtain ⟨a, w₁, hdeploy, _, w₂, hinit, _, w₃, hmint, _, w₄, hseed, _, w₅, hindex, _, w₆, henv, _, w₇,
    hregister, _, _, rfl, rfl, rfl⟩ := h
  have hsame : SameRecords w w₇ := by
    calc SameRecords w w₁ := .of_returns hdeploy
      SameRecords _ w₂ := .of_returns hinit
      SameRecords _ w₃ := .of_returns hmint
      SameRecords _ w₄ := .of_returns hseed
      SameRecords _ w₅ := .of_returns hindex
      SameRecords _ w₆ := .of_returns henv
      SameRecords _ w₇ := .of_returns hregister
  exact hsame.published.trans published_created

/-- The creations of a batch publish theirs in order. -/
theorem published_recordTokens {addresses : List Address} {r : List Address × FactoryState}
    (h : (recordTokens creator ps addresses st).Returns env w r w') :
    ∃ new, r.1 = addresses ++ new ∧ new.length = ps.length ∧ Published w new w' := by
  induction ps generalizing addresses st w with
  | nil =>
    simp only [recordTokens, returns_pure] at h
    obtain ⟨rfl, rfl⟩ := h
    exact ⟨[], (List.append_nil _).symm, rfl, SameRecords.published ⟨rfl, rfl⟩⟩
  | cons p ps ih =>
    simp only [recordTokens, returns_bind] at h
    obtain ⟨recorded, w₁, hrecord, hrest⟩ := h
    obtain ⟨new, hnew, hlength, hpublished⟩ := ih hrest
    refine ⟨recorded.1 :: new, ?_, ?_, (published_recordToken hrecord).trans hpublished⟩
    · rw [hnew, List.append_assoc, List.singleton_append]
    · rw [List.length_cons, hlength, List.length_cons]

theorem published_createToken {feePayment : ℤ} {a : Address}
    (h : (createToken creator p feePayment).Returns env w a w') : Published w [a] w' := by
  obtain ⟨st, s, w₁, w₂, -, -, -, hpaid, hrecord, rfl⟩ := returns_createToken h
  have hbefore : SameRecords w w₁ := by
    calc SameRecords w (w.saveState env { st with locked := true }) := .of_events rfl
      SameRecords _ w₁ := .of_returns hpaid
  have hafter : SameRecords w₂ (w₂.saveState env { s with locked := false }) := .of_events rfl
  exact (hbefore.published.trans (published_recordToken hrecord)).trans hafter.published

/-- A batch publishes an event for every address that it returns. -/
theorem published_createTokensBatch {feePayment : ℤ} {as : List Address}
    (h : (createTokensBatch creator ps feePayment).Returns env w as w') :
    as.length = ps.length ∧ Published w as w' := by
  obtain ⟨st, s, w₁, w₂, fee, -, -, -, -, -, -, -, -, hrecords, hpaid, rfl⟩ :=
    returns_createTokensBatch h
  obtain ⟨new, hnew, hlength, hpublished⟩ := published_recordTokens hrecords
  have hnew : as = new := hnew
  have hbefore : SameRecords w (w.saveState env { st with locked := true }) := .of_events rfl
  have hafter : SameRecords w₁ (w₂.saveState env { s with locked := false }) :=
    IsTrans.trans _ w₂ _ (.of_returns hpaid) (.of_events rfl)
  rw [hnew]
  refine ⟨hlength, ?_⟩
  have hall := (hbefore.published.trans hpublished).trans hafter.published
  rwa [List.nil_append, List.append_nil] at hall

/-- An update of the metadata publishes no creation. -/
theorem published_setMetadata {admin : Address} {feePayment : ℤ} {u : Unit}
    (h : (setMetadata token admin uri feePayment).Returns env w u w') : Published w [] w' := by
  simp only [setMetadata, returns_bind, returns_requireNotPaused, returns_requireAuth,
    returns_loadUnlockedState, returns_throwIf, returns_validateMetadataUri_iff, returns_setLocked,
    returns_setPersistent, returns_publish] at h
  obtain ⟨_, _, ⟨-, rfl⟩, _, _, ⟨-, rfl⟩, st, _, ⟨-, -, rfl⟩, _, _, ⟨-, rfl⟩, _, _, ⟨hvalid, rfl⟩,
    h⟩ := h
  obtain ⟨_, w₁, hcreator, _, _, ⟨-, rfl⟩, _, w₂, hfrozen, _, _, ⟨-, rfl⟩, _, w₃, hversion, h⟩ := h
  obtain ⟨_, _, ⟨-, rfl⟩, _, _, ⟨rfl, rfl⟩, _, w₄, hpaid, n, w₅, hnext, h⟩ := h
  obtain ⟨_, _, rfl, _, _, rfl, _, _, ⟨-, rfl⟩, rfl⟩ := h
  -- the three checks read, and so do the payment and the count of updates as far as records go
  have hread : SameRecords w w₃ := by
    calc SameRecords w w₁ := .of_returns hcreator
      SameRecords _ w₂ := .of_returns hfrozen
      SameRecords _ w₃ := .of_returns hversion
  have hpaid : SameRecords (w₃.saveState env { st with locked := true }) w₅ :=
    IsTrans.trans _ w₄ _ (.of_returns hpaid) (.of_returns hnext)
  have hlocked : SameRecords w₃ (w₃.saveState env { st with locked := true }) := .of_events rfl
  have hsame : SameRecords w w₅ :=
    IsTrans.trans _ w₃ _ hread (IsTrans.trans _ _ _ hlocked hpaid)
  constructor
  · rw [createdTokens_publish, List.append_nil]
    exact (List.append_nil _).trans hsame.createdTokens
  · intro uri' huri
    rw [metadataUris_publish] at huri
    -- the one event published carries the address that was validated
    rcases List.mem_append.mp huri with huri | huri
    · have huri : uri' ∈ w₅.metadataUris := huri
      rw [hsame.metadataUris] at huri
      exact Or.inl huri
    · rw [List.mem_singleton.mp huri]
      exact Or.inr hvalid

/-! ### Runs -/

/-- **A step publishes the events of the tokens that it creates.** -/
theorem Step.published (hs : Step w i w') : Published w (i.created.map Prod.fst) w' := by
  obtain ⟨env, call, ret⟩ := i
  obtain ⟨-, hexec⟩ := hs
  -- three calls publish such events, the others and the views none
  cases call with
  | createToken creator p feePayment =>
    obtain ⟨a, ha, rfl⟩ := returns_wrap.mp hexec
    exact published_createToken ha
  | createTokensBatch creator ps feePayment =>
    obtain ⟨as, has, rfl⟩ := returns_wrap.mp hexec
    obtain ⟨hlength, hpublished⟩ := published_createTokensBatch has
    have hfst : (as.zip ps).map Prod.fst = as := List.map_fst_zip hlength.le
    show Published w ((as.zip ps).map Prod.fst) w'
    rwa [hfst]
  | setMetadata token admin uri feePayment =>
    obtain ⟨_, hset, -⟩ := returns_wrap.mp hexec
    exact published_setMetadata hset
  | view v =>
    have hsame : SameRecords w w' := .of_returns (x := v.exec) hexec
    exact hsame.published
  | _ =>
    obtain ⟨_, hcall, -⟩ := returns_wrap.mp hexec
    exact (SameRecords.of_returns hcall).published

theorem published_of_run {w₀ : World} (hr : Run Step w₀ h w) :
    Published w₀ ((created h).map Prod.fst) w := by
  induction hr with
  | nil => exact SameRecords.published ⟨rfl, rfl⟩
  | snoc _ hs ih =>
    rw [created, List.map_append]
    exact ih.trans hs.published

theorem Constructed.published {args : ConstructorArgs} (hc : Constructed env args w) :
    Published World.genesis [] w := by
  have hmoves : Moves SameRecords (factoryConstructor args) := by
    unfold factoryConstructor
    iterate 7 refine .andThen inferInstance fun _ => ?_
    infer_instance
  exact SameRecords.published (hmoves.rel hc)

/-- **The `created` events name the tokens that have been created, in order.** -/
theorem createdTokens_eq (hr : Reaches args h w) : w.createdTokens = (created h).map Prod.fst := by
  obtain ⟨env, w₀, hc, hrun⟩ := hr
  rw [(published_of_run hrun).tokens, hc.published.tokens]
  rfl

/-- They are the registered tokens, in the order of their numbers. -/
theorem Reaches.createdTokens (hr : Reaches args h w) :
    ∃ m, Represents w m ∧ w.createdTokens = m.tokens.records.map Token.address := by
  obtain ⟨m, hm, hw⟩ := hr.represents
  refine ⟨m, hw, ?_⟩
  have horigins : m.tokens.records.map Token.origin = created h := by
    rw [origins_of_run hm]
    rfl
  rw [createdTokens_eq hr, ← horigins, List.map_map]
  rfl

/-- A URI that has been published is valid. -/
theorem validUri_of_mem_metadataUris (hr : Reaches args h w) (huri : uri ∈ w.metadataUris) :
    ValidUri uri := by
  obtain ⟨env, w₀, hc, hrun⟩ := hr
  rcases (published_of_run hrun).uris uri huri with huri | hvalid
  · rcases hc.published.uris uri huri with huri | hvalid
    · cases huri
    · exact hvalid
  · exact hvalid

end StellarForge.Factory
