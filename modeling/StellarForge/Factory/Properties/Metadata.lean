import StellarForge.Factory.Properties.Isolation

/-!
# The life cycle of a token's metadata

The URI, the version and the frozen flag of a token are three entries.  Over every run they agree with
the history (`metadata_of_run`): the version counts the updates, the URI is the last one, and the flag
says that the creator has frozen the metadata.

* `metadata_lifeCycle`: **these facts, and exactly when `is_metadata_frozen` says that no update can
  follow**;
* `not_frozen_updatedRun`: after the last update that the cap allows it does not say so.
-/

namespace StellarForge.Factory

open Soroban Contract Collections Transition FactoryModel

/-! ### The history of a token -/

/-- The URI that a call has set on the token `a`. -/
def Invocation.setUri (i : Invocation) (a : Address) : List Bytes :=
  match i.call with
  | .setMetadata token _ uri _ => if token = a then [uri] else []
  | _ => []

/-- The URIs that the calls of a history have set on the token `a`, most recent first. -/
def setUris (h : List Invocation) (a : Address) : List Bytes := h.flatMap fun i => i.setUri a

/-- The token `a` has been frozen explicitly. -/
def FrozenIn (h : List Invocation) (a : Address) : Prop :=
  ∃ i ∈ h, ∃ admin, i.call = .freezeMetadata a admin

/-- The URIs that `set_metadata` documents. -/
structure ValidUri (uri : Bytes) : Prop where
  length_ge : 8 ≤ uri.length
  length_le : uri.length ≤ 128
  starts : ipfsPrefix <+: uri

/-- `is_metadata_frozen` returns `frozen`. -/
def FrozenView (w : World) (a : Address) (frozen : Bool) : Prop :=
  ∀ env, (isMetadataFrozen a).Returns env w frozen w

/-- No later call of `set_metadata` on the token `a` can succeed. -/
def Closed (w : World) (a : Address) : Prop :=
  ∀ h' w', Run Step w h' w' → ∀ i ∈ h', ∀ admin uri feePayment,
    i.call ≠ .setMetadata a admin uri feePayment

variable {env : Env} {w w' : World} {m m' m₀ : FactoryModel} {h : List Invocation} {i : Invocation}
  {a : Address} {t t' : Token} {u : Unit} {args : ConstructorArgs} {p : BatchTokenParams}
  {uri : Bytes}

theorem setUris_cons : setUris (i :: h) a = i.setUri a ++ setUris h a := rfl

theorem frozenIn_cons :
    FrozenIn (i :: h) a ↔ (∃ admin, i.call = .freezeMetadata a admin) ∨ FrozenIn h a := by
  simp only [FrozenIn, List.mem_cons, exists_eq_or_imp]

/-- A call that does not change the record of `a` sets no URI on it, and does not freeze it. -/
theorem setUri_of_edits_ne (h : i.call.edits ≠ some a) :
    i.setUri a = [] ∧ ∀ admin, i.call ≠ .freezeMetadata a admin := by
  constructor
  · unfold Invocation.setUri
    split
    · next token admin uri fee hcall =>
      rw [hcall] at h
      exact if_neg fun heq => h (congrArg some heq)
    · rfl
  · intro admin hcall
    rw [hcall] at h
    exact h rfl

/-- What an update does to the metadata. -/
theorem Token.Update.metadata (h : t.Update i.env m a i.call t') :
    t'.uris = i.setUri a ++ t.uris ∧
      (t'.frozen = true ↔ (∃ admin, i.call = .freezeMetadata a admin) ∨ t.frozen = true) := by
  obtain ⟨env, call, ret⟩ := i
  dsimp only at h
  cases h with
  | setMetadata hc ht =>
    obtain ⟨hfrozen, _, rfl⟩ := Token.setUri_eq_some ht
    simp [Invocation.setUri, Token.withUri]
  | freezeMetadata hc => simp [Invocation.setUri]
  | mintTokens hc ht =>
    rcases Token.mint_eq_some ht with ⟨-, rfl⟩ | ⟨_, _, _, -, -, rfl⟩
    · simp [Invocation.setUri]
    · simp [Invocation.setUri, Token.withSupply]
  | setBurnEnabled hc => simp [Invocation.setUri]
  | backfillCappedSupply ha ht =>
    obtain ⟨-, _, _, _, -, -, rfl⟩ := Token.backfill_eq_some ht
    simp [Invocation.setUri, Token.withSupply]

/-- Nothing has happened to the metadata of an address that is not registered. -/
theorem metadata_of_unregistered (hr : Run AbstractStep m₀ h m) (ha : m.tokens.find? a = none) :
    setUris h a = [] ∧ ¬ FrozenIn h a := by
  induction hr with
  | nil => exact ⟨rfl, fun ⟨i, hi, _⟩ => absurd hi List.not_mem_nil⟩
  | @snoc h i m m' _ hs ih =>
    have hfate := AbstractStep.fate hs a
    rw [ha] at hfate
    generalize hfind : m.tokens.find? a = o at hfate
    cases hfate with
    | same hcall =>
      obtain ⟨hnone, hfreeze⟩ := setUri_of_edits_ne hcall
      obtain ⟨huris, hfrozen⟩ := ih hfind
      rw [setUris_cons, hnone, huris, frozenIn_cons]
      exact ⟨rfl, fun hor => hor.elim (fun ⟨admin, heq⟩ => hfreeze admin heq) hfrozen⟩

/-- **The record of a token holds what the history has done to its metadata.** -/
theorem metadata_of_run (h₀ : m₀.tokens = .empty) (hr : Run AbstractStep m₀ h m)
    (ht : m.tokens.find? a = some t) :
    t.uris = setUris h a ∧ (t.frozen = true ↔ FrozenIn h a) := by
  induction hr generalizing t with
  | nil =>
    rw [h₀, Keyed.find?_empty] at ht
    cases ht
  | @snoc h i m m' hr hs ih =>
    -- what a step can do to the token at `a`: nothing, create it, or update it
    have hfate := AbstractStep.fate hs a
    rw [ht] at hfate
    generalize hfind : m.tokens.find? a = o at hfate
    rw [setUris_cons, frozenIn_cons]
    cases hfate with
    | same hcall =>
      obtain ⟨hnone, hfreeze⟩ := setUri_of_edits_ne hcall
      obtain ⟨huris, hfrozen⟩ := ih hfind
      rw [hnone, List.nil_append, hfrozen]
      exact ⟨huris, ⟨Or.inr, fun hor => hor.resolve_left fun ⟨admin, heq⟩ => hfreeze admin heq⟩⟩
    | created hcall huris hfrozen =>
      obtain ⟨hnone, hfreeze⟩ := setUri_of_edits_ne hcall
      -- before its creation no call can have touched it
      obtain ⟨hbefore, hnot⟩ := metadata_of_unregistered hr hfind
      rw [hnone, hbefore, huris, hfrozen]
      refine ⟨rfl, ⟨nofun, ?_⟩⟩
      rintro (⟨admin, heq⟩ | hin)
      · exact absurd heq (hfreeze admin)
      · exact absurd hin hnot
    | updated hupdate =>
      obtain ⟨huris, hfrozen⟩ := ih hfind
      obtain ⟨huris', hfrozen'⟩ := hupdate.metadata
      rw [huris', hfrozen', huris, hfrozen]
      exact ⟨rfl, Iff.rfl⟩

/-! ### The views -/

/-- The stored version counts the URIs; it is absent while there is none. -/
theorem Represents.getD_metadataVersion (hw : Represents w m) (ht : m.tokens.find? a = some t) :
    (w.storage.lookup (.metadataVersion a)).getD 0 = t.uris.length := by
  have hread : w.storage.lookup (.metadataVersion a) =
      if t.uris = [] then none else some t.uris.length :=
    congrArg TokenView.metadataVersion (hw.tokenView ht)
  rw [hread]
  split_ifs with huris
  · rw [huris]
    rfl
  · rfl

theorem Represents.returns_getMetadataVersion (hw : Represents w m)
    (ht : m.tokens.find? a = some t) : (getMetadataVersion a).Returns env w t.uris.length w := by
  rw [getMetadataVersion, returns_bind]
  exact ⟨_, w, returns_readAddrKeyed.mpr ⟨rfl, rfl⟩,
    returns_pure.mpr ⟨hw.getD_metadataVersion ht, rfl⟩⟩

theorem Represents.returns_getMetadata (hw : Represents w m) (ht : m.tokens.find? a = some t) :
    (getMetadata a).Returns env w t.uris.head? w :=
  returns_readAddrKeyed.mpr ⟨congrArg TokenView.metadata (hw.tokenView ht), rfl⟩

theorem Represents.frozenView (hw : Represents w m) (ht : m.tokens.find? a = some t) :
    FrozenView w a t.frozen := by
  have hread : w.storage.lookup (.metadataFrozen a) = if t.frozen then some true else none :=
    congrArg TokenView.metadataFrozen (hw.tokenView ht)
  intro env
  rw [isMetadataFrozen, returns_bind]
  refine ⟨_, w, returns_readAddrKeyed.mpr ⟨hread, rfl⟩, returns_pure.mpr ⟨?_, rfl⟩⟩
  cases t.frozen <;> rfl

theorem FrozenView.unique {frozen frozen' : Bool} (h : FrozenView w a frozen)
    (h' : FrozenView w a frozen') : frozen = frozen' :=
  ((h (permissiveEnv 0 a)).unique (h' (permissiveEnv 0 a))).1

/-! ### What an update requires -/

/-- The check of a URI lets the valid ones through. -/
theorem returns_validateMetadataUri_iff :
    (validateMetadataUri uri).Returns env w u w' ↔ ValidUri uri ∧ w = w' := by
  have hmax : METADATA_URI_MAX_LEN = 128 := rfl
  simp only [validateMetadataUri, returns_bind, returns_throwIf]
  constructor
  · rintro ⟨_, _, ⟨-, rfl⟩, _, _, ⟨hle, rfl⟩, _, _, ⟨hge, rfl⟩, hstarts, rfl⟩
    refine ⟨⟨by omega, by omega, ?_⟩, rfl⟩
    rw [← not_not.mp hstarts]
    exact List.take_prefix 7 uri
  · rintro ⟨⟨hge, hle, hstarts⟩, rfl⟩
    refine ⟨(), _, ⟨by omega, rfl⟩, (), _, ⟨by omega, rfl⟩, (), _, ⟨by omega, rfl⟩, ?_, rfl⟩
    exact not_not.mpr (List.prefix_iff_eq_take.mp hstarts).symm

/-- What a call sets as the URI is valid. -/
theorem Step.validUri (hs : Step w i w') : ∀ uri ∈ i.setUri a, ValidUri uri := by
  obtain ⟨env, call, ret⟩ := i
  intro uri huri
  unfold Invocation.setUri at huri
  dsimp only at huri
  split at huri
  · next token admin uri' fee =>
    have hset := hs.2
    simp only [Call.exec, returns_wrap, setMetadata, returns_bind] at hset
    obtain ⟨_, ⟨_, _, -, _, _, -, _, _, -, _, _, -, _, _, hvalid, -⟩, -⟩ := hset
    split_ifs at huri
    · rw [List.mem_singleton.mp huri]
      exact (returns_validateMetadataUri_iff.mp hvalid).1
    · cases huri
  · cases huri

theorem validUri_of_run {w₀ : World} (hr : Run Step w₀ h w) : ∀ uri ∈ setUris h a, ValidUri uri := by
  induction hr with
  | nil => exact nofun
  | snoc _ hs ih =>
    intro uri huri
    rw [setUris_cons, List.mem_append] at huri
    exact huri.elim (hs.validUri uri) (ih uri)

/-! ### When no update can follow -/

/-- Frozen metadata stays as it is. -/
theorem frozen_of_run (hr : Run AbstractStep m h m') (ht : m.tokens.find? a = some t)
    (hfrozen : t.frozen = true ∨ t.uris.length = METADATA_MAX_UPDATES) :
    (∀ i ∈ h, i.setUri a = []) ∧ ∃ t', m'.tokens.find? a = some t' ∧ t'.uris = t.uris ∧
      (t.frozen = true → t'.frozen = true) := by
  induction hr with
  | nil => exact ⟨fun i hi => absurd hi List.not_mem_nil, t, ht, rfl, id⟩
  | @snoc h i m₁ m₂ hr hs ih =>
    obtain ⟨hnone, t₁, ht₁, huris, hkept⟩ := ih
    have hfate := AbstractStep.fate hs a
    rw [ht₁] at hfate
    generalize hfind : m₂.tokens.find? a = o at hfate
    rw [List.forall_mem_cons]
    cases hfate with
    | same hcall =>
      exact ⟨⟨(setUri_of_edits_ne hcall).1, hnone⟩, t₁, rfl, huris, hkept⟩
    | @updated _ t₂ hupdate =>
      obtain ⟨huris', hfrozen'⟩ := hupdate.metadata
      -- an update of the URI needs the token open and below its cap
      have hunset : i.setUri a = [] := by
        obtain ⟨env, call, ret⟩ := i
        dsimp only at hupdate
        cases hupdate with
        | setMetadata hc hset =>
          obtain ⟨hopen, hroom, -⟩ := Token.setUri_eq_some hset
          rcases hfrozen with hfrozen | hcap
          · rw [hkept hfrozen] at hopen
            cases hopen
          · rw [huris, hcap] at hroom
            exact absurd hroom (Nat.lt_irrefl _)
        | _ => rfl
      rw [hunset, List.nil_append] at huris'
      exact ⟨⟨hunset, hnone⟩, t₂, rfl, huris'.trans huris, fun hf => hfrozen'.mpr (Or.inr (hkept hf))⟩

/-! ### An update that succeeds -/

/-- Everyone has authorized the call, and every other contract accepts it. -/
def openEnv : Env where
  sequence := 0
  timestamp := 0
  minPersistentTtl := 4096
  authorized _ := true
  host w c := some (permissiveReply c, w.storage)

instance : openEnv.NoReentry where
  storage_eq h := (congrArg Prod.snd (Option.some.inj h)).symm

/-- The admin can unpause. -/
theorem Represents.exists_unpause (hw : Represents w m) :
    ∃ w', Step w ⟨openEnv, .unpause m.admin, .unit⟩ w' ∧
      Represents w' { m with paused := false } := by
  have hstep : ∃ w', Step w ⟨openEnv, .unpause m.admin, .unit⟩ w' := by
    simp only [Step, Call.exec, returns_wrap, Factory.unpause, returns_bind, returns_requireAuth,
      returns_loadState, returns_throwIf, returns_saveState, returns_publish]
    exact ⟨_, inferInstance, (), ⟨(), w, ⟨rfl, rfl⟩, m.state, w, ⟨hw.state?, rfl⟩, (), w,
      ⟨not_not.mpr rfl, rfl⟩, (), _, rfl, rfl⟩, trivial⟩
  obtain ⟨w', hstep⟩ := hstep
  obtain ⟨m', hnext, hw'⟩ := hw.step hstep
  cases hnext with
  | unpause ha => exact ⟨w', hstep, hw'⟩

/-- The admin can clear the split. -/
theorem Represents.exists_clearFeeSplit (hw : Represents w m) :
    ∃ w', Step w ⟨openEnv, .setFeeSplit m.admin .empty, .unit⟩ w' ∧
      Represents w' { m with split := none } := by
  have hstep : ∃ w', Step w ⟨openEnv, .setFeeSplit m.admin .empty, .unit⟩ w' := by
    simp only [Step, Call.exec, returns_wrap, Factory.setFeeSplit, returns_bind, returns_requireAuth,
      returns_loadState, returns_throwIf, returns_ite, returns_removeInst, returns_publish]
    exact ⟨_, inferInstance, (), ⟨(), w, ⟨rfl, rfl⟩, m.state, w, ⟨hw.state?, rfl⟩, (), w,
      ⟨not_not.mpr rfl, rfl⟩, Or.inl ⟨rfl, (), _, rfl, rfl⟩⟩, trivial⟩
  obtain ⟨w', hstep⟩ := hstep
  obtain ⟨m', hnext, hw'⟩ := hw.step hstep
  cases hnext with
  | clearFeeSplit ha hs => exact ⟨w', hstep, hw'⟩
  | setFeeSplit ha hs => exact absurd hs.length_pos (Nat.lt_irrefl 0)

/-- A fee without a split is paid. -/
theorem returns_distributeFee_openEnv {st : FactoryState} {payer : Address} {amount : ℤ}
    (hsplit : w.storage.inst .split = none) :
    (distributeFee st payer amount).Returns openEnv w ()
      (w.logCall (.tryTransfer st.feeToken payer st.treasury amount) true) := by
  simp only [distributeFee, returns_bind, returns_getInst]
  refine ⟨none, w, ⟨hsplit, rfl⟩, ?_⟩
  simp only [payTreasury, returns_bind, returns_tryTransfer, returns_throwIf]
  exact ⟨true, _, ⟨rfl, rfl⟩, by simp, rfl⟩

/-- The creator can set a URI while the factory is not paused, no split is set, and the metadata is
neither frozen nor at its last update. -/
theorem Represents.exists_setMetadata (hw : Represents w m) (hpaused : m.paused = false)
    (hsplit : m.split = none) (ht : m.tokens.find? a = some t) (hopen : t.frozen = false)
    (hroom : t.uris.length < METADATA_MAX_UPDATES) (huri : ValidUri uri) :
    ∃ w', Step w ⟨openEnv, .setMetadata a t.creator uri m.metadataFee, .unit⟩ w' := by
  -- the reads, each in the world that the one before has left
  have howner : w.storage.lookup (.owner a) = some t.creator :=
    congrArg TokenView.owner (hw.tokenView ht)
  let w₁ := w.migrateAddrKeyed openEnv (.owner a)
  have hw₁ : Represents w₁ m := Holds.migrateAddrKeyed hw rfl
  have hfrozen : w₁.storage.lookup (.metadataFrozen a) = none := by
    have hread := congrArg TokenView.metadataFrozen (hw₁.tokenView ht)
    rwa [Token.view, hopen] at hread
  let w₂ := w₁.migrateAddrKeyed openEnv (.metadataFrozen a)
  have hw₂ : Represents w₂ m := Holds.migrateAddrKeyed hw₁ rfl
  have hversion : (w₂.storage.lookup (.metadataVersion a)).getD 0 = t.uris.length :=
    hw₂.getD_metadataVersion ht
  let w₃ := (w₂.migrateAddrKeyed openEnv (.metadataVersion a)).saveState openEnv
    { m.state with locked := true }
  have hw₃ : Holds w₃ m { m.state with locked := true } :=
    Holds.saveState (Holds.migrateAddrKeyed hw₂ rfl)
  have hsum : U32.checkedAdd t.uris.length 1 = some (t.uris.length + 1) := by
    rw [U32.checkedAdd_eq_some]
    unfold METADATA_MAX_UPDATES at hroom
    unfold U32.MAX
    omega
  have hnosplit : w₃.storage.inst .split = none := by
    rw [Holds.inst hw₃ .split]
    change m.split.map Subtype.val = none
    rw [hsplit, Option.map_none]
  have hcall : ∃ w', (Factory.setMetadata a t.creator uri m.metadataFee).Returns openEnv w () w' := by
    simp only [Factory.setMetadata, returns_bind, returns_requireNotPaused, returns_requireAuth,
      returns_loadUnlockedState, returns_throwIf, Factory.tokenCreator, Factory.metadataFrozen,
      returns_migrateAddrKeyed, returns_okOr, returns_pure, returns_setLocked,
      returns_setPersistent, returns_publish]
    apply Exists.intro
    refine ⟨(), w, ⟨⟨m.state, hw.state?, hpaused⟩, rfl⟩, (), w, ⟨rfl, rfl⟩, m.state, w,
      ⟨hw.state?, rfl, rfl⟩, (), w, ⟨lt_irrefl _, rfl⟩, (), w,
      returns_validateMetadataUri_iff.mpr ⟨huri, rfl⟩, ?_⟩
    refine ⟨t.creator, w₁, ⟨_, w₁, ⟨howner, rfl⟩, rfl, rfl⟩, (), w₁, ⟨not_not.mpr rfl, rfl⟩, false,
      w₂, ⟨_, w₂, ⟨hfrozen, rfl⟩, rfl, rfl⟩, (), w₂, ⟨Bool.false_ne_true, rfl⟩, ?_⟩
    refine ⟨_, _, ⟨rfl, rfl⟩, (), _, ⟨not_le.mpr (hversion.trans_lt hroom), rfl⟩, _, w₃, ⟨rfl, rfl⟩,
      (), _, returns_distributeFee_openEnv hnosplit, t.uris.length + 1, _,
      ⟨hversion.symm ▸ hsum, rfl⟩, (), _, rfl, (), _, rfl, _, _, ⟨rfl, rfl⟩, rfl⟩
  obtain ⟨w', hreturns⟩ := hcall
  exact ⟨w', inferInstance, returns_wrap.mpr ⟨(), hreturns, rfl⟩⟩

/-- **No update can follow exactly when the metadata is frozen or the cap is reached.** -/
theorem Represents.closed_iff (hw : Represents w m) (ht : m.tokens.find? a = some t) :
    Closed w a ↔ t.frozen = true ∨ t.uris.length = METADATA_MAX_UPDATES := by
  constructor
  · intro hclosed
    by_contra hopen
    obtain ⟨hfrozen, hlength⟩ := not_or.mp hopen
    have hroom : t.uris.length < METADATA_MAX_UPDATES := lt_of_le_of_ne t.length_uris hlength
    have huri : ValidUri (ipfsPrefix ++ [81]) :=
      ⟨by decide, by decide, List.prefix_append ipfsPrefix [81]⟩
    -- the admin lifts what stands in the way, and the creator updates
    obtain ⟨w₁, hs₁, hw₁⟩ := hw.exists_unpause
    obtain ⟨w₂, hs₂, hw₂⟩ := hw₁.exists_clearFeeSplit
    obtain ⟨w₃, hs₃⟩ := hw₂.exists_setMetadata rfl rfl ht (Bool.not_eq_true _ ▸ hfrozen) hroom huri
    exact hclosed _ w₃ (((Run.nil.snoc hs₁).snoc hs₂).snoc hs₃) _ List.mem_cons_self _ _ _ rfl
  · intro hend h' w' hrun i hi admin uri fee hcall
    obtain ⟨m', hm', -⟩ := hw.run hrun
    have hnone := (frozen_of_run hm' ht hend).1 i hi
    rw [Invocation.setUri, hcall] at hnone
    dsimp only at hnone
    rw [if_pos rfl] at hnone
    exact absurd hnone (List.cons_ne_nil uri [])

/-! ### The life cycle -/

/-- The three entries of the metadata of a token. -/
def World.metadataView (w : World) (a : Address) : Option Bytes × Option ℕ × Option Bool :=
  ((w.tokenView a).metadata, (w.tokenView a).metadataVersion, (w.tokenView a).metadataFrozen)

/-- What holds of the metadata of the token `a` in the world `w` that the history `h` has led to. -/
structure MetadataLifeCycle (h : List Invocation) (w : World) (a : Address) : Prop where
  /-- The version counts the updates. -/
  version : ∀ env, (getMetadataVersion a).Returns env w (setUris h a).length w
  version_le : (setUris h a).length ≤ METADATA_MAX_UPDATES
  /-- The URI is that of the last update. -/
  uri : ∀ env, (getMetadata a).Returns env w (setUris h a).head? w
  valid : ∀ uri ∈ setUris h a, ValidUri uri
  /-- Only the creator changes any of it. -/
  creator : ∀ i w', Step w i w' → w'.metadataView a ≠ w.metadataView a →
    ∃ creator, (w.tokenView a).owner = some creator ∧ i.env.authorized creator = true ∧
      ((∃ uri feePayment, i.call = .setMetadata a creator uri feePayment) ∨
        i.call = .freezeMetadata a creator)
  /-- Once frozen, it never changes again. -/
  permanent : FrozenView w a true → ∀ h' w', Run Step w h' w' → FrozenView w' a true ∧
    ∀ env, (getMetadataVersion a).Returns env w' (setUris h a).length w' ∧
      (getMetadata a).Returns env w' (setUris h a).head? w'

/-- An update that changes the metadata is the creator's. -/
theorem Token.Update.metadata_creator (h : t.Update i.env m a i.call t')
    (hne : t'.uris ≠ t.uris ∨ t'.frozen ≠ t.frozen) :
    i.env.authorized t.creator = true ∧
      ((∃ uri feePayment, i.call = .setMetadata a t.creator uri feePayment) ∨
        i.call = .freezeMetadata a t.creator) := by
  obtain ⟨env, call, ret⟩ := i
  dsimp only at h ⊢
  cases h with
  | setMetadata hc ht =>
    rw [hc.creator_eq]
    exact ⟨hc.authorized, Or.inl ⟨_, _, rfl⟩⟩
  | freezeMetadata hc =>
    rw [hc.creator_eq]
    exact ⟨hc.authorized, Or.inr rfl⟩
  | mintTokens hc ht =>
    rcases Token.mint_eq_some ht with ⟨-, rfl⟩ | ⟨_, _, _, -, -, rfl⟩
    · exact absurd rfl (hne.resolve_left (not_not.mpr rfl))
    · exact absurd rfl (hne.resolve_left (not_not.mpr rfl))
  | setBurnEnabled hc => exact absurd rfl (hne.resolve_left (not_not.mpr rfl))
  | backfillCappedSupply ha ht =>
    obtain ⟨-, _, _, _, -, -, rfl⟩ := Token.backfill_eq_some ht
    exact absurd rfl (hne.resolve_left (not_not.mpr rfl))

/-- Only the creator changes what a token's metadata are. -/
theorem Represents.metadata_creator (hw : Represents w m) (ht : m.tokens.find? a = some t)
    (hs : Step w i w') (hne : w'.metadataView a ≠ w.metadataView a) :
    i.env.authorized t.creator = true ∧
      ((∃ uri feePayment, i.call = .setMetadata a t.creator uri feePayment) ∨
        i.call = .freezeMetadata a t.creator) := by
  obtain ⟨m', hm', hw'⟩ := hw.step hs
  have hfate := AbstractStep.fate hm' a
  rw [ht] at hfate
  generalize hfind : m'.tokens.find? a = o at hfate
  -- the view shows two fields, so one of them has changed
  have hview {t' : Token} (ht' : m'.tokens.find? a = some t') :
      t'.uris ≠ t.uris ∨ t'.frozen ≠ t.frozen := by
    by_contra hsame
    obtain ⟨huris, hfrozen⟩ := not_or.mp hsame
    refine hne ?_
    unfold World.metadataView
    rw [hw'.tokenView ht', hw.tokenView ht]
    unfold Token.view
    rw [not_not.mp huris, not_not.mp hfrozen]
  -- a token that exists cannot be created again
  cases hfate with
  | same _ =>
    rcases hview hfind with hne | hne
    · exact absurd rfl hne
    · exact absurd rfl hne
  | updated hupdate => exact hupdate.metadata_creator (hview hfind)

/-- **The life cycle of a token's metadata**, in every reachable state and for every token; and
`is_metadata_frozen` is true exactly when no later update can succeed if and only if the cap is not
reached or the creator has frozen the metadata explicitly. -/
theorem metadata_lifeCycle (hr : Reaches args h w) (ha : (a, p) ∈ created h) :
    MetadataLifeCycle h w a ∧ ((FrozenView w a true ↔ Closed w a) ↔
      (setUris h a).length < METADATA_MAX_UPDATES ∨ FrozenIn h a) := by
  obtain ⟨m, hm, hw⟩ := hr.represents
  obtain ⟨t, ht, -⟩ := find?_of_mem_created hm ha
  obtain ⟨huris, hfrozen⟩ := metadata_of_run rfl hm ht
  -- the view of the contract is the flag alone
  have hflag : FrozenView w a true ↔ t.frozen = true :=
    ⟨fun hview => ((hw.frozenView ht).unique hview), fun hf => hf ▸ hw.frozenView ht⟩
  have hle := t.length_uris
  refine ⟨?_, ?_⟩
  · constructor
    case version => exact fun env => huris ▸ hw.returns_getMetadataVersion ht
    case version_le => exact huris ▸ hle
    case uri => exact fun env => huris ▸ hw.returns_getMetadata ht
    case valid =>
      obtain ⟨_, w₀, -, hrun⟩ := hr
      exact validUri_of_run hrun
    case creator =>
      intro i w' hs hne
      exact ⟨t.creator, congrArg TokenView.owner (hw.tokenView ht), hw.metadata_creator ht hs hne⟩
    case permanent =>
      intro hview h' w' hrun
      obtain ⟨m', hm', hw'⟩ := hw.run hrun
      obtain ⟨-, t', ht', huris', hkept⟩ := frozen_of_run hm' ht (Or.inl (hflag.mp hview))
      rw [← huris, ← huris']
      refine ⟨?_, fun env => ⟨hw'.returns_getMetadataVersion ht', hw'.returns_getMetadata ht'⟩⟩
      exact hkept (hflag.mp hview) ▸ hw'.frozenView ht'
  · -- with the flag unset at the cap the view says open while the token is closed
    rw [hflag, hw.closed_iff ht, hfrozen, huris] at *
    constructor
    · intro hiff
      rcases lt_or_eq_of_le hle with hlt | heq
      · exact Or.inl hlt
      · exact Or.inr (hiff.mpr (Or.inr heq))
    · rintro hcond
      refine ⟨Or.inl, fun hend => hend.elim id fun heq => hcond.resolve_left ?_⟩
      rw [heq]
      exact lt_irrefl _

/-! ### A token at its last update -/

namespace UpdatedRun

/-- The creator sets the metadata. -/
def update : Invocation :=
  ⟨permissiveEnv 30 ⟨5⟩, .setMetadata ⟨50⟩ ⟨5⟩ (ipfsPrefix ++ [81]) 10, .unit⟩

/-- The creation of the token `50` and `n` updates of its metadata. -/
def history : ℕ → List Invocation
  | 0 => [⟨permissiveEnv 10 ⟨5⟩, .createToken ⟨5⟩ SampleRun.params 100, .address ⟨50⟩⟩]
  | n + 1 => update :: history n

/-- The world after so many updates. -/
def world : ℕ → World
  | 0 => SampleRun.world₁
  | n + 1 => update.call.exec.commit update.env (world n)

theorem reaches₀ : Reaches SampleRun.constructorArgs (history 0) (world 0) :=
  SampleRun.reaches₀.step SampleRun.step₁

theorem reaches₁ : Reaches SampleRun.constructorArgs (history 1) (world 1) :=
  reaches₀.step (step_commit inferInstance rfl)

theorem reaches₂ : Reaches SampleRun.constructorArgs (history 2) (world 2) :=
  reaches₁.step (step_commit inferInstance rfl)

theorem reaches₃ : Reaches SampleRun.constructorArgs (history 3) (world 3) :=
  reaches₂.step (step_commit inferInstance rfl)

theorem reaches₄ : Reaches SampleRun.constructorArgs (history 4) (world 4) :=
  reaches₃.step (step_commit inferInstance rfl)

theorem reaches₅ : Reaches SampleRun.constructorArgs (history 5) (world 5) :=
  reaches₄.step (step_commit inferInstance rfl)

theorem created_history (n : ℕ) : (⟨50⟩, SampleRun.params) ∈ created (history n) := by
  induction n with
  | zero => exact List.mem_singleton.mpr rfl
  | succ n ih => exact List.mem_append_left _ ih

end UpdatedRun

/-- A token that has been updated as often as it may be. -/
theorem metadata_lifeCycle_updatedRun :
    MetadataLifeCycle (UpdatedRun.history 2) (UpdatedRun.world 2) ⟨50⟩ ∧
      (FrozenView (UpdatedRun.world 2) ⟨50⟩ true ↔ Closed (UpdatedRun.world 2) ⟨50⟩) := by
  obtain ⟨hlife, hiff⟩ := metadata_lifeCycle UpdatedRun.reaches₂ (UpdatedRun.created_history 2)
  exact ⟨hlife, hiff.mpr (Or.inl (by decide))⟩

/-- After the fifth update no update can follow, and `is_metadata_frozen` is false. -/
theorem not_frozen_updatedRun :
    Reaches SampleRun.constructorArgs (UpdatedRun.history 5) (UpdatedRun.world 5) ∧
      (⟨50⟩, SampleRun.params) ∈ created (UpdatedRun.history 5) ∧
      FrozenView (UpdatedRun.world 5) ⟨50⟩ false ∧
      ¬ (FrozenView (UpdatedRun.world 5) ⟨50⟩ true ↔ Closed (UpdatedRun.world 5) ⟨50⟩) := by
  have hcreated := UpdatedRun.created_history 5
  obtain ⟨m, hm, hw⟩ := UpdatedRun.reaches₅.represents
  obtain ⟨t, ht, -⟩ := find?_of_mem_created hm hcreated
  obtain ⟨huris, hflag⟩ := metadata_of_run rfl hm ht
  have hunfrozen : ¬ FrozenIn (UpdatedRun.history 5) ⟨50⟩ := by
    rintro ⟨i, hi, admin, hcall⟩
    simp only [UpdatedRun.history, List.mem_cons, List.not_mem_nil, or_false] at hi
    rcases hi with rfl | rfl | rfl | rfl | rfl | rfl <;> cases hcall
  have hfrozen : t.frozen = false := Bool.eq_false_iff.mpr fun hf => hunfrozen (hflag.mp hf)
  have hview : FrozenView (UpdatedRun.world 5) ⟨50⟩ false := hfrozen ▸ hw.frozenView ht
  have hclosed : Closed (UpdatedRun.world 5) ⟨50⟩ :=
    (hw.closed_iff ht).mpr (Or.inr (by rw [huris]; decide))
  exact ⟨UpdatedRun.reaches₅, hcreated, hview, fun hiff =>
    Bool.false_ne_true (hview.unique (hiff.mpr hclosed))⟩

end StellarForge.Factory
