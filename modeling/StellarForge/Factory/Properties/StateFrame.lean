import StellarForge.Factory.Properties.Settings

/-!
# Which fields of the stored state a call writes

`EditsOnly fields w w'` says that the stored state differs in the fields of the list at most.
`editsOnly_of_returns`: every call but `migrate` edits only the fields that `Call.settings` names for
it.  No invariant of the world is asked for, so this holds of the storage that an older binary has
left as well.
-/

namespace StellarForge.Factory

open Soroban Contract Transition

/-- The stored state is there still, and differs in the given fields at most. -/
def EditsOnly (fields : List StateField) (w w' : World) : Prop :=
  ∀ st, w.state? = some st →
    ∃ st', w'.state? = some st' ∧ ∀ f, f ∉ fields → st'.encode f = st.encode f

/-- The environments whose host refuses re-entry. -/
abbrev RefusesReentry (env : Env) : Prop := env.NoReentry

variable {env : Env} {w w' w₃ : World} {st st' : FactoryState} {fields : List StateField} {ev : Event}
  {call : Call} {ret : Ret} {α : Type} {a : α} {u : Unit}

/-! ### The frame -/

theorem EditsOnly.of_state_eq (h : w'.state? = w.state?) : EditsOnly fields w w' :=
  fun st hst => ⟨st, h.trans hst, fun _ _ => rfl⟩

theorem EditsOnly.trans (h : EditsOnly fields w w') (h' : EditsOnly fields w' w₃) :
    EditsOnly fields w w₃ := by
  intro st hst
  obtain ⟨st₁, hst₁, heq₁⟩ := h st hst
  obtain ⟨st₂, hst₂, heq₂⟩ := h' st₁ hst₁
  exact ⟨st₂, hst₂, fun f hf => (heq₂ f hf).trans (heq₁ f hf)⟩

instance : OwnFrame (EditsOnly fields) where
  refl _ := .of_state_eq rfl
  trans _ _ _ := .trans
  own h := .of_state_eq h.2

instance {c : ExtCall} : MayCall RefusesReentry (EditsOnly fields) c where
  tryCall := by
    refine ⟨fun henv h => ?_⟩
    unfold tryCall at h
    split at h
    case h_1 r s hhost =>
      obtain ⟨-, rfl⟩ := Prod.mk.inj (Option.some.inj h)
      obtain rfl := henv.storage_eq hhost
      exact .of_state_eq rfl
    case h_2 =>
      obtain ⟨-, rfl⟩ := Prod.mk.inj (Option.some.inj h)
      exact .of_state_eq rfl

instance : PaymentFrame RefusesReentry (EditsOnly fields) := ⟨inferInstance⟩

instance : CreationFrame RefusesReentry (EditsOnly fields) :=
  ⟨inferInstance, inferInstance, inferInstance⟩

instance : BurnFrame RefusesReentry (EditsOnly fields) := ⟨inferInstance, inferInstance⟩

/-- Writing back the state that was read, but for the given fields. -/
theorem EditsOnly.saveState (hst : w.state? = some st)
    (h : ∀ f, f ∉ fields → st'.encode f = st.encode f) :
    EditsOnly fields w (w.saveState env st') := by
  intro st₀ hst₀
  obtain rfl := Option.some.inj (hst.symm.trans hst₀)
  exact ⟨st', World.state?_saveState, h⟩

/-- The same with the event that announces it. -/
theorem EditsOnly.announce (hst : w.state? = some st)
    (h : ∀ f, f ∉ fields → st'.encode f = st.encode f) :
    EditsOnly fields w ((w.saveState env st').publish ev) := by
  have hsaved : EditsOnly fields w (w.saveState env st') := .saveState hst h
  exact hsaved.trans (.of_state_eq World.state?_publish)

/-- A guarded call reads a state that is not locked, and writes it back when it releases the lock. -/
theorem EditsOnly.release (hst : w.state? = some st) (hunlocked : st.locked = false)
    (h : ∀ f, f ∉ fields → st'.encode f = ({ st with locked := false } : FactoryState).encode f)
    (hw' : w'.state? = some st') : EditsOnly fields w w' := by
  intro st₀ hst₀
  obtain rfl := Option.some.inj (hst.symm.trans hst₀)
  have hsame : ({ st with locked := false } : FactoryState) = st := by rw [← hunlocked]
  rw [hsame] at h
  exact ⟨st', hw', h⟩

theorem Own.state?_eq (h : Own w w') : w'.state? = w.state? := h.2

/-! ### The guarded calls -/

/-- Calling another contract leaves the stored state alone. -/
theorem EditsOnly.of_returns [henv : env.NoReentry] {x : ContractM α}
    [MovesIn RefusesReentry (EditsOnly fields) x]
    (h : x.Returns env w a w') : EditsOnly fields w w' :=
  h.relIn (E := RefusesReentry) henv

/-- `create_token` edits the count only. -/
theorem editsOnly_createToken {creator address : Address} {p : BatchTokenParams} {feePayment : ℤ}
    (h : (createToken creator p feePayment).Returns env w address w') :
    EditsOnly [.tokenCount] w w' := by
  simp only [createToken, returns_bind, returns_requireAuth, returns_loadUnlockedState,
    returns_throwIf, returns_setLocked, returns_attempt] at h
  obtain ⟨_, w₁, hpaused, _, _, ⟨-, rfl⟩, st, _, ⟨hst, hunlocked, rfl⟩, h⟩ := h
  obtain ⟨_, w₂, hvalid, _, _, ⟨-, rfl⟩, _, w₃, hlisted, _, _, ⟨-, rfl⟩, h⟩ := h
  obtain ⟨_, _, ⟨rfl, rfl⟩, o, w₄, hrun, h⟩ := h
  rcases o with e | ⟨address, st'⟩
  · simp at h
  have hrun : (createTokenInner creator p { st with locked := true }).Returns env _ _ w₄ := hrun
  simp only [createTokenInner, returns_bind] at hrun
  obtain ⟨_, _, -, hrec⟩ := hrun
  -- recording changes the count, every other field comes from the state before
  simp only [recordToken, returns_bind, returns_pure] at hrec
  obtain ⟨_, _, -, _, _, -, _, _, -, _, _, -, index, _, -, _, _, -, _, _, -, _, _, -, hpair, -⟩ := hrec
  obtain ⟨-, rfl⟩ := Prod.mk.inj hpair
  simp only [returns_bind, returns_setLocked, returns_pure] at h
  obtain ⟨_, _, ⟨-, rfl⟩, -, rfl⟩ := h
  have hpaused : w₁.state? = w.state? := Own.state?_eq hpaused.rel
  refine .release (hpaused.symm.trans hst) hunlocked (fun f hf => ?_) World.state?_saveState
  cases f <;> first | rfl | simp at hf

theorem state_recordTokens {creator : Address} {ps : List BatchTokenParams} {as : List Address}
    {r : List Address × FactoryState} (h : (recordTokens creator ps as st).Returns env w r w') :
    ∃ count, r.2 = { st with tokenCount := count } := by
  induction ps generalizing as st w with
  | nil =>
    simp only [recordTokens, returns_pure] at h
    obtain ⟨rfl, -⟩ := h
    exact ⟨st.tokenCount, rfl⟩
  | cons p ps ih =>
    simp only [recordTokens, recordToken, returns_bind, returns_pure] at h
    obtain ⟨_, _, hrec, h⟩ := h
    obtain ⟨_, _, -, _, _, -, _, _, -, _, _, -, index, _, -, _, _, -, _, _, -, _, _, -, rfl, -⟩ := hrec
    obtain ⟨count, hcount⟩ := ih h
    exact ⟨count, hcount⟩

/-- So does `create_tokens_batch`. -/
theorem editsOnly_createTokensBatch {creator : Address} {tokens : List BatchTokenParams}
    {feePayment : ℤ} {addresses : List Address}
    (h : (createTokensBatch creator tokens feePayment).Returns env w addresses w') :
    EditsOnly [.tokenCount] w w' := by
  simp only [createTokensBatch, returns_bind, returns_requireAuth, returns_loadUnlockedState,
    returns_throwIf, returns_okOr, returns_setLocked, returns_pure] at h
  obtain ⟨_, w₁, hpaused, _, _, ⟨-, rfl⟩, st, _, ⟨hst, hunlocked, rfl⟩, h⟩ := h
  obtain ⟨_, _, ⟨-, rfl⟩, _, _, ⟨-, rfl⟩, _, w₂, hvalid, _, _, ⟨-, rfl⟩, h⟩ := h
  obtain ⟨_, _, ⟨-, rfl⟩, _, _, ⟨-, rfl⟩, _, w₃, hlisted, _, _, ⟨rfl, rfl⟩, h⟩ := h
  obtain ⟨r, w₄, hrec, _, w₅, hfees, _, _, ⟨-, rfl⟩, -, rfl⟩ := h
  obtain ⟨count, hcount⟩ := state_recordTokens hrec
  have hpaused : w₁.state? = w.state? := Own.state?_eq hpaused.rel
  refine .release (hpaused.symm.trans hst) hunlocked (fun f hf => ?_) World.state?_saveState
  rw [hcount]
  cases f <;> first | rfl | simp at hf

/-- `set_metadata` leaves the state as it is. -/
theorem editsOnly_setMetadata {token admin : Address} {uri : Bytes} {feePayment : ℤ}
    (h : (setMetadata token admin uri feePayment).Returns env w u w') : EditsOnly [] w w' := by
  simp only [setMetadata, returns_bind, returns_requireAuth, returns_loadUnlockedState,
    returns_throwIf, returns_okOr, returns_setLocked, returns_publish] at h
  obtain ⟨_, w₁, hpaused, _, _, ⟨-, rfl⟩, st, _, ⟨hst, hunlocked, rfl⟩, h⟩ := h
  obtain ⟨_, _, ⟨-, rfl⟩, _, w₂, huri, _, w₃, hcreator, _, _, ⟨-, rfl⟩, h⟩ := h
  obtain ⟨_, w₄, hfrozen, _, _, ⟨-, rfl⟩, _, w₅, hversion, _, _, ⟨-, rfl⟩, h⟩ := h
  obtain ⟨_, _, ⟨rfl, rfl⟩, _, w₆, hfees, _, _, ⟨-, rfl⟩, h⟩ := h
  obtain ⟨_, w₇, huris, _, w₈, hversions, _, _, ⟨-, rfl⟩, rfl⟩ := h
  have hpaused : w₁.state? = w.state? := Own.state?_eq hpaused.rel
  exact .release (hpaused.symm.trans hst) hunlocked (fun _ _ => rfl) World.state?_saveState

/-- So does `mint_tokens`. -/
theorem editsOnly_mintTokens {token admin recipient : Address} {amount feePayment : ℤ}
    (h : (mintTokens token admin recipient amount feePayment).Returns env w u w') :
    EditsOnly [] w w' := by
  simp only [mintTokens, returns_bind, returns_requireAuth, returns_loadUnlockedState,
    returns_throwIf, returns_setLocked, returns_publish] at h
  obtain ⟨_, w₁, hpaused, _, _, ⟨-, rfl⟩, _, _, ⟨-, rfl⟩, h⟩ := h
  obtain ⟨st, _, ⟨hst, hunlocked, rfl⟩, _, _, ⟨-, rfl⟩, _, w₂, hreg, h⟩ := h
  obtain ⟨_, w₃, hcreator, _, _, ⟨-, rfl⟩, _, w₄, htrack, h⟩ := h
  obtain ⟨_, _, ⟨rfl, rfl⟩, _, w₅, hfees, _, w₆, hmint, _, _, ⟨-, rfl⟩, rfl⟩ := h
  have hpaused : w₁.state? = w.state? := Own.state?_eq hpaused.rel
  exact .release (hpaused.symm.trans hst) hunlocked (fun _ _ => rfl) World.state?_saveState

/-- So does `burn`. -/
theorem editsOnly_burn [env.NoReentry] {token holder : Address} {amount : ℤ}
    (h : (burn token holder amount).Returns env w u w') : EditsOnly [] w w' := by
  simp only [burn, returns_bind, returns_requireAuth, returns_throwIf] at h
  obtain ⟨_, _, ⟨-, rfl⟩, _, _, ⟨-, rfl⟩, _, w₁, hreg, _, _, ⟨-, rfl⟩, h⟩ := h
  obtain ⟨_, w₂, hbalance, _, _, ⟨-, rfl⟩, o, w₃, hload, h⟩ := h
  obtain ⟨hst, rfl⟩ := returns_loadState? hload
  have hbefore : EditsOnly [] w w₂ := .trans (EditsOnly.of_state_eq (Own.state?_eq hreg.rel))
    (.of_returns hbalance)
  rcases o with _ | st
  · simp only [returns_bind, returns_publish] at h
    obtain ⟨_, w₄, hburn, rfl⟩ := h
    exact (hbefore.trans (.of_returns hburn)).trans (.of_state_eq World.state?_publish)
  · simp only [returns_bind, returns_throwIf, returns_setLocked, returns_publish,
      Bool.not_eq_true] at h
    obtain ⟨_, _, ⟨hunlocked, rfl⟩, _, _, ⟨rfl, rfl⟩, _, w₄, hburn, _, _, ⟨-, rfl⟩, rfl⟩ := h
    exact hbefore.trans (.release hst hunlocked (fun _ _ => rfl) World.state?_saveState)

theorem editsOnly_setBurnEnabled {token admin : Address} {enabled : Bool}
    (h : (setBurnEnabled token admin enabled).Returns env w u w') : EditsOnly [] w w' := by
  simp only [setBurnEnabled, returns_bind, returns_requireAuth, returns_loadUnlockedState,
    returns_throwIf, returns_setLocked, returns_setPersistent, returns_pure] at h
  obtain ⟨_, _, ⟨-, rfl⟩, st, _, ⟨hst, hunlocked, rfl⟩, _, w₁, hcreator, _, _, ⟨-, rfl⟩, h⟩ := h
  obtain ⟨_, w₂, hreg, _, _, ⟨rfl, rfl⟩, _, _, rfl, _, _, ⟨-, rfl⟩, -, rfl⟩ := h
  exact .release hst hunlocked (fun _ _ => rfl) World.state?_saveState

/-! ### The other calls -/

theorem editsOnly_proposeAdmin {currentAdmin newAdmin : Address}
    (h : (proposeAdmin currentAdmin newAdmin).Returns env w u w') :
    EditsOnly [.pendingAdmin, .pendingAdminExpiry] w w' := by
  simp only [proposeAdmin, returns_bind, returns_requireAuth, returns_loadState, returns_throwIf,
    returns_okOr, returns_getEnv, returns_saveState, returns_publish] at h
  obtain ⟨_, _, ⟨-, rfl⟩, st, _, ⟨hst, rfl⟩, _, _, ⟨-, rfl⟩, _, _, ⟨-, rfl⟩, h⟩ := h
  obtain ⟨_, _, ⟨-, rfl⟩, _, _, ⟨-, rfl⟩, _, _, rfl, rfl⟩ := h
  refine .announce hst fun f hf => ?_
  cases f <;> first | rfl | simp at hf

theorem editsOnly_proposeAdminViaLegacyAlias {currentAdmin newAdmin : Address} {name : Symbol}
    {r : AdminRotationReceipt}
    (h : (proposeAdminViaLegacyAlias currentAdmin newAdmin name).Returns env w r w') :
    EditsOnly [.pendingAdmin, .pendingAdminExpiry] w w' := by
  simp only [proposeAdminViaLegacyAlias, returns_bind, returns_loadState, returns_publish,
    returns_pure] at h
  obtain ⟨_, _, hpropose, _, _, ⟨-, rfl⟩, _, _, rfl, -, rfl⟩ := h
  exact (editsOnly_proposeAdmin hpropose).trans (.of_state_eq World.state?_publish)

/-- `execute_upgrade` edits the hash and the proposal. -/
theorem editsOnly_executeUpgrade [env.NoReentry] {admin : Address} {hash : BytesN32}
    (h : (executeUpgrade admin hash).Returns env w u w') :
    EditsOnly [.pendingUpgradeHash, .pendingUpgradeReadyAt, .tokenWasmHash] w w' := by
  simp only [executeUpgrade, returns_bind, returns_requireAuth, returns_loadState, returns_throwIf,
    returns_okOr, returns_getEnv, returns_saveState, returns_publish] at h
  obtain ⟨_, _, ⟨-, rfl⟩, st, _, ⟨hst, rfl⟩, _, _, ⟨-, rfl⟩, _, _, ⟨-, rfl⟩, h⟩ := h
  obtain ⟨_, _, ⟨-, rfl⟩, _, _, ⟨-, rfl⟩, _, _, ⟨-, rfl⟩, _, _, ⟨-, rfl⟩, h⟩ := h
  obtain ⟨_, _, rfl, _, _, rfl, hcode⟩ := h
  refine .trans ?_ (.of_returns hcode)
  refine .announce hst fun f hf => ?_
  cases f <;> first | rfl | simp at hf

/-- **Every call but `migrate` edits only its own fields**, in any world. -/
theorem editsOnly_of_returns [env.NoReentry] (hm : ∀ admin, call ≠ .migrate admin)
    (h : call.exec.Returns env w ret w') : EditsOnly call.settings w w' := by
  cases call <;> simp only [Call.exec, returns_wrap] at h
  case view v => exact h.rel
  case migrate admin => exact absurd rfl (hm admin)
  all_goals obtain ⟨_, h, -⟩ := h
  -- the guarded entrypoints
  case createToken => exact editsOnly_createToken h
  case createTokensBatch => exact editsOnly_createTokensBatch h
  case setMetadata => exact editsOnly_setMetadata h
  case mintTokens => exact editsOnly_mintTokens h
  case burn => exact editsOnly_burn h
  case setBurnEnabled => exact editsOnly_setBurnEnabled h
  -- the entrypoints that write back what they have read
  case executeUpgrade => exact editsOnly_executeUpgrade h
  case proposeAdmin => exact editsOnly_proposeAdmin h
  case transferAdmin => exact editsOnly_proposeAdminViaLegacyAlias h
  case updateAdmin => exact editsOnly_proposeAdminViaLegacyAlias h
  case setWhitelistEnabled =>
    simp only [Factory.setWhitelistEnabled, returns_bind, returns_requireAuth, returns_loadState,
      returns_throwIf, returns_saveState, returns_publish] at h
    obtain ⟨_, _, ⟨-, rfl⟩, st, _, ⟨hst, rfl⟩, _, _, ⟨-, rfl⟩, _, _, rfl, rfl⟩ := h
    refine .announce hst fun f hf => ?_
    cases f <;> first | rfl | simp [Call.settings] at hf
  case pause =>
    simp only [Factory.pause, returns_bind, returns_requireAuth, returns_loadState,
      returns_throwIf, returns_saveState, returns_publish] at h
    obtain ⟨_, _, ⟨-, rfl⟩, st, _, ⟨hst, rfl⟩, _, _, ⟨-, rfl⟩, _, _, rfl, rfl⟩ := h
    refine .announce hst fun f hf => ?_
    cases f <;> first | rfl | simp [Call.settings] at hf
  case unpause =>
    simp only [Factory.unpause, returns_bind, returns_requireAuth, returns_loadState,
      returns_throwIf, returns_saveState, returns_publish] at h
    obtain ⟨_, _, ⟨-, rfl⟩, st, _, ⟨hst, rfl⟩, _, _, ⟨-, rfl⟩, _, _, rfl, rfl⟩ := h
    refine .announce hst fun f hf => ?_
    cases f <;> first | rfl | simp [Call.settings] at hf
  case updateFees =>
    simp only [Factory.updateFees, returns_bind, returns_requireAuth, returns_loadState,
      returns_throwIf, returns_saveState, returns_publish] at h
    obtain ⟨_, _, ⟨-, rfl⟩, st, _, ⟨hst, rfl⟩, _, _, ⟨-, rfl⟩, _, w₁, hbase, h⟩ := h
    obtain ⟨_, w₂, hmeta, _, _, rfl, rfl⟩ := h
    have hown : w₂.state? = w.state? := (Own.state?_eq hmeta.rel).trans (Own.state?_eq hbase.rel)
    refine .trans (.of_state_eq hown) (.announce (hown.trans hst) fun f hf => ?_)
    cases f <;> first | rfl | simp [Call.settings] at hf
  case proposeUpgrade =>
    simp only [Factory.proposeUpgrade, returns_bind, returns_requireAuth, returns_loadState,
      returns_throwIf, returns_getEnv, returns_okOr, returns_saveState, returns_publish] at h
    obtain ⟨_, _, ⟨-, rfl⟩, st, _, ⟨hst, rfl⟩, _, _, ⟨-, rfl⟩, _, _, ⟨-, rfl⟩, h⟩ := h
    obtain ⟨_, _, ⟨-, rfl⟩, _, _, rfl, rfl⟩ := h
    refine .announce hst fun f hf => ?_
    cases f <;> first | rfl | simp [Call.settings] at hf
  case cancelUpgrade =>
    simp only [Factory.cancelUpgrade, returns_bind, returns_requireAuth, returns_loadState,
      returns_throwIf] at h
    obtain ⟨_, _, ⟨-, rfl⟩, st, _, ⟨hst, rfl⟩, _, _, ⟨-, rfl⟩, h⟩ := h
    split at h
    · obtain ⟨-, rfl⟩ := returns_pure.mp h
      exact .of_state_eq rfl
    · simp only [returns_bind, returns_saveState, returns_publish] at h
      obtain ⟨_, _, rfl, rfl⟩ := h
      refine .announce hst fun f hf => ?_
      cases f <;> first | rfl | simp [Call.settings] at hf
  case acceptAdmin =>
    simp only [Factory.acceptAdmin, returns_bind, returns_requireAuth, returns_loadState,
      returns_throwIf, returns_okOr, returns_getEnv, returns_saveState, returns_publish] at h
    obtain ⟨_, _, ⟨-, rfl⟩, st, _, ⟨hst, rfl⟩, _, _, ⟨-, rfl⟩, _, _, ⟨-, rfl⟩, h⟩ := h
    obtain ⟨_, _, ⟨-, rfl⟩, _, _, ⟨-, rfl⟩, _, _, rfl, rfl⟩ := h
    refine .announce hst fun f hf => ?_
    cases f <;> first | rfl | simp [Call.settings] at hf
  case cancelAdminProposal =>
    simp only [Factory.cancelAdminProposal, returns_bind, returns_requireAuth, returns_loadState,
      returns_throwIf] at h
    obtain ⟨_, _, ⟨-, rfl⟩, st, _, ⟨hst, rfl⟩, _, _, ⟨-, rfl⟩, h⟩ := h
    split at h
    · obtain ⟨-, rfl⟩ := returns_pure.mp h
      exact .of_state_eq rfl
    · simp only [returns_bind, returns_saveState, returns_publish] at h
      obtain ⟨_, _, rfl, rfl⟩ := h
      refine .announce hst fun f hf => ?_
      cases f <;> first | rfl | simp [Call.settings] at hf
  -- the entrypoints that only keep records
  all_goals exact h.rel

/-- No call but `migrate` writes the schema version. -/
theorem schemaVersion_of_editsOnly {call : Call} (h : EditsOnly call.settings w w')
    (hst : w.state? = some st) (hst' : w'.state? = some st') :
    st'.schemaVersion = st.schemaVersion := by
  obtain ⟨st₁, hst₁, heq⟩ := h st hst
  obtain rfl := Option.some.inj (hst'.symm.trans hst₁)
  have hfield : StateField.schemaVersion ∉ call.settings := by
    cases call <;> simp [Call.settings]
  simpa [FactoryState.encode] using heq .schemaVersion hfield

/-- A call that does not create a token leaves the count. -/
theorem tokenCount_of_editsOnly {call : Call} (hc : StateField.tokenCount ∉ call.settings)
    (h : EditsOnly call.settings w w') (hst : w.state? = some st) (hst' : w'.state? = some st') :
    st'.tokenCount = st.tokenCount := by
  obtain ⟨st₁, hst₁, heq⟩ := h st hst
  obtain rfl := Option.some.inj (hst'.symm.trans hst₁)
  simpa [FactoryState.encode] using heq .tokenCount hc

end StellarForge.Factory
