import StellarForge.Factory.Reentry.Guarded

/-!
# What no nested call can do

`heldCount` is the token count while the lock is held.  No call changes it, however deep the calls
nested in it: a call made while the lock is held neither releases the lock nor counts a token, and a
call made while it is free leaves it free (`Env.Reentrant.heldCount_eq`).

The guarded entrypoints do not return while the lock is held; the others write back what they have
read.
-/

namespace StellarForge.Factory

open Soroban Contract Transition

/-- The token count while the lock is held, nothing while it is free. -/
def heldCount : Option FactoryState → Option (Option ℕ) :=
  Option.map fun st => if st.locked then some st.tokenCount else none

/-- The lock stays as it is, and so does the token count while the lock is held. -/
def KeepsHeld (w w' : World) : Prop := heldCount w'.state? = heldCount w.state?

variable {env : Env} {nested : CallLog → List NestedCall} {w w' w₁ : World} {st st' : FactoryState}
  {u : Unit}

theorem Own.keepsHeld (h : Own w w') : KeepsHeld w w' := congrArg heldCount h.2

theorem KeepsHeld.trans (h : KeepsHeld w w₁) (h' : KeepsHeld w₁ w') : KeepsHeld w w' :=
  Eq.trans h' h

instance : OwnFrame KeepsHeld where
  refl _ := rfl
  trans _ _ _ := .trans
  own := Own.keepsHeld

theorem heldCount_free (h : st.locked = false) : heldCount (some st) = some none := by
  simp [heldCount, h]

/-- Writing back the state that was read, but for fields that do not matter here. -/
theorem KeepsHeld.saveState (hst : w.state? = some st) (hl : st'.locked = st.locked)
    (hc : st'.tokenCount = st.tokenCount) : KeepsHeld w (w.saveState env st') := by
  rw [KeepsHeld, World.state?_saveState, hst]
  simp only [heldCount, Option.map_some, hl, hc]

/-- The same with the event that announces it. -/
theorem KeepsHeld.announce {ev : Event} (hst : w.state? = some st) (hl : st'.locked = st.locked)
    (hc : st'.tokenCount = st.tokenCount) : KeepsHeld w ((w.saveState env st').publish ev) :=
  .trans (.saveState hst hl hc) (Own.keepsHeld ⟨World.calls_publish, World.state?_publish⟩)

/-! ### Nested calls that keep it -/

/-- The nested calls keep what `heldCount` says. -/
def NestedKeep (nested : CallLog → List NestedCall) : Prop :=
  ∀ log, ∀ n ∈ nested log, ∀ w w', NestedStep w n w' → KeepsHeld w w'

theorem NestedKeep.of_mem {n : NestedCall} {log ext : CallLog} {s s' : Option FactoryState}
    (hn : NestedKeep nested) (hmem : n ∈ nestedDuring nested log ext) (h : StateStep s n s') :
    heldCount s' = heldCount s := by
  obtain ⟨log', hlog'⟩ := mem_nestedDuring hmem
  obtain ⟨w, w', hstep, rfl, rfl⟩ := h
  exact hn log' n hlog' w w' hstep

theorem Explains.keepsHeld (hn : NestedKeep nested) (h : Explains nested w w') :
    KeepsHeld w w' := by
  obtain ⟨ext, -, hrun⟩ := h
  exact hrun.frame fun hmem hstep => hn.of_mem hmem hstep

/-- A guarded call was made, and has left the lock, free. -/
theorem Guards.keepsHeld {count : ℕ} (hn : NestedKeep nested) (h : Guards nested w st count w') :
    KeepsHeld w w' := by
  obtain @⟨_, w₁, w₃, hbefore, hst, hunlocked, -, hreleased, -⟩ := h
  have hfree : heldCount w.state? = some none := by
    rw [← hbefore.keepsHeld hn, hst, heldCount_free hunlocked]
  rw [KeepsHeld, hfree, hreleased.2, World.state?_saveState]
  rfl

/-! ### Schema migration -/

@[simp] theorem throws_loadState {r : Error} : loadState.Throws env w r w' ↔
    w.storage.inst .state = none ∧ .stateNotFound = r ∧ w = w' := by
  simp only [loadState, throws_bind, returns_getWorld, throws_getWorld, false_or]
  rcases hm : w.storage.inst .state with _ | m
  · simp [hm, eq_comm]
  · rcases hd : FactoryState.decode m with _ | st₀
    · simp [hm, hd, Throws, trap]
    · simp [hm, hd]

theorem keepsHeld_completeSchemaStep {version : ℕ} {update : FactoryState → FactoryState}
    (hl : ∀ st, (update st).locked = st.locked)
    (hc : ∀ st, (update st).tokenCount = st.tokenCount) :
    Moves KeepsHeld (completeSchemaStep version update) where
  rel {env w r w'} h := by
    rcases r with e | a
    · have h : (completeSchemaStep version update).Throws env w e w' := h
      simp [completeSchemaStep, saveState, setInst] at h
      obtain ⟨-, -, rfl⟩ := h
      exact Std.Refl.refl _
    · have h : (completeSchemaStep version update).Returns env w a w' := h
      simp only [completeSchemaStep, returns_bind, returns_loadState, returns_saveState,
        returns_setInst, returns_pure] at h
      obtain ⟨st, _, ⟨hst, rfl⟩, _, _, rfl, _, _, rfl, -, rfl⟩ := h
      have hsave : KeepsHeld w (w.saveState env { update st with schemaVersion := version }) :=
        .saveState hst (hl st) (hc st)
      exact hsave.trans (Own.keepsHeld ⟨World.calls_setInst, World.state?_setInst_of_ne DataKey.Other.ne⟩)

instance {admin : Address} : Moves KeepsHeld (migrate admin) := by
  have h₁ : Moves KeepsHeld (completeSchemaStep 1 id) :=
    keepsHeld_completeSchemaStep (fun _ => rfl) fun _ => rfl
  have h₂ : Moves KeepsHeld (completeSchemaStep 2 id) :=
    keepsHeld_completeSchemaStep (fun _ => rfl) fun _ => rfl
  have h₃ : Moves KeepsHeld
      (completeSchemaStep 3 fun s => { s with whitelistEnabled := false }) :=
    keepsHeld_completeSchemaStep (fun _ => rfl) fun _ => rfl
  have h₄ : Moves KeepsHeld
      (completeSchemaStep 4 fun s => { s with pendingAdmin := none, pendingAdminExpiry := none }) :=
    keepsHeld_completeSchemaStep (fun _ => rfl) fun _ => rfl
  have h₅ : Moves KeepsHeld (completeSchemaStep 5 fun s =>
      { s with pendingUpgradeHash := none, pendingUpgradeReadyAt := none }) :=
    keepsHeld_completeSchemaStep (fun _ => rfl) fun _ => rfl
  have hv3 (tokenCount version : ℕ) : Moves KeepsHeld (migrateV3 tokenCount version) := by
    unfold migrateV3
    iterate 4 refine .andThen inferInstance fun _ => ?_
    split_ifs
    · exact h₃
    · infer_instance
  have hv45 (version : ℕ) : Moves KeepsHeld (migrateV4V5 version) := by
    unfold migrateV4V5
    infer_instance
  unfold migrate
  iterate 4 refine .andThen inferInstance fun _ => ?_
  -- each conditional step stands before a copy of the rest of the function
  dsimp only
  split_ifs <;>
  · refine .andThen inferInstance fun _ => ?_
    split_ifs <;> infer_instance

/-! ### The entrypoints -/

/-- An upgrade keeps the lock as it is. -/
theorem keepsHeld_executeUpgrade {admin : Address} {hash : BytesN32} (hn : NestedKeep nested)
    (henv : env.Reenters nested) (h : (executeUpgrade admin hash).Returns env w u w') :
    KeepsHeld w w' := by
  simp only [executeUpgrade, returns_bind, returns_requireAuth, returns_loadState, returns_throwIf,
    returns_okOr, returns_getEnv, returns_saveState, returns_publish] at h
  obtain ⟨_, _, ⟨-, rfl⟩, st, _, ⟨hst, rfl⟩, _, _, ⟨-, rfl⟩, _, _, ⟨-, rfl⟩, h⟩ := h
  obtain ⟨_, _, ⟨-, rfl⟩, _, _, ⟨-, rfl⟩, _, _, ⟨-, rfl⟩, _, _, ⟨-, rfl⟩, h⟩ := h
  obtain ⟨_, _, rfl, _, _, rfl, hcode⟩ := h
  have hcode : Explains nested _ w' := .of_returns henv hcode
  refine .trans ?_ (hcode.keepsHeld hn)
  exact .announce hst rfl rfl

theorem keepsHeld_proposeAdmin {currentAdmin newAdmin : Address}
    (h : (proposeAdmin currentAdmin newAdmin).Returns env w u w') : KeepsHeld w w' := by
  simp only [proposeAdmin, returns_bind, returns_requireAuth, returns_loadState, returns_throwIf,
    returns_okOr, returns_getEnv, returns_saveState, returns_publish] at h
  obtain ⟨_, _, ⟨-, rfl⟩, st, _, ⟨hst, rfl⟩, _, _, ⟨-, rfl⟩, _, _, ⟨-, rfl⟩, h⟩ := h
  obtain ⟨_, _, ⟨-, rfl⟩, _, _, ⟨-, rfl⟩, _, _, rfl, rfl⟩ := h
  exact .announce hst rfl rfl

theorem keepsHeld_proposeAdminViaLegacyAlias {currentAdmin newAdmin : Address} {name : Symbol}
    {r : AdminRotationReceipt}
    (h : (proposeAdminViaLegacyAlias currentAdmin newAdmin name).Returns env w r w') :
    KeepsHeld w w' := by
  simp only [proposeAdminViaLegacyAlias, returns_bind, returns_loadState, returns_publish,
    returns_pure] at h
  obtain ⟨_, _, hpropose, _, _, ⟨-, rfl⟩, _, _, rfl, -, rfl⟩ := h
  exact .trans (keepsHeld_proposeAdmin hpropose) Own.publish.keepsHeld

theorem keepsHeld_setBurnEnabled {token admin : Address} {enabled : Bool}
    (h : (setBurnEnabled token admin enabled).Returns env w u w') : KeepsHeld w w' := by
  simp only [setBurnEnabled, returns_bind, returns_requireAuth, returns_loadUnlockedState,
    returns_throwIf, returns_setLocked, returns_setPersistent, returns_pure] at h
  obtain ⟨_, _, ⟨-, rfl⟩, st, _, ⟨hst, hunlocked, rfl⟩, _, w₁, hcreator, _, _, ⟨-, rfl⟩, h⟩ := h
  obtain ⟨_, w₂, hreg, _, _, ⟨rfl, rfl⟩, _, _, rfl, _, _, ⟨-, rfl⟩, -, rfl⟩ := h
  rw [KeepsHeld, World.state?_saveState, hst, heldCount_free hunlocked]
  rfl

/-- **No call changes `heldCount`**, if no call nested in it does. -/
theorem keepsHeld_of_returns {call : Call} {ret : Ret} (hn : NestedKeep nested)
    (henv : env.Reenters nested) (h : call.exec.Returns env w ret w') : KeepsHeld w w' := by
  cases call <;> simp only [Call.exec, returns_wrap] at h
  case view v => exact h.rel
  all_goals obtain ⟨_, h, -⟩ := h
  -- the guarded entrypoints
  case createToken =>
    obtain ⟨st, count, hg⟩ := guards_createToken henv h
    exact hg.keepsHeld hn
  case createTokensBatch =>
    obtain ⟨st, count, hg⟩ := guards_createTokensBatch henv h
    exact hg.keepsHeld hn
  case setMetadata =>
    obtain ⟨st, count, hg⟩ := guards_setMetadata henv h
    exact hg.keepsHeld hn
  case mintTokens =>
    obtain ⟨st, count, hg⟩ := guards_mintTokens henv h
    exact hg.keepsHeld hn
  case burn =>
    obtain ⟨st, count, hg⟩ | ⟨w₁, -, hbefore, hafter⟩ := guards_burn henv h
    · exact hg.keepsHeld hn
    · exact (hbefore.trans hafter).keepsHeld hn
  case setBurnEnabled => exact keepsHeld_setBurnEnabled h
  -- the entrypoints that write back what they have read
  case executeUpgrade => exact keepsHeld_executeUpgrade hn henv h
  case proposeAdmin => exact keepsHeld_proposeAdmin h
  case transferAdmin => exact keepsHeld_proposeAdminViaLegacyAlias h
  case updateAdmin => exact keepsHeld_proposeAdminViaLegacyAlias h
  case migrate => exact h.rel
  case setWhitelistEnabled =>
    simp only [Factory.setWhitelistEnabled, returns_bind, returns_requireAuth, returns_loadState,
      returns_throwIf, returns_saveState, returns_publish] at h
    obtain ⟨_, _, ⟨-, rfl⟩, st, _, ⟨hst, rfl⟩, _, _, ⟨-, rfl⟩, _, _, rfl, rfl⟩ := h
    exact .announce hst rfl rfl
  case pause =>
    simp only [Factory.pause, returns_bind, returns_requireAuth, returns_loadState,
      returns_throwIf, returns_saveState, returns_publish] at h
    obtain ⟨_, _, ⟨-, rfl⟩, st, _, ⟨hst, rfl⟩, _, _, ⟨-, rfl⟩, _, _, rfl, rfl⟩ := h
    exact .announce hst rfl rfl
  case unpause =>
    simp only [Factory.unpause, returns_bind, returns_requireAuth, returns_loadState,
      returns_throwIf, returns_saveState, returns_publish] at h
    obtain ⟨_, _, ⟨-, rfl⟩, st, _, ⟨hst, rfl⟩, _, _, ⟨-, rfl⟩, _, _, rfl, rfl⟩ := h
    exact .announce hst rfl rfl
  case updateFees =>
    simp only [Factory.updateFees, returns_bind, returns_requireAuth, returns_loadState,
      returns_throwIf, returns_saveState, returns_publish] at h
    obtain ⟨_, _, ⟨-, rfl⟩, st, _, ⟨hst, rfl⟩, _, _, ⟨-, rfl⟩, _, w₁, hbase, h⟩ := h
    obtain ⟨_, w₂, hmeta, _, _, rfl, rfl⟩ := h
    have hown : Own w w₂ := .trans hbase.rel hmeta.rel
    exact .trans hown.keepsHeld (.announce (hown.2.trans hst) rfl rfl)
  case proposeUpgrade =>
    simp only [Factory.proposeUpgrade, returns_bind, returns_requireAuth, returns_loadState,
      returns_throwIf, returns_getEnv, returns_okOr, returns_saveState, returns_publish] at h
    obtain ⟨_, _, ⟨-, rfl⟩, st, _, ⟨hst, rfl⟩, _, _, ⟨-, rfl⟩, _, _, ⟨-, rfl⟩, h⟩ := h
    obtain ⟨_, _, ⟨-, rfl⟩, _, _, rfl, rfl⟩ := h
    exact .announce hst rfl rfl
  case cancelUpgrade =>
    simp only [Factory.cancelUpgrade, returns_bind, returns_requireAuth, returns_loadState,
      returns_throwIf] at h
    obtain ⟨_, _, ⟨-, rfl⟩, st, _, ⟨hst, rfl⟩, _, _, ⟨-, rfl⟩, h⟩ := h
    split at h
    · obtain ⟨-, rfl⟩ := returns_pure.mp h
      rfl
    · simp only [returns_bind, returns_saveState, returns_publish] at h
      obtain ⟨_, _, rfl, rfl⟩ := h
      exact .announce hst rfl rfl
  case acceptAdmin =>
    simp only [Factory.acceptAdmin, returns_bind, returns_requireAuth, returns_loadState,
      returns_throwIf, returns_okOr, returns_getEnv, returns_saveState, returns_publish] at h
    obtain ⟨_, _, ⟨-, rfl⟩, st, _, ⟨hst, rfl⟩, _, _, ⟨-, rfl⟩, _, _, ⟨-, rfl⟩, h⟩ := h
    obtain ⟨_, _, ⟨-, rfl⟩, _, _, ⟨-, rfl⟩, _, _, rfl, rfl⟩ := h
    exact .announce hst rfl rfl
  case cancelAdminProposal =>
    simp only [Factory.cancelAdminProposal, returns_bind, returns_requireAuth, returns_loadState,
      returns_throwIf] at h
    obtain ⟨_, _, ⟨-, rfl⟩, st, _, ⟨hst, rfl⟩, _, _, ⟨-, rfl⟩, h⟩ := h
    split at h
    · obtain ⟨-, rfl⟩ := returns_pure.mp h
      rfl
    · simp only [returns_bind, returns_saveState, returns_publish] at h
      obtain ⟨_, _, rfl, rfl⟩ := h
      exact .announce hst rfl rfl
  -- the entrypoints that only keep records
  all_goals exact h.rel

/-- A nested call keeps what the call itself keeps, since it is rolled back where it fails. -/
theorem NestedStep.keepsHeld {n : NestedCall}
    (hn : ∀ ret, n.call.exec.Returns n.env w ret w' → KeepsHeld w w') (h : NestedStep w n w') :
    KeepsHeld w w' := by
  by_cases hret : ∃ ret w₁, n.call.exec.Returns n.env w ret w₁
  · obtain ⟨ret, w₁, hret⟩ := hret
    obtain rfl := hret.commit_eq.symm.trans h.commit
    exact hn ret hret
  · have hno : ∀ ret w₁, ¬ n.call.exec.Returns n.env w ret w₁ := fun ret w₁ h => hret ⟨ret, w₁, h⟩
    obtain rfl := (commit_of_not_returns hno).symm.trans h.commit
    rfl

/-- **However deep the nesting, the lock stays as it is and no token is counted under it.** -/
theorem Env.Reentrant.keepsHeld (henv : env.Reentrant) {call : Call} {ret : Ret}
    (h : call.exec.Returns env w ret w') : KeepsHeld w w' := by
  induction henv generalizing call ret w w' with
  | intro nested hre _ ih =>
    refine keepsHeld_of_returns (fun log n hmem w w' hstep => ?_) hre h
    exact hstep.keepsHeld fun ret hret => ih log n hmem hret

theorem NestedKeep.of_reentrant (hn : ∀ log, ∀ n ∈ nested log, n.env.Reentrant) :
    NestedKeep nested :=
  fun log n hmem _ _ hstep => hstep.keepsHeld fun _ hret => (hn log n hmem).keepsHeld hret

end StellarForge.Factory
