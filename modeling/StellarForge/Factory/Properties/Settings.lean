import StellarForge.Factory.Frames
import StellarForge.Factory.Properties.Schema

/-!
# Settings and schema migration

Every step of `migrate` resets the fields that its schema version introduced.  The entrypoints that
set these fields can be called before `migrate` has run, and between its chunked calls.

* `encode_of_migrate`: what a call of `migrate` does to the stored fields;
* `settingsSurvive_iff`: **`migrate` keeps the settings of a run if and only if** no field is set
  whenever a step resets it;
* `not_settingsSurvive_sampleEnabled`: the whitelist is switched on, and `migrate` switches it off.
-/

namespace StellarForge.Factory

open Soroban Contract Transition

/-! ### What a call sets and what a step resets -/

/-- The fields of the factory state that an entrypoint sets. -/
def Call.settings : Call → List StateField
  | .setWhitelistEnabled .. => [.whitelistEnabled]
  | .createToken .. | .createTokensBatch .. => [.tokenCount]
  | .pause _ | .unpause _ => [.paused]
  | .updateFees .. => [.baseFee, .metadataFee]
  | .proposeUpgrade .. | .cancelUpgrade _ => [.pendingUpgradeHash, .pendingUpgradeReadyAt]
  | .executeUpgrade .. => [.pendingUpgradeHash, .pendingUpgradeReadyAt, .tokenWasmHash]
  | .proposeAdmin .. | .cancelAdminProposal _ | .transferAdmin .. | .updateAdmin .. =>
    [.pendingAdmin, .pendingAdminExpiry]
  | .acceptAdmin _ => [.admin, .pendingAdmin, .pendingAdminExpiry]
  | _ => []

/-- An earlier call of the history has set the field. -/
def SetIn (h : List Invocation) (f : StateField) : Prop := ∃ i ∈ h, f ∈ i.call.settings

/-- The `"sv"` marker, `0` when it is absent. -/
def World.marker (w : World) : ℕ := (w.storage.inst .sv).getD 0

/-- The walk of the schema-v3 step ends in the next call of `migrate`. -/
def World.WalkEnds (w : World) (st : FactoryState) : Prop :=
  st.tokenCount ≤
    min (U32.saturatingAdd ((w.storage.inst .mig3cur).getD 0) MIGRATE_TOKEN_INFO_CHUNK) st.tokenCount

instance {w : World} {st : FactoryState} : Decidable (w.WalkEnds st) :=
  inferInstanceAs (Decidable (_ ≤ _))

/-- The next call of `migrate` resets the field. -/
def World.Resets (w : World) (st : FactoryState) : StateField → Prop
  | .whitelistEnabled => w.marker < 3 ∧ w.WalkEnds st
  | .pendingAdmin | .pendingAdminExpiry => w.marker < 4 ∧ (3 ≤ w.marker ∨ w.WalkEnds st)
  | .pendingUpgradeHash | .pendingUpgradeReadyAt => w.marker < 5 ∧ (3 ≤ w.marker ∨ w.WalkEnds st)
  | _ => False

/-- The value that a step of `migrate` resets a field to. -/
def StateField.resetValue : StateField → ScVal
  | .whitelistEnabled => .bool false
  | _ => .void

/-! ### One call of `migrate` -/

section

variable {env : Env} {w w' w₀ : World} {st st' : FactoryState} {admin : Address} {v out : ℕ}
  {f : StateField}

/-- A step that resets the fields in `P` and stamps the state. -/
def ResetsExactly (P : StateField → Prop) (st st' : FactoryState) : Prop :=
  ∀ f ≠ .schemaVersion, (P f → st'.encode f = some f.resetValue) ∧
    (¬ P f → st'.encode f = st.encode f)

theorem ResetsExactly.refl : ResetsExactly (fun _ => False) st st :=
  fun _ _ => ⟨False.elim, fun _ => rfl⟩

/-- Two steps reset what each of them does. -/
theorem ResetsExactly.trans {P Q : StateField → Prop} {st'' : FactoryState}
    (h : ResetsExactly P st st') (h' : ResetsExactly Q st' st'') :
    ResetsExactly (fun f => P f ∨ Q f) st st'' := by
  intro f hf
  obtain ⟨hP, hnP⟩ := h f hf
  obtain ⟨hQ, hnQ⟩ := h' f hf
  constructor
  · intro hPQ
    by_cases hq : Q f
    · exact hQ hq
    · exact (hnQ hq).trans (hP (hPQ.resolve_right hq))
  · intro hno
    exact (hnQ fun hq => hno (.inr hq)).trans (hnP fun hp => hno (.inl hp))

theorem ResetsExactly.congr {P Q : StateField → Prop} (h : ResetsExactly P st st')
    (hPQ : ∀ f, P f ↔ Q f) : ResetsExactly Q st st' := by
  intro f hf
  obtain ⟨hP, hnP⟩ := h f hf
  exact ⟨fun hq => hP ((hPQ f).mpr hq), fun hq => hnP fun hp => hq ((hPQ f).mp hp)⟩

/-- A conditional step before a copy of the rest of the function. -/
theorem returns_ite_bind {α β : Type} {p : Prop} [Decidable p] {x y : ContractM α}
    {k : α → ContractM β} {b : β} : (if p then x >>= k else y >>= k).Returns env w b w' ↔
      ∃ a w₁, (if p then x else y).Returns env w a w₁ ∧ (k a).Returns env w₁ b w' := by
  split_ifs <;> exact returns_bind

/-- The walk moves entries; the state and the marker stay. -/
theorem state?_of_moveTokenInfos {idx n : ℕ} (h : (moveTokenInfos idx n).Returns env w () w') :
    w'.state? = w.state? :=
  (Returns.rel (R := Own) h).2

/-- A conditional step. -/
theorem step_of_returns {version : ℕ} {update : FactoryState → FactoryState} {P : StateField → Prop}
    (hupdate : ∀ st, ResetsExactly P st { update st with schemaVersion := version })
    (hst : w.state? = some st)
    (h : (if v < version then completeSchemaStep version update else pure v).Returns env w out w') :
    out = max v version ∧ w'.storage.inst .mig3cur = w.storage.inst .mig3cur ∧
      ∃ st', w'.state? = some st' ∧ ResetsExactly (fun f => v < version ∧ P f) st st' := by
  rcases returns_ite.mp h with ⟨hv, h⟩ | ⟨hv, h⟩
  · obtain ⟨rfl, st₁, hst₁, rfl⟩ := returns_completeSchemaStep.mp h
    obtain rfl := Option.some.inj (hst.symm.trans hst₁)
    refine ⟨(max_eq_right (Nat.le_of_lt hv)).symm, by simp, _, by simp; rfl, ?_⟩
    exact (hupdate st).congr fun f => by simp [hv]
  · obtain ⟨rfl, rfl⟩ := returns_pure.mp h
    refine ⟨(max_eq_left (Nat.not_lt.mp hv)).symm, rfl, st, hst, ?_⟩
    exact ResetsExactly.refl.congr fun f => by simp [hv]

theorem ResetsExactly.tokenCount {P : StateField → Prop} (h : ResetsExactly P st st')
    (hP : ¬ P .tokenCount) : st'.tokenCount = st.tokenCount := by
  have heq : st'.encode .tokenCount = st.encode .tokenCount := (h .tokenCount (by decide)).2 hP
  simpa [FactoryState.encode] using heq

theorem resetsExactly_stamp {version : ℕ} :
    ResetsExactly (fun _ => False) st { st with schemaVersion := version } := by
  intro f hf
  cases f <;> simp [FactoryState.encode] at hf ⊢

theorem resetsExactly_whitelist :
    ResetsExactly (· = .whitelistEnabled) st { st with whitelistEnabled := false, schemaVersion := 3 } := by
  intro f hf
  cases f <;> simp [FactoryState.encode, StateField.resetValue] at hf ⊢

theorem resetsExactly_pendingAdmin :
    ResetsExactly (fun f => f = .pendingAdmin ∨ f = .pendingAdminExpiry) st
      { st with pendingAdmin := none, pendingAdminExpiry := none, schemaVersion := 4 } := by
  intro f hf
  cases f <;> simp [FactoryState.encode, StateField.resetValue, ScVal.ofOption] at hf ⊢

theorem resetsExactly_pendingUpgrade :
    ResetsExactly (fun f => f = .pendingUpgradeHash ∨ f = .pendingUpgradeReadyAt) st
      { st with pendingUpgradeHash := none, pendingUpgradeReadyAt := none, schemaVersion := 5 } := by
  intro f hf
  cases f <;> simp [FactoryState.encode, StateField.resetValue, ScVal.ofOption] at hf ⊢

/-- The chunked step resets its field when the walk ends. -/
theorem v3_of_returns {tc : ℕ} (hst : w.state? = some st) (htc : tc = st.tokenCount)
    (h : (if v < 3 then migrateV3 tc v else pure v).Returns env w out w') :
    (out = if v < 3 ∧ w.WalkEnds st then 3 else v) ∧ ∃ st', w'.state? = some st' ∧
      ResetsExactly (fun f => (v < 3 ∧ w.WalkEnds st) ∧ f = .whitelistEnabled) st st' := by
  subst htc
  rcases returns_ite.mp h with ⟨hv, h⟩ | ⟨hv, h⟩
  · simp only [migrateV3, returns_bind, returns_getInst, returns_trapUnless, returns_setInst,
      returns_ite, returns_pure] at h
    obtain ⟨_, _, ⟨rfl, rfl⟩, _, _, ⟨-, rfl⟩, _, w₁, hmove, _, _, rfl, h⟩ := h
    -- moving token infos does not touch the state
    have hst₁ : w₁.state? = some st := (state?_of_moveTokenInfos hmove).trans hst
    -- only the chunk that ends the walk resets the flag
    rcases h with ⟨hends, h⟩ | ⟨hends, rfl, rfl⟩
    · have hends : w.WalkEnds st := hends
      obtain ⟨rfl, st₁, hst₂, rfl⟩ := returns_completeSchemaStep.mp h
      rw [World.state?_setInst_of_ne (by simp)] at hst₂
      obtain rfl := Option.some.inj (hst₁.symm.trans hst₂)
      refine ⟨(if_pos ⟨hv, hends⟩).symm, _, by simp; rfl, ?_⟩
      exact resetsExactly_whitelist.congr fun f => by simp [hv, hends]
    · have hends : ¬ w.WalkEnds st := hends
      refine ⟨(if_neg fun h => hends h.2).symm, st, ?_, ?_⟩
      · rw [World.state?_setInst_of_ne (by simp), hst₁]
      · exact ResetsExactly.refl.congr fun f => by simp [hends]
  · obtain ⟨rfl, rfl⟩ := returns_pure.mp h
    refine ⟨(if_neg fun h => hv h.1).symm, st, hst, ?_⟩
    exact ResetsExactly.refl.congr fun f => by simp [hv]

/-- What the steps to versions 4 and 5 reset. -/
theorem v4v5_of_returns (hst : w.state? = some st) (h : (migrateV4V5 v).Returns env w () w') :
    ∃ st', w'.state? = some st' ∧ ResetsExactly (fun f => 3 ≤ v ∧
      ((v < 4 ∧ (f = .pendingAdmin ∨ f = .pendingAdminExpiry)) ∨
        (v < 5 ∧ (f = .pendingUpgradeHash ∨ f = .pendingUpgradeReadyAt)))) st st' := by
  rw [migrateV4V5] at h
  rcases returns_ite.mp h with ⟨hv, h⟩ | ⟨hv, h⟩
  · obtain ⟨-, rfl⟩ := returns_pure.mp h
    refine ⟨st, hst, ResetsExactly.refl.congr fun f => ?_⟩
    simp only [Nat.not_le.mpr hv, false_and]
  · have hv : 3 ≤ v := Nat.not_lt.mp hv
    obtain ⟨v₄, w₁, h₄, h⟩ := returns_ite_bind.mp h
    obtain ⟨v₅, w₂, h₅, h⟩ := returns_ite_bind.mp h
    obtain ⟨-, rfl⟩ := returns_pure.mp h
    obtain ⟨rfl, -, st₁, hst₁, hreset₁⟩ :=
      step_of_returns (fun _ => resetsExactly_pendingAdmin) hst h₄
    obtain ⟨-, -, st₂, hst₂, hreset₂⟩ :=
      step_of_returns (fun _ => resetsExactly_pendingUpgrade) hst₁ h₅
    refine ⟨st₂, hst₂, (hreset₁.trans hreset₂).congr fun f => ?_⟩
    simp only [hv, true_and, Nat.max_lt, show (4 : ℕ) < 5 by decide, and_true]

/-- **What a call of `migrate` does to the stored fields**: those that it resets have their reset
value, and the others, the version aside, are unchanged. -/
theorem encode_of_migrate (h : (migrate admin).Returns env w () w') (hst : w.state? = some st) :
    ∃ st', w'.state? = some st' ∧ ResetsExactly (w.Resets st) st st' := by
  simp only [migrate, returns_bind, returns_requireAuth, returns_loadState, returns_throwIf,
    returns_getInst] at h
  obtain ⟨_, _, ⟨-, rfl⟩, st', _, ⟨hst', rfl⟩, _, _, ⟨-, rfl⟩, _, _, ⟨rfl, rfl⟩, h⟩ := h
  obtain rfl := Option.some.inj (hst.symm.trans hst')
  obtain ⟨v₁, w₁, h₁, h⟩ := returns_ite_bind.mp h
  obtain ⟨v₂, w₂, h₂, h⟩ := returns_ite_bind.mp h
  obtain ⟨v₃, w₃, h₃, h⟩ := returns_ite_bind.mp h
  obtain ⟨rfl, hcur₁, st₁, hst₁, hreset₁⟩ := step_of_returns (fun _ => resetsExactly_stamp) hst h₁
  obtain ⟨rfl, hcur₂, st₂, hst₂, hreset₂⟩ := step_of_returns (fun _ => resetsExactly_stamp) hst₁ h₂
  have hcount₁ : st₁.tokenCount = st.tokenCount := hreset₁.tokenCount (by simp)
  have hcount₂ : st₂.tokenCount = st.tokenCount := (hreset₂.tokenCount (by simp)).trans hcount₁
  obtain ⟨rfl, st₃, hst₃, hreset₃⟩ := v3_of_returns hst₂ hcount₂.symm h₃
  obtain ⟨st₄, hst₄, hreset₄⟩ := v4v5_of_returns hst₃ h
  have hends : w₂.WalkEnds st₂ ↔ w.WalkEnds st := by
    rw [World.WalkEnds, World.WalkEnds, hcur₂, hcur₁, hcount₂]
  refine ⟨st₄, hst₄, (((hreset₁.trans hreset₂).trans hreset₃).trans hreset₄).congr fun f => ?_⟩
  have hmarker : ((w.storage.inst .sv).getD 0) = w.marker := rfl
  simp only [hends, hmarker]
  -- the first two steps bring the version to at least 2
  rcases Nat.lt_or_ge w.marker 3 with hlow | hhigh
  · have hmax : max (max w.marker 1) 2 = 2 := by omega
    have h₄ : w.marker < 4 := by omega
    have h₅ : w.marker < 5 := by omega
    by_cases he : w.WalkEnds st <;> cases f <;>
      simp [World.Resets, hmax, he, hlow, h₄, h₅, Nat.not_le.mpr hlow]
  · have hmax : max (max w.marker 1) 2 = w.marker := by omega
    cases f <;> simp [World.Resets, hmax, hhigh, Nat.not_lt.mpr hhigh]

/-! ### Runs -/

/-- No call of `migrate` in the run changes a field, the version aside, that an earlier call set. -/
def SettingsSurvive (w₀ : World) (h : List Invocation) : Prop :=
  ∀ h₁ h₂ i w w' st, h = h₂ ++ i :: h₁ → Run Step w₀ h₁ w → Step w i w' →
    (∃ admin, i.call = .migrate admin) → w.state? = some st →
    ∃ st', w'.state? = some st' ∧ ∀ f ≠ .schemaVersion, SetIn h₁ f → st'.encode f = st.encode f

/-- Whenever a call of `migrate` in the run resets a field that an earlier call set, the field has
the reset value already. -/
def UnsetWhenReset (w₀ : World) (h : List Invocation) : Prop :=
  ∀ h₁ h₂ i w w' st, h = h₂ ++ i :: h₁ → Run Step w₀ h₁ w → Step w i w' →
    (∃ admin, i.call = .migrate admin) → w.state? = some st →
    ∀ f, SetIn h₁ f → w.Resets st f → st.encode f = some f.resetValue

theorem encode_of_migrate_step {i : Invocation} (hs : Step w i w') (hi : i.call = .migrate admin)
    (hst : w.state? = some st) : ∃ st', w'.state? = some st' ∧ ResetsExactly (w.Resets st) st st' := by
  obtain ⟨-, hreturns⟩ := hs
  rw [hi] at hreturns
  obtain ⟨_, hmigrate, -⟩ := returns_wrap.mp hreturns
  exact encode_of_migrate hmigrate hst

/-- The version is not among the fields that a call sets. -/
theorem ne_schemaVersion_of_setIn {h : List Invocation} (hf : SetIn h f) : f ≠ .schemaVersion := by
  rintro rfl
  obtain ⟨i, -, hmem⟩ := hf
  rcases hcall : i.call <;> simp [hcall, Call.settings] at hmem

/-- **Settings survive migration** in a run if and only if no setting of an earlier call is still in
force when a step of `migrate` resets its field. -/
theorem settingsSurvive_iff {h : List Invocation} : SettingsSurvive w₀ h ↔ UnsetWhenReset w₀ h := by
  constructor
  · intro hsurvive h₁ h₂ i w w' st heq hr hs hi hst f hf hreset
    obtain ⟨admin, hcall⟩ := id hi
    obtain ⟨st', hst', hall⟩ := hsurvive h₁ h₂ i w w' st heq hr hs hi hst
    obtain ⟨st'', hst'', hexact⟩ := encode_of_migrate_step hs hcall hst
    obtain rfl := Option.some.inj (hst'.symm.trans hst'')
    have hne := ne_schemaVersion_of_setIn hf
    rw [← hall f hne hf]
    exact (hexact f hne).1 hreset
  · intro hunset h₁ h₂ i w w' st heq hr hs hi hst
    obtain ⟨admin, hcall⟩ := id hi
    obtain ⟨st', hst', hexact⟩ := encode_of_migrate_step hs hcall hst
    refine ⟨st', hst', fun f hne hf => ?_⟩
    by_cases hreset : w.Resets st f
    · rw [(hexact f hne).1 hreset, hunset h₁ h₂ i w w' st heq hr hs hi hst f hf hreset]
    · exact (hexact f hne).2 hreset

end

/-! ### The whitelist is switched off -/

namespace SampleSettings

/-- A factory in the current layout whose marker stands at 2. -/
def world₀ : World :=
  (World.genesis.setInst .state
    { SampleRun.constructorArgs.initialState with schemaVersion := 2 }.encode).setInst .sv (2 : ℕ)

/-- The whitelist is enforced, and the state is migrated. -/
def history : List Invocation :=
  [⟨permissiveEnv 20 ⟨1⟩, .migrate ⟨1⟩, .unit⟩,
    ⟨permissiveEnv 10 ⟨1⟩, .setWhitelistEnabled ⟨1⟩ true, .unit⟩]

/-- The admin has had the whitelist enforced. -/
def world₁ : World := (Call.setWhitelistEnabled ⟨1⟩ true).exec.commit (permissiveEnv 10 ⟨1⟩) world₀

/-- The admin has migrated the state. -/
def world₂ : World := (Call.migrate ⟨1⟩).exec.commit (permissiveEnv 20 ⟨1⟩) world₁

theorem step₁ : Step world₀ ⟨permissiveEnv 10 ⟨1⟩, .setWhitelistEnabled ⟨1⟩ true, .unit⟩ world₁ :=
  step_commit inferInstance rfl

theorem step₂ : Step world₁ ⟨permissiveEnv 20 ⟨1⟩, .migrate ⟨1⟩, .unit⟩ world₂ :=
  step_commit inferInstance rfl

end SampleSettings

/-- `set_whitelist_enabled(true)`, then `migrate`: the whitelist is off. -/
theorem not_settingsSurvive_sampleEnabled :
    SampleSettings.world₀.state?.isSome ∧ SampleSettings.world₀.marker = 2 ∧
      ¬ SettingsSurvive SampleSettings.world₀ SampleSettings.history := by
  refine ⟨rfl, rfl, fun hsurvive => ?_⟩
  have hst : ∃ st, SampleSettings.world₁.state? = some st ∧ st.whitelistEnabled = true :=
    ⟨_, rfl, rfl⟩
  obtain ⟨st, hst, henabled⟩ := hst
  obtain ⟨st', hst', hall⟩ := hsurvive _ [] _ _ _ st rfl (.snoc .nil SampleSettings.step₁)
    SampleSettings.step₂ ⟨_, rfl⟩ hst
  have hkept : st'.encode .whitelistEnabled = st.encode .whitelistEnabled :=
    hall .whitelistEnabled (by decide) ⟨_, List.mem_singleton_self _, List.mem_singleton_self _⟩
  have hoff : ∃ st, SampleSettings.world₂.state? = some st ∧ st.whitelistEnabled = false :=
    ⟨_, rfl, rfl⟩
  obtain ⟨st'', hst'', hdisabled⟩ := hoff
  obtain rfl := Option.some.inj (hst'.symm.trans hst'')
  simp [FactoryState.encode, henabled, hdisabled] at hkept

end StellarForge.Factory
