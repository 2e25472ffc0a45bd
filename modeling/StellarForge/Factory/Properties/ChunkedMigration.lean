import StellarForge.Factory.Properties.Catalog

/-!
# The chunked walk of the schema-v3 step

* `migrate_returns`, `migrated_of_returns`: what a call of `migrate` does, and that it returns;
* `catalog_of_run`: **over any run the catalogue is what the creations and the `set_burn_enabled` calls
  have made of it**, so that no record is lost, doubled or taken back to an older value, and version 3
  is not reached while a record is left in the instance tier;
* `migration_finishes`: **the walk ends**, after a chunk for each call, and then nothing changes.
-/

namespace StellarForge.Factory

open Soroban Contract Transition Storage

variable {env : Env} {w w' w₁ : World} {st : FactoryState} {n : ℕ} {k : DataKey} {a : Address}
  {u : Unit} {h : List Invocation}

/-! ### The walk of `migrate` -/

/-- Move one `TokenInfo` entry. -/
def World.moveUp (env : Env) (k : DataKey) : World → World :=
  mapStorage fun s => s.moveUp env.sequence env.minPersistentTtl MIN_TTL MAX_TTL k

/-- One round of the walk moves one entry. -/
theorem returns_moveTokenInfos_succ {idx : ℕ} :
    (moveTokenInfos idx (n + 1)).Returns env w u w' ↔
      (moveTokenInfos (idx + 1) n).Returns env (w.moveUp env (.tokenInfo idx)) u w' := by
  rw [moveTokenInfos]
  simp only [returns_bind, returns_getInst]
  rcases hi : w.storage.inst (.tokenInfo idx) with _ | info
  · have hmove : w.moveUp env (.tokenInfo idx) = w := by
      rw [World.moveUp, World.mapStorage, moveUp_of_none hi]
    rw [hmove]
    simp
  · have hmove : w.moveUp env (.tokenInfo idx) =
        (w.setPersistent env (.tokenInfo idx) info).removeInst (.tokenInfo idx) := by
      rw [World.moveUp, World.mapStorage, moveUp_of_some hi]
      rfl
    rw [hmove]
    simp

/-- The walk always ends; it settles every entry, and leaves none of its range in the instance tier. -/
theorem walk_moveTokenInfos (env : Env) (hw : ∀ i, Single (.tokenInfo i) w.storage) (idx n : ℕ) :
    ∃ w', (moveTokenInfos idx n).Returns env w () w' ∧ Kept w w' ∧
      ∀ i, idx ≤ i → i < idx + n → w'.storage.inst (.tokenInfo i) = none := by
  induction n generalizing idx w with
  | zero =>
    refine ⟨w, ?_, .of_storage rfl, fun i h₁ h₂ => by omega⟩
    rw [moveTokenInfos]
    exact returns_pure.mpr ⟨rfl, rfl⟩
  | succ n ih =>
    -- moving one entry is kept: its content is in one of the two tiers throughout
    have hmove : Kept w (w.moveUp env (.tokenInfo idx)) := by
      refine .of_settles (fun i => ?_) (fun a => ?_) ?_ ?_
      · exact settles_moveUp fun _ => hw i
      · apply settles_moveUp
        intro hk
        cases hk
      · exact inst_moveUp_of_ne (by simp)
      · exact inst_moveUp_of_ne (by simp)
    obtain ⟨w', hreturns, hkept, hempty⟩ := ih (fun i => (hmove.info i).single (hw i)) (idx + 1)
    refine ⟨w', returns_moveTokenInfos_succ.mpr hreturns, hmove.trans hkept, fun i h₁ h₂ => ?_⟩
    by_cases hi : i = idx
    · subst hi
      exact hkept.empty inst_moveUp_self
    · exact hempty i (by omega) (by omega)

/-- Where the next call of `migrate` takes the cursor. -/
def World.nextCursor (w : World) (n : ℕ) : ℕ := min (w.cursor + MIGRATE_TOKEN_INFO_CHUNK) n

/-- What the schema-v3 step does from version `v` on, with the version that it reaches. -/
structure Walked (w : World) (st : FactoryState) (v : ℕ) (w' : World) (out : ℕ) : Prop where
  tokens : KeepsTokens w w'
  cursor : w'.cursor = w.nextCursor st.tokenCount
  empty : ∀ i, w.cursor < i → i ≤ w'.cursor → w'.storage.inst (.tokenInfo i) = none
  reached : out = if w'.cursor = st.tokenCount then 3 else v
  marker : w'.marker = out
  state : ∃ st', w'.state? = some st' ∧ st'.admin = st.admin ∧ st'.tokenCount = st.tokenCount ∧
    st'.schemaVersion = if w'.cursor = st.tokenCount then 3 else st.schemaVersion

/-- The bounds of the walk, when it does not trap. -/
theorem target_eq {cursor : ℕ} (hcursor : cursor ≤ n)
    (h : min (U32.saturatingAdd cursor MIGRATE_TOKEN_INFO_CHUNK) n < U32.MAX) :
    min (U32.saturatingAdd cursor MIGRATE_TOKEN_INFO_CHUNK) n =
        min (cursor + MIGRATE_TOKEN_INFO_CHUNK) n ∧
      U32.saturatingAdd cursor 1 = cursor + 1 := by
  unfold U32.saturatingAdd at h ⊢
  unfold MIGRATE_TOKEN_INFO_CHUNK at h ⊢
  omega

/-- Writing the cursor or the marker changes no token. -/
theorem keepsTokens_setInst {v : k.Val} (hk : k = .mig3cur ∨ k = .sv) :
    KeepsTokens w (w.setInst k v) := by
  constructor
  · intro i
    refine settles_setInst ?_
    rcases hk with rfl | rfl <;> simp
  · intro a
    refine settles_setInst ?_
    rcases hk with rfl | rfl <;> simp

/-- **One call moves a chunk of the records**, or reaches their end. -/
theorem walked_migrateV3 {v : ℕ} (env : Env) (hw : Tiered w st.tokenCount) (hst : w.state? = some st)
    (hv : w.marker = v)
    (hfits : min (U32.saturatingAdd w.cursor MIGRATE_TOKEN_INFO_CHUNK) st.tokenCount < U32.MAX) :
    ∃ out w', (migrateV3 st.tokenCount v).Returns env w out w' ∧ Walked w st v w' out := by
  obtain ⟨htarget, hfirst⟩ := target_eq hw.cursor_le hfits
  obtain ⟨w₁, hmove, hkept, hempty⟩ := walk_moveTokenInfos env (fun i => hw.single i)
    (U32.saturatingAdd w.cursor 1) (min (U32.saturatingAdd w.cursor MIGRATE_TOKEN_INFO_CHUNK)
      st.tokenCount + 1 - U32.saturatingAdd w.cursor 1)
  have hst₁ : w₁.state? = some st := (state?_of_moveTokenInfos hmove).trans hst
  let target := w.nextCursor st.tokenCount
  have hcursor : w.cursor ≤ target := le_min (Nat.le_add_right _ _) hw.cursor_le
  have hempty : ∀ i, w.cursor < i → i ≤ target → w₁.storage.inst (.tokenInfo i) = none := by
    intro i h₁ h₂
    apply hempty
    · rw [hfirst]
      omega
    · rw [hfirst, htarget]
      show i < w.cursor + 1 + (target + 1 - (w.cursor + 1))
      omega
  let w₂ := w₁.setInst .mig3cur target
  have hst₂ : w₂.state? = some st := (World.state?_setInst_of_ne (by simp)).trans hst₁
  have hwrite : KeepsTokens w₁ w₂ := keepsTokens_setInst (.inl rfl)
  have hcursor₂ : w₂.cursor = target := by
    show (w₂.storage.inst .mig3cur).getD 0 = target
    rw [World.storage_setInst, inst_setInst_self]
    rfl
  have hmarker₂ : w₂.marker = v := hkept.marker_eq.trans hv
  have hwritten : w₁.setInst .mig3cur (min (U32.saturatingAdd w.cursor MIGRATE_TOKEN_INFO_CHUNK)
      st.tokenCount) = w₂ := by
    rw [htarget]
    rfl
  by_cases hends : target = st.tokenCount
  · -- the walk has ended, and the state is stamped
    let w₃ := w₂.saveState env { { st with whitelistEnabled := false } with schemaVersion := 3 }
    have hsaved : Kept w₂ w₃ := kept_saveState _
    let w' := w₃.setInst .sv (3 : ℕ)
    have hstamp : KeepsTokens w₃ w' := keepsTokens_setInst (.inr rfl)
    have hcursor' : w'.cursor = target := hsaved.cursor_eq.trans hcursor₂
    have hlater : KeepsTokens w₁ w' := (hwrite.trans hsaved.toKeepsTokens).trans hstamp
    refine ⟨3, w', ?_, hkept.toKeepsTokens.trans hlater, hcursor', ?_, ?_, ?_, ?_⟩
    · simp only [migrateV3, returns_bind, returns_getInst, returns_trapUnless, returns_setInst,
        returns_ite, returns_pure]
      refine ⟨_, _, ⟨rfl, rfl⟩, (), w, ⟨hfits, rfl⟩, (), w₁, hmove, (), w₂, hwritten, .inl ⟨?_, ?_⟩⟩
      · exact (hends.symm.trans htarget.symm).le
      · exact returns_completeSchemaStep.mpr ⟨rfl, st, hst₂, rfl⟩
    · intro i h₁ h₂
      exact hlater.empty (hempty i h₁ (h₂.trans hcursor'.le))
    · rw [hcursor', if_pos hends]
    · show (w'.storage.inst .sv).getD 0 = 3
      rw [World.storage_setInst, inst_setInst_self]
      rfl
    · rw [hcursor', if_pos hends]
      exact ⟨_, (World.state?_setInst_of_ne (by simp)).trans World.state?_saveState, rfl, rfl, rfl⟩
  · refine ⟨v, w₂, ?_, hkept.toKeepsTokens.trans hwrite, hcursor₂, ?_, ?_, hmarker₂, ?_⟩
    · simp only [migrateV3, returns_bind, returns_getInst, returns_trapUnless, returns_setInst,
        returns_ite, returns_pure]
      refine ⟨_, _, ⟨rfl, rfl⟩, (), w, ⟨hfits, rfl⟩, (), w₁, hmove, (), w₂, hwritten,
        .inr ⟨fun hge => hends ?_, trivial, rfl⟩⟩
      have hle : st.tokenCount ≤ target := hge.trans htarget.le
      exact le_antisymm (min_le_right _ _) hle
    · intro i h₁ h₂
      exact hwrite.empty (hempty i h₁ (h₂.trans hcursor₂.le))
    · rw [hcursor₂, if_neg hends]
    · rw [hcursor₂, if_neg hends]
      exact ⟨st, hst₂, rfl, rfl, rfl⟩

/-! ### A call of `migrate` -/

/-- What a step that only stamps the state does from version `v` on. -/
structure Stamped (w : World) (st : FactoryState) (v version : ℕ) (w' : World) (out : ℕ) : Prop where
  tokens : KeepsTokens w w'
  cursor : w'.cursor = w.cursor
  reached : out = max v version
  marker : w'.marker = out
  state : ∃ st', w'.state? = some st' ∧ st'.admin = st.admin ∧ st'.tokenCount = st.tokenCount ∧
    st'.schemaVersion = if v < version then version else st.schemaVersion

/-- A later step raises the version, and keeps what the walk needs. -/
theorem stamped_step {v : ℕ} (env : Env) (version : ℕ) (update : FactoryState → FactoryState)
    (hst : w.state? = some st) (hv : w.marker = v) (hadmin : (update st).admin = st.admin)
    (hcount : (update st).tokenCount = st.tokenCount) :
    ∃ out w', (if v < version then completeSchemaStep version update else pure v).Returns env w out w' ∧
      Stamped w st v version w' out := by
  by_cases hlt : v < version
  · -- the step writes the state first and the marker after it
    let w₁ := w.saveState env { update st with schemaVersion := version }
    have hsaved : Kept w w₁ := kept_saveState _
    have hstamp : KeepsTokens w₁ (w₁.setInst .sv version) := keepsTokens_setInst (.inr rfl)
    refine ⟨version, w₁.setInst .sv version, ?_, hsaved.toKeepsTokens.trans hstamp, hsaved.cursor_eq,
      ?_, ?_, ?_⟩
    · rw [if_pos hlt]
      exact returns_completeSchemaStep.mpr ⟨rfl, st, hst, rfl⟩
    · omega
    · show ((w₁.setInst .sv version).storage.inst .sv).getD 0 = version
      rw [World.storage_setInst, inst_setInst_self]
      rfl
    · rw [if_pos hlt]
      exact ⟨_, (World.state?_setInst_of_ne (by simp)).trans World.state?_saveState, hadmin, hcount, rfl⟩
  · -- an older layout is past this step already: nothing is written
    refine ⟨v, w, ?_, .of_storage rfl, rfl, ?_, hv, ?_⟩
    · rw [if_neg hlt]
      exact returns_pure.mpr ⟨rfl, rfl⟩
    · omega
    · rw [if_neg hlt]
      exact ⟨st, hst, rfl, rfl, rfl⟩

/-- The walk of the call ends before the last entry. -/
def World.WalkPauses (w : World) (n : ℕ) : Prop := w.marker < 3 ∧ w.nextCursor n ≠ n

/-- What a call of `migrate` does. -/
structure Migrated (w : World) (st : FactoryState) (w' : World) : Prop where
  tokens : KeepsTokens w w'
  cursor : w'.cursor = if w.marker < 3 then w.nextCursor st.tokenCount else w.cursor
  empty : w.marker < 3 → ∀ i, w.cursor < i → i ≤ w'.cursor →
    w'.storage.inst (.tokenInfo i) = none
  paused : w.WalkPauses st.tokenCount → w'.marker = 2
  finished : ¬ w.WalkPauses st.tokenCount → w'.marker = max w.marker 5
  state : ∃ st', w'.state? = some st' ∧ st'.admin = st.admin ∧ st'.tokenCount = st.tokenCount ∧
    (w.WalkPauses st.tokenCount → st'.schemaVersion = if w.marker < 2 then 2 else st.schemaVersion) ∧
    (¬ w.WalkPauses st.tokenCount → st'.schemaVersion = if w.marker < 5 then 5 else st.schemaVersion)

/-- The walk of the call stays below the end of `u32`. -/
def World.WalkFits (w : World) (n : ℕ) : Prop :=
  w.marker < 3 → min (U32.saturatingAdd w.cursor MIGRATE_TOKEN_INFO_CHUNK) n < U32.MAX

/-- The last two steps. -/
theorem stamped_migrateV4V5 {v : ℕ} (env : Env) (hst : w.state? = some st) (hv : w.marker = v) (hge : 3 ≤ v) :
    ∃ w', (migrateV4V5 v).Returns env w () w' ∧ Stamped w st v 5 w' (max v 5) := by
  obtain ⟨v₄, w₄, hreturns₄, hstep₄⟩ := stamped_step env 4
    (fun s => { s with pendingAdmin := none, pendingAdminExpiry := none }) hst hv rfl rfl
  obtain ⟨st₄, hst₄, hadmin₄, hcount₄, hversion₄⟩ := hstep₄.state
  obtain ⟨v₅, w₅, hreturns₅, hstep₅⟩ := stamped_step env 5
    (fun s => { s with pendingUpgradeHash := none, pendingUpgradeReadyAt := none }) hst₄
    hstep₄.marker rfl rfl
  obtain ⟨st₅, hst₅, hadmin₅, hcount₅, hversion₅⟩ := hstep₅.state
  have hv₄ : v₄ = max v 4 := hstep₄.reached
  refine ⟨w₅, ?_, hstep₄.tokens.trans hstep₅.tokens, hstep₅.cursor.trans hstep₄.cursor, rfl, ?_, ?_⟩
  · rw [migrateV4V5, if_neg (Nat.not_lt.mpr hge)]
    refine returns_ite_bind.mpr ⟨v₄, w₄, hreturns₄, ?_⟩
    exact returns_ite_bind.mpr ⟨v₅, w₅, hreturns₅, returns_pure.mpr ⟨rfl, rfl⟩⟩
  · rw [hstep₅.marker, hstep₅.reached, hv₄]
    omega
  · refine ⟨st₅, hst₅, hadmin₅.trans hadmin₄, hcount₅.trans hcount₄, ?_⟩
    rw [hversion₅, hversion₄]
    by_cases hlt : v < 5
    · rw [if_pos hlt, if_pos (by omega)]
    · rw [if_neg hlt, if_neg (by omega), if_neg (by omega)]

/-- The first two steps only stamp the state. -/
theorem stamped_v1v2 (env : Env) (hst : w.state? = some st) :
    ∃ v₁ w₁ w₂, (if w.marker < 1 then completeSchemaStep 1 id else pure w.marker).Returns env w v₁ w₁ ∧
      (if v₁ < 2 then completeSchemaStep 2 id else pure v₁).Returns env w₁ (max w.marker 2) w₂ ∧
      Stamped w st w.marker 2 w₂ (max w.marker 2) := by
  obtain ⟨v₁, w₁, hreturns₁, hstep₁⟩ := stamped_step env 1 id hst rfl rfl rfl
  obtain ⟨st₁, hst₁, hadmin₁, hcount₁, hversion₁⟩ := hstep₁.state
  obtain ⟨v₂, w₂, hreturns₂, hstep₂⟩ := stamped_step env 2 id hst₁ hstep₁.marker rfl rfl
  obtain ⟨st₂, hst₂, hadmin₂, hcount₂, hversion₂⟩ := hstep₂.state
  have hv₁ : v₁ = max w.marker 1 := hstep₁.reached
  have hv₂ : v₂ = max w.marker 2 := by
    rw [hstep₂.reached, hv₁]
    omega
  rw [hv₂] at hreturns₂
  refine ⟨v₁, w₁, w₂, hreturns₁, hreturns₂, hstep₁.tokens.trans hstep₂.tokens,
    hstep₂.cursor.trans hstep₁.cursor, rfl, hstep₂.marker.trans hv₂, st₂, hst₂,
    hadmin₂.trans hadmin₁, hcount₂.trans hcount₁, ?_⟩
  rw [hversion₂, hversion₁, hv₁]
  by_cases hlt : w.marker < 2
  · rw [if_pos hlt, if_pos (by omega)]
  · rw [if_neg hlt, if_neg (by omega), if_neg (by omega)]

/-- A call of `migrate` that is authorized is its steps. -/
theorem returns_migrate_iff (hst : w.state? = some st) : (migrate a).Returns env w u w' ↔
    env.authorized a = true ∧ st.admin = a ∧ ∃ v₁ w₁ v₂ w₂ v₃ w₃,
      (if w.marker < 1 then completeSchemaStep 1 id else pure w.marker).Returns env w v₁ w₁ ∧
      (if v₁ < 2 then completeSchemaStep 2 id else pure v₁).Returns env w₁ v₂ w₂ ∧
      (if v₂ < 3 then migrateV3 st.tokenCount v₂ else pure v₂).Returns env w₂ v₃ w₃ ∧
      (migrateV4V5 v₃).Returns env w₃ u w' := by
  simp only [migrate, returns_bind, returns_requireAuth, returns_loadState, returns_throwIf,
    returns_getInst]
  constructor
  · rintro ⟨_, _, ⟨hauth, rfl⟩, st', _, ⟨hst', rfl⟩, _, _, ⟨hadmin, rfl⟩, _, _, ⟨rfl, rfl⟩, h⟩
    obtain rfl := Option.some.inj (hst.symm.trans hst')
    obtain ⟨v₁, w₁, h₁, h⟩ := returns_ite_bind.mp h
    obtain ⟨v₂, w₂, h₂, h⟩ := returns_ite_bind.mp h
    obtain ⟨v₃, w₃, h₃, h⟩ := returns_ite_bind.mp h
    exact ⟨hauth, not_not.mp hadmin, v₁, w₁, v₂, w₂, v₃, w₃, h₁, h₂, h₃, h⟩
  · rintro ⟨hauth, hadmin, v₁, w₁, v₂, w₂, v₃, w₃, h₁, h₂, h₃, h⟩
    refine ⟨(), w, ⟨hauth, rfl⟩, st, w, ⟨hst, rfl⟩, (), w, ⟨not_not.mpr hadmin, rfl⟩, _, w,
      ⟨rfl, rfl⟩, ?_⟩
    refine returns_ite_bind.mpr ⟨v₁, w₁, h₁, ?_⟩
    refine returns_ite_bind.mpr ⟨v₂, w₂, h₂, ?_⟩
    exact returns_ite_bind.mpr ⟨v₃, w₃, h₃, h⟩

/-- **A call of `migrate` by the admin returns**, unless the walk would reach the end of `u32`. -/
theorem migrate_returns (hw : Tiered w st.tokenCount) (hst : w.state? = some st)
    (hauth : env.authorized st.admin = true) (hfits : w.WalkFits st.tokenCount) :
    ∃ w', (migrate st.admin).Returns env w () w' ∧ Migrated w st w' := by
  obtain ⟨v₁, w₁, w₂, hreturns₁, hreturns₂, hstep₂⟩ := stamped_v1v2 env hst
  obtain ⟨st₂, hst₂, hadmin₂, hcount₂, hversion₂⟩ := hstep₂.state
  have hcursor₂ : w₂.cursor = w.cursor := hstep₂.cursor
  by_cases hlow : w.marker < 3
  · have hmax : max w.marker 2 = 2 := by omega
    rw [hmax] at hreturns₂ hstep₂
    have hw₂ : Tiered w₂ st₂.tokenCount := by
      rw [hcount₂]
      refine hstep₂.tokens.tiered hw hcursor₂ fun _ => ?_
      rw [hstep₂.marker]
      decide
    have hfits₂ : min (U32.saturatingAdd w₂.cursor MIGRATE_TOKEN_INFO_CHUNK) st₂.tokenCount
        < U32.MAX := by
      rw [hcursor₂, hcount₂]
      exact hfits hlow
    obtain ⟨v₃, w₃, hreturns₃, hwalk⟩ := walked_migrateV3 env hw₂ hst₂ hstep₂.marker hfits₂
    rw [hcount₂] at hreturns₃
    have hnext : w₂.nextCursor st₂.tokenCount = w.nextCursor st.tokenCount := by
      rw [World.nextCursor, World.nextCursor, hcursor₂, hcount₂]
    have hcursor₃ : w₃.cursor = w.nextCursor st.tokenCount := hwalk.cursor.trans hnext
    obtain ⟨st₃, hst₃, hadmin₃, hcount₃, hversion₃⟩ := hwalk.state
    have htokens : KeepsTokens w w₃ := hstep₂.tokens.trans hwalk.tokens
    have hempty (i : ℕ) (h₁ : w.cursor < i) (h₂ : i ≤ w₃.cursor) :
        w₃.storage.inst (.tokenInfo i) = none := hwalk.empty i (hcursor₂.trans_lt h₁) h₂
    have hreached := hwalk.reached
    rw [hcursor₃, hcount₂] at hreached hversion₃
    by_cases hends : w.nextCursor st.tokenCount = st.tokenCount
    · -- the walk ends, and the other steps follow
      have hno : ¬ w.WalkPauses st.tokenCount := fun hp => hp.2 hends
      rw [if_pos hends] at hreached hversion₃
      obtain ⟨w₄, hreturns₄, hstep₄⟩ := stamped_migrateV4V5 env hst₃ hwalk.marker hreached.ge
      obtain ⟨st₄, hst₄, hadmin₄, hcount₄, hversion₄⟩ := hstep₄.state
      refine ⟨w₄, ?_, htokens.trans hstep₄.tokens, ?_, ?_, fun hp => absurd hp hno, fun _ => ?_, ?_⟩
      · refine (returns_migrate_iff hst).mpr ⟨hauth, rfl, v₁, w₁, 2, w₂, v₃, w₃, hreturns₁,
          hreturns₂, ?_, hreturns₄⟩
        rw [if_pos (by decide)]
        exact hreturns₃
      · rw [if_pos hlow]
        exact hstep₄.cursor.trans hcursor₃
      · intro _ i h₁ h₂
        exact hstep₄.tokens.empty (hempty i h₁ (h₂.trans hstep₄.cursor.le))
      · rw [hstep₄.marker, hreached]
        omega
      · refine ⟨st₄, hst₄, hadmin₄.trans (hadmin₃.trans hadmin₂),
          hcount₄.trans (hcount₃.trans hcount₂), fun hp => absurd hp hno, fun _ => ?_⟩
        rw [hversion₄, hreached, if_pos (by decide), if_pos (by omega)]
    · -- the walk pauses, and nothing follows
      rw [if_neg hends] at hreached hversion₃
      refine ⟨w₃, ?_, htokens, ?_, fun _ => hempty, fun _ => ?_, fun hno => absurd ⟨hlow, hends⟩ hno, ?_⟩
      · refine (returns_migrate_iff hst).mpr ⟨hauth, rfl, v₁, w₁, 2, w₂, v₃, w₃, hreturns₁,
          hreturns₂, ?_, ?_⟩
        · rw [if_pos (by decide)]
          exact hreturns₃
        · rw [migrateV4V5, hreached, if_pos (by decide)]
          exact returns_pure.mpr ⟨rfl, rfl⟩
      · rw [if_pos hlow]
        exact hcursor₃
      · rw [hwalk.marker, hreached]
      · refine ⟨st₃, hst₃, hadmin₃.trans hadmin₂, hcount₃.trans hcount₂, fun _ => ?_,
          fun hno => absurd ⟨hlow, hends⟩ hno⟩
        rw [hversion₃, hversion₂]
  · -- the walk has ended before
    have hmax : max w.marker 2 = w.marker := by omega
    have hno : ¬ w.WalkPauses st.tokenCount := fun hp => hlow hp.1
    rw [hmax] at hreturns₂ hstep₂
    obtain ⟨w₄, hreturns₄, hstep₄⟩ := stamped_migrateV4V5 env hst₂ hstep₂.marker (Nat.not_lt.mp hlow)
    obtain ⟨st₄, hst₄, hadmin₄, hcount₄, hversion₄⟩ := hstep₄.state
    refine ⟨w₄, ?_, hstep₂.tokens.trans hstep₄.tokens, ?_, fun hlt => absurd hlt hlow,
      fun hp => absurd hp hno, fun _ => hstep₄.marker, ?_⟩
    · refine (returns_migrate_iff hst).mpr ⟨hauth, rfl, v₁, w₁, w.marker, w₂, w.marker, w₂,
        hreturns₁, hreturns₂, ?_, hreturns₄⟩
      rw [if_neg hlow]
      exact returns_pure.mpr ⟨rfl, rfl⟩
    · rw [if_neg hlow]
      exact hstep₄.cursor.trans hcursor₂
    · refine ⟨st₄, hst₄, hadmin₄.trans hadmin₂, hcount₄.trans hcount₂, fun hp => absurd hp hno,
        fun _ => ?_⟩
      rw [hversion₄, hversion₂, if_neg (by omega : ¬ w.marker < 2)]

/-- What every call of `migrate` that returns has done. -/
theorem migrated_of_returns (hw : Tiered w st.tokenCount) (hst : w.state? = some st)
    (h : (migrate a).Returns env w u w') : Migrated w st w' := by
  obtain ⟨hauth, rfl, v₁, w₁, v₂, w₂, v₃, w₃, h₁, h₂, h₃, h₄⟩ := (returns_migrate_iff hst).mp h
  have hfits : w.WalkFits st.tokenCount := by
    intro hlow
    obtain ⟨v₁', w₁', w₂', hreturns₁, hreturns₂, hstep₂⟩ := stamped_v1v2 env hst
    obtain ⟨rfl, rfl⟩ := hreturns₁.unique h₁
    obtain ⟨rfl, rfl⟩ := hreturns₂.unique h₂
    have hmax : max w.marker 2 = 2 := by omega
    rw [hmax, if_pos (by decide)] at h₃
    simp only [migrateV3, returns_bind, returns_getInst, returns_trapUnless] at h₃
    obtain ⟨_, _, ⟨rfl, rfl⟩, _, _, ⟨hfits, -⟩, -⟩ := h₃
    rw [← hstep₂.cursor]
    exact hfits
  obtain ⟨w'', hreturns, hmigrated⟩ := migrate_returns hw hst hauth hfits
  obtain ⟨-, rfl⟩ := hreturns.unique h
  exact hmigrated

/-- The invariant holds after the call. -/
theorem Migrated.tiered (h : Migrated w st w') (hw : Tiered w st.tokenCount) :
    Tiered w' st.tokenCount := by
  have hcursor := h.cursor
  refine ⟨fun i => (h.tokens.info i).single (hw.single i), fun i info hinfo => ?_, ?_⟩
  · obtain ⟨hold, -⟩ := (h.tokens.info i).inst_of_some hinfo
    obtain ⟨hahead, hle, hlow⟩ := hw.ahead i info hold
    rw [if_pos hlow] at hcursor
    have hlt : w'.cursor < i := by
      by_contra hge
      exact absurd ((h.empty hlow i hahead (Nat.not_lt.mp hge)).symm.trans hinfo) nofun
    refine ⟨hlt, hle, ?_⟩
    -- the entry is beyond the cursor, so the walk has not ended
    have hp : w.WalkPauses st.tokenCount := ⟨hlow, fun hends => by omega⟩
    rw [h.paused hp]
    decide
  · rw [hcursor]
    split_ifs
    · exact min_le_right _ _
    · exact hw.cursor_le

/-! ### Runs -/

/-- A storage whose `TokenInfo` entries may still have to be moved: each lies in one tier, there is
one for each index up to the token count, and the walk of `migrate` stands at its cursor. -/
structure Migrating (w : World) (st : FactoryState) : Prop where
  state : w.state? = some st
  tiered : Tiered w st.tokenCount
  complete : (w.catalog st.tokenCount).Complete
  version : 3 ≤ st.schemaVersion → 3 ≤ w.marker

/-- A call other than `migrate` has written the tokens that `Catalog.next` says. -/
theorem Migrating.becomes {i : Invocation} (hw : Migrating w st) (hs : Step w i w')
    (hm : ∀ admin, i.call ≠ .migrate admin) :
    Becomes w w' ((w.catalog st.tokenCount).next i) := by
  obtain ⟨env, call, ret⟩ := i
  obtain ⟨hre, h⟩ := hs
  have hre : env.NoReentry := hre
  have hedits : EditsOnly call.settings w w' := editsOnly_of_returns hm h
  obtain ⟨st', hst', -⟩ := hedits st hw.state
  have hcount (hc : StateField.tokenCount ∉ call.settings) : st'.tokenCount = st.tokenCount :=
    tokenCount_of_editsOnly hc hedits hw.state hst'
  -- only three calls write to the catalogue while a migration is on the way
  by_cases hc : call.Rewrites
  · cases call <;> try exact hc.elim
    case migrate admin => exact absurd rfl (hm admin)
    all_goals
      simp only [Call.exec, returns_wrap] at h
      obtain ⟨_, h, rfl⟩ := h
    case createToken => exact becomes_createToken hw.tiered hw.state h
    case createTokensBatch => exact becomes_createTokensBatch hw.tiered hw.state h
    case setBurnEnabled =>
      refine ⟨st', hst', ?_⟩
      rw [hcount (by simp [Call.settings])]
      exact written_setBurnEnabled hw.tiered h
  · have hkept : Kept w w' := Call.kept_of_returns hc h
    refine ⟨st', hst', ?_⟩
    have hnext : (w.catalog st.tokenCount).next ⟨env, call, ret⟩ = w.catalog st.tokenCount := by
      cases call <;> first | rfl | exact absurd trivial hc
    rw [hnext, hcount (by cases call <;> simp [Call.settings, Call.Rewrites] at hc ⊢)]
    exact hkept.written hw.tiered

/-- **One call**: the invariant is kept, and the catalogue is what the call makes of it. -/
theorem Migrating.step {i : Invocation} (hw : Migrating w st) (hs : Step w i w') :
    ∃ st', Migrating w' st' ∧
      w'.catalog st'.tokenCount = (w.catalog st.tokenCount).next i := by
  by_cases hm : ∃ admin, i.call = .migrate admin
  · obtain ⟨env, call, ret⟩ := i
    obtain ⟨admin, rfl⟩ := hm
    obtain ⟨-, h⟩ := hs
    obtain ⟨_, h, -⟩ := returns_wrap.mp h
    have hmigrated : Migrated w st w' := migrated_of_returns hw.tiered hw.state h
    obtain ⟨st', hst', -, hcount, hpaused, hfinished⟩ := hmigrated.state
    have hcatalog : w'.catalog st'.tokenCount = w.catalog st.tokenCount := by
      rw [hcount]
      exact hmigrated.tokens.catalog
    refine ⟨st', ⟨hst', ?_, ?_, fun h₃ => ?_⟩, hcatalog⟩
    · rw [hcount]
      exact hmigrated.tiered hw.tiered
    · rw [hcatalog]
      exact hw.complete
    · by_cases hp : w.WalkPauses st.tokenCount
      · -- a walk that pauses has not reached version 3
        have hlow : w.marker < 3 := hp.1
        rw [hpaused hp] at h₃
        split_ifs at h₃
        · omega
        · have hle := hw.version h₃
          omega
      · rw [hmigrated.finished hp]
        omega
  · have hm : ∀ admin, i.call ≠ .migrate admin := fun admin hcall => hm ⟨admin, hcall⟩
    obtain ⟨st', hst', hwritten⟩ := hw.becomes hs hm
    have hedits : EditsOnly i.call.settings w w' :=
      have hre : i.env.NoReentry := hs.1
      editsOnly_of_returns hm hs.2
    refine ⟨st', ⟨hst', hwritten.tiered, ?_, ?_⟩, hwritten.catalog⟩
    · rw [hwritten.catalog]
      exact hw.complete.next i
    · rw [hwritten.marker, schemaVersion_of_editsOnly hedits hw.state hst']
      exact hw.version

/-- From version 3 on nothing is left in the instance tier. -/
theorem Migrating.inst_eq_none (hw : Migrating w st) (hversion : 3 ≤ st.schemaVersion) (i : ℕ) :
    w.storage.inst (.tokenInfo i) = none := by
  rcases hi : w.storage.inst (.tokenInfo i) with _ | info
  · rfl
  · obtain ⟨-, -, hlow⟩ := hw.tiered.ahead i info hi
    have hge := hw.version hversion
    omega

/-- **The chunked walk over whole runs**: at every point the token records are what the creations and
the `set_burn_enabled` calls so far have made of them, one for each index up to the token count and in
one tier only; the cursor is within the token count, and from version 3 on no record is in the
instance tier. -/
theorem catalog_of_run {st₀ : FactoryState} {w₀ : World} (hw : Migrating w₀ st₀)
    (hr : Run Step w₀ h w) :
    ∃ st, Migrating w st ∧
      w.catalog st.tokenCount = (w₀.catalog st₀.tokenCount).replay h ∧
      w.cursor ≤ st.tokenCount ∧
      (3 ≤ st.schemaVersion → ∀ i, w.storage.inst (.tokenInfo i) = none) := by
  suffices hrun : ∃ st, Migrating w st ∧
      w.catalog st.tokenCount = (w₀.catalog st₀.tokenCount).replay h by
    obtain ⟨st, hst, hcatalog⟩ := hrun
    exact ⟨st, hst, hcatalog, hst.tiered.cursor_le, hst.inst_eq_none⟩
  induction hr with
  | nil => exact ⟨st₀, hw, rfl⟩
  | @snoc h i w w' _ hs ih =>
    obtain ⟨st, hst, hcatalog⟩ := ih
    obtain ⟨st', hst', hnext⟩ := hst.step hs
    refine ⟨st', hst', ?_⟩
    rw [hnext, hcatalog]
    rfl

/-! ### A sample walk -/

namespace SampleWalk

/-- The record of a token of the older layout. -/
def tokenInfo : TokenInfo := SampleRun.params.newInfo (permissiveEnv 10 ⟨5⟩) ⟨5⟩

/-- A state of version 2 with one token. -/
def state : FactoryState :=
  { SampleRun.constructorArgs.initialState with tokenCount := 1, schemaVersion := 2 }

/-- The token `50` of `5`, all of whose entries are in the instance tier. -/
def world₀ : World :=
  ((((World.genesis.setInst .state state.encode).setInst .sv (2 : ℕ)).setInst (.tokenInfo 1)
    tokenInfo).setInst (.tokenIndex ⟨50⟩) (1 : ℕ)).setInst (.owner ⟨50⟩) (⟨5⟩ : Address)

/-- Its owner stops burning, and the admin migrates. -/
def history : List Invocation :=
  [⟨permissiveEnv 30 ⟨1⟩, .migrate ⟨1⟩, .unit⟩,
    ⟨permissiveEnv 20 ⟨5⟩, .setBurnEnabled ⟨50⟩ ⟨5⟩ false, .unit⟩]

/-- The creator has stopped the burns of the token. -/
def world₁ : World :=
  (Call.setBurnEnabled ⟨50⟩ ⟨5⟩ false).exec.commit (permissiveEnv 20 ⟨5⟩) world₀

/-- The admin has migrated the state. -/
def world₂ : World := (Call.migrate ⟨1⟩).exec.commit (permissiveEnv 30 ⟨1⟩) world₁

theorem step₁ : Step world₀ ⟨permissiveEnv 20 ⟨5⟩, .setBurnEnabled ⟨50⟩ ⟨5⟩ false, .unit⟩ world₁ :=
  step_commit inferInstance rfl

theorem step₂ : Step world₁ ⟨permissiveEnv 30 ⟨1⟩, .migrate ⟨1⟩, .unit⟩ world₂ :=
  step_commit inferInstance rfl

theorem inst_world₀ {i : ℕ} (hi : i ≠ 1) : world₀.storage.inst (.tokenInfo i) = none := by
  simp [world₀, hi, World.genesis]

theorem migrating : Migrating world₀ state where
  state := rfl
  tiered := by
    refine ⟨fun i v _ => rfl, fun i v hv => ?_, by decide⟩
    by_cases hi : i = 1
    · rw [hi]
      decide
    · exact absurd ((inst_world₀ hi).symm.trans hv) nofun
  complete i h₁ h₂ := by
    obtain rfl : i = 1 := le_antisymm h₂ h₁
    rfl
  version h := absurd h (by decide)

end SampleWalk

/-- Burns are stopped, and the state is migrated. -/
theorem catalog_of_run_sampleWalk : ∃ st, Migrating SampleWalk.world₂ st ∧
    SampleWalk.world₂.catalog st.tokenCount = (SampleWalk.world₀.catalog 1).replay SampleWalk.history ∧
    SampleWalk.world₂.cursor ≤ st.tokenCount ∧
    (3 ≤ st.schemaVersion → ∀ i, SampleWalk.world₂.storage.inst (.tokenInfo i) = none) :=
  catalog_of_run SampleWalk.migrating (.snoc (.snoc .nil SampleWalk.step₁) SampleWalk.step₂)

/-! ### The end of the walk -/

/-- At version 5 `migrate` does nothing. -/
theorem migrate_idle (hst : w.state? = some st) (hm : 5 ≤ w.marker)
    (h : (migrate a).Returns env w u w') : w' = w := by
  obtain ⟨-, -, v₁, w₁, v₂, w₂, v₃, w₃, h₁, h₂, h₃, h₄⟩ := (returns_migrate_iff hst).mp h
  rw [if_neg (by omega)] at h₁
  obtain ⟨rfl, rfl⟩ := returns_pure.mp h₁
  rw [if_neg (by omega)] at h₂
  obtain ⟨rfl, rfl⟩ := returns_pure.mp h₂
  rw [if_neg (by omega)] at h₃
  obtain ⟨rfl, rfl⟩ := returns_pure.mp h₃
  rw [migrateV4V5, if_neg (by omega)] at h₄
  obtain ⟨v₄, w₄, h₄, h₅⟩ := returns_ite_bind.mp h₄
  rw [if_neg (by omega)] at h₄
  obtain ⟨rfl, rfl⟩ := returns_pure.mp h₄
  obtain ⟨v₅, w₅, h₅, h₆⟩ := returns_ite_bind.mp h₅
  rw [if_neg (by omega)] at h₅
  obtain ⟨rfl, rfl⟩ := returns_pure.mp h₅
  exact (returns_pure.mp h₆).2.symm

/-- A call of `migrate` by the admin, under a host that refuses re-entry. -/
structure Invocation.MigratesAs (i : Invocation) (admin : Address) : Prop where
  call : i.call = .migrate admin
  ret : i.ret = .unit
  host : i.env.NoReentry
  authorized : i.env.authorized admin = true

/-- After `k` calls of `migrate` that began in `w₀`. -/
structure AfterCalls (w₀ : World) (st₀ : FactoryState) (k : ℕ) (w : World) (st : FactoryState) : Prop where
  migrating : Migrating w st
  admin : st.admin = st₀.admin
  count : st.tokenCount = st₀.tokenCount
  cursor : w.cursor = min (w₀.cursor + MIGRATE_TOKEN_INFO_CHUNK * k) st₀.tokenCount
  waiting : k = 0 → w.marker < 3
  paused : k ≠ 0 → w.cursor ≠ st₀.tokenCount → w.marker = 2
  finished : k ≠ 0 → w.cursor = st₀.tokenCount → w.marker = 5 ∧ st.schemaVersion = 5

/-- One more call. -/
theorem AfterCalls.step {st₀ : FactoryState} {w₀ : World} {k : ℕ} {i : Invocation}
    (hw : AfterCalls w₀ st₀ k w st) (hfit : st₀.tokenCount < U32.MAX)
    (hi : i.MigratesAs st₀.admin) :
    ∃ w' st', Step w i w' ∧ AfterCalls w₀ st₀ (k + 1) w' st' := by
  obtain ⟨env, call, ret⟩ := i
  obtain ⟨rfl, rfl, hre, hauth⟩ := hi
  have hcount := hw.count
  have hfits : w.WalkFits st.tokenCount := by
    intro _
    rw [hcount]
    exact (min_le_right _ _).trans_lt hfit
  have hauth : env.authorized st.admin = true := by
    rw [hw.admin]
    exact hauth
  obtain ⟨w', hreturns, hmigrated⟩ :=
    migrate_returns hw.migrating.tiered hw.migrating.state hauth hfits
  rw [hw.admin] at hreturns
  have hstep : Step w ⟨env, .migrate st₀.admin, .unit⟩ w' :=
    ⟨hre, returns_wrap.mpr ⟨(), hreturns, rfl⟩⟩
  obtain ⟨st', hmig, -⟩ := hw.migrating.step hstep
  obtain ⟨st'', hst'', hadmin', hcount', -, hversion⟩ := hmigrated.state
  obtain rfl := Option.some.inj (hmig.state.symm.trans hst'')
  have hnext : w.nextCursor st.tokenCount =
      min (w₀.cursor + MIGRATE_TOKEN_INFO_CHUNK * (k + 1)) st₀.tokenCount := by
    rw [World.nextCursor, hw.cursor, hcount, Nat.mul_succ]
    omega
  have hcursor' := hmigrated.cursor
  by_cases hlow : w.marker < 3
  · -- the walk goes on
    rw [if_pos hlow] at hcursor'
    refine ⟨w', st', hstep, hmig, hadmin'.trans hw.admin, hcount'.trans hcount, hcursor'.trans hnext,
      nofun, fun _ hne => ?_, fun _ heq => ?_⟩
    · refine hmigrated.paused ⟨hlow, fun hends => hne ?_⟩
      rw [hcursor', hends, hcount]
    · have hno : ¬ w.WalkPauses st.tokenCount := by
        rintro ⟨-, hne⟩
        exact hne (by rw [← hcursor', heq, hcount])
      rw [hmigrated.finished hno, hversion hno, if_pos (by omega)]
      exact ⟨by omega, rfl⟩
  · -- it has ended before, and with it the migration
    have hk : k ≠ 0 := fun hk => hlow (hw.waiting hk)
    have hends : w.cursor = st₀.tokenCount := by
      by_contra hne
      have hmarker := hw.paused hk hne
      omega
    obtain ⟨hmarker, hschema⟩ := hw.finished hk hends
    have hno : ¬ w.WalkPauses st.tokenCount := fun hp => hlow hp.1
    rw [if_neg hlow] at hcursor'
    have hold := hw.cursor
    refine ⟨w', st', hstep, hmig, hadmin'.trans hw.admin, hcount'.trans hcount, ?_, nofun,
      fun _ hne => absurd (hcursor'.trans hends) hne, fun _ _ => ?_⟩
    · rw [hcursor', hends, Nat.mul_succ]
      omega
    · rw [hmigrated.finished hno, hversion hno, hmarker]
      exact ⟨rfl, hschema⟩

/-- **The migration ends**: any number of calls of `migrate` by the admin, one after the other, all
return; the cursor has then advanced by a chunk for each, the migration is finished once the chunks
cover the tokens, and a further call changes nothing at all. -/
theorem migration_finishes {st₀ : FactoryState} {w₀ : World} (hw : Migrating w₀ st₀)
    (hlow : w₀.marker < 3) (hfit : st₀.tokenCount < U32.MAX)
    (hh : ∀ i ∈ h, i.MigratesAs st₀.admin) :
    ∃ w st, Run Step w₀ h w ∧ Migrating w st ∧
      w.cursor = min (w₀.cursor + MIGRATE_TOKEN_INFO_CHUNK * h.length) st₀.tokenCount ∧
      (h ≠ [] → st₀.tokenCount ≤ w₀.cursor + MIGRATE_TOKEN_INFO_CHUNK * h.length →
        st.schemaVersion = CURRENT_SCHEMA_VERSION ∧ w.marker = CURRENT_SCHEMA_VERSION ∧
          (∀ i, w.storage.inst (.tokenInfo i) = none) ∧
          ∀ env a u w', (migrate a).Returns env w u w' → w' = w) ∧
      (w₀.cursor + MIGRATE_TOKEN_INFO_CHUNK * h.length < st₀.tokenCount → w.marker < 3) := by
  -- the run is built with an account of what the calls so far have done
  suffices hrun : ∃ w st, Run Step w₀ h w ∧ AfterCalls w₀ st₀ h.length w st by
    obtain ⟨w, st, hr, hafter⟩ := hrun
    have hcursor := hafter.cursor
    refine ⟨w, st, hr, hafter.migrating, hcursor, fun hne hle => ?_, fun hlt => ?_⟩
    · have hk : h.length ≠ 0 := fun hzero => hne (List.length_eq_zero_iff.mp hzero)
      obtain ⟨hmarker, hschema⟩ := hafter.finished hk (by omega)
      refine ⟨hschema, hmarker, hafter.migrating.inst_eq_none (by omega), fun env a u w' hm => ?_⟩
      exact migrate_idle hafter.migrating.state hmarker.ge hm
    · by_cases hk : h.length = 0
      · exact hafter.waiting hk
      · rw [hafter.paused hk (by omega)]
        decide
  -- by induction on the calls, the last one first
  induction h with
  | nil =>
    refine ⟨w₀, st₀, .nil, hw, rfl, rfl, ?_, fun _ => hlow, fun hk => absurd rfl hk,
      fun hk => absurd rfl hk⟩
    have hle := hw.tiered.cursor_le
    show w₀.cursor = min (w₀.cursor + MIGRATE_TOKEN_INFO_CHUNK * 0) st₀.tokenCount
    omega
  | cons i h ih =>
    obtain ⟨w, st, hr, hafter⟩ := ih fun j hj => hh j (List.mem_cons_of_mem _ hj)
    obtain ⟨w', st', hstep, hafter'⟩ := hafter.step hfit (hh i (List.mem_cons_self ..))
    exact ⟨w', st', hr.snoc hstep, hafter'⟩

/-! ### Two chunks -/

namespace LongWalk

/-- A state of version 2 with more tokens than one call migrates. -/
def state : FactoryState :=
  { SampleRun.constructorArgs.initialState with tokenCount := 25, schemaVersion := 2 }

/-- `n` tokens, all of whose records are in the instance tier. -/
def holding : ℕ → World
  | 0 => (World.genesis.setInst .state state.encode).setInst .sv (2 : ℕ)
  | n + 1 => (holding n).setInst (.tokenInfo (n + 1)) SampleWalk.tokenInfo

theorem persistent_holding (n i : ℕ) : (holding n).storage.persistent (.tokenInfo i) = none := by
  induction n with
  | zero => rfl
  | succ n ih => exact ih

/-- The records of the older layout. -/
theorem inst_holding (n i : ℕ) : (holding n).storage.inst (.tokenInfo i) =
    if 1 ≤ i ∧ i ≤ n then some SampleWalk.tokenInfo else none := by
  induction n with
  | zero => rw [if_neg (by omega)]; rfl
  | succ n ih =>
    show ((holding n).storage.setInst (.tokenInfo (n + 1)) SampleWalk.tokenInfo).inst (.tokenInfo i) = _
    by_cases hi : i = n + 1
    · subst hi
      rw [Storage.inst_setInst_self, if_pos (by omega)]
    · have hne : DataKey.tokenInfo i ≠ .tokenInfo (n + 1) := fun h => hi (DataKey.tokenInfo.inj h)
      rw [Storage.inst_setInst_of_ne hne, ih]
      refine if_congr ?_ rfl rfl
      omega

theorem migrating : Migrating (holding 25) state where
  state := rfl
  tiered := by
    refine ⟨fun i _ _ => persistent_holding 25 i, fun i info hinfo => ?_, by decide⟩
    rw [inst_holding] at hinfo
    split_ifs at hinfo with hi
    exact ⟨hi.1, hi.2, by decide⟩
  complete i h₁ h₂ := by
    show ((holding 25).storage.lookup (.tokenInfo i)).isSome = true
    rw [Storage.lookup_of_persistent_none (persistent_holding 25 i), inst_holding, if_pos ⟨h₁, h₂⟩]
    rfl
  version h := absurd h (by decide)

end LongWalk

/-- Two calls move the twenty-five records, and the schema is current. -/
theorem migration_finishes_sampleWalk : ∃ w st,
    Run Step (LongWalk.holding 25) [⟨permissiveEnv 40 ⟨1⟩, .migrate ⟨1⟩, .unit⟩,
      ⟨permissiveEnv 30 ⟨1⟩, .migrate ⟨1⟩, .unit⟩] w ∧ Migrating w st ∧ w.cursor = 25 ∧
      st.schemaVersion = CURRENT_SCHEMA_VERSION ∧ ∀ i, w.storage.inst (.tokenInfo i) = none := by
  have hh : ∀ i ∈ [(⟨permissiveEnv 40 ⟨1⟩, .migrate ⟨1⟩, .unit⟩ : Invocation),
      ⟨permissiveEnv 30 ⟨1⟩, .migrate ⟨1⟩, .unit⟩], i.MigratesAs LongWalk.state.admin :=
    List.forall_mem_cons.mpr
      ⟨⟨rfl, rfl, inferInstanceAs (permissiveEnv 40 ⟨1⟩).NoReentry, rfl⟩,
        List.forall_mem_singleton.mpr
          ⟨rfl, rfl, inferInstanceAs (permissiveEnv 30 ⟨1⟩).NoReentry, rfl⟩⟩
  obtain ⟨w, st, hr, hw, hcursor, hfinished, -⟩ :=
    migration_finishes LongWalk.migrating (by decide) (by decide) hh
  obtain ⟨hschema, -, hmoved, -⟩ := hfinished (List.cons_ne_nil _ _) (by decide)
  exact ⟨w, st, hr, hw, hcursor, hschema, hmoved⟩

end StellarForge.Factory
