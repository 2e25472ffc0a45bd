import StellarForge.Factory.Properties.Pending

/-!
# Migrating a state of an earlier schema version

`encodeAt k` is the stored map of a state as the binary of schema version `k` wrote it: without the
fields that the later steps of `migrate` add.  The decoder of this binary refuses such a map, and
`migrate` begins by decoding it:

* `loadState_traps`: with an old state every function that reads the state traps;
* `not_migrates`: so `migrate` never succeeds on the states it is meant for;
* `migrates_of_currentLayout`: on a state that has all the fields already it does what it should.
-/

namespace StellarForge.Factory

open Soroban Contract

variable {env : Env} {w : World} {st : FactoryState} {k : ℕ}

/-! ### Old states -/

/-- The schema version whose step of `migrate` adds the field, or `0`. -/
def StateField.addedIn : StateField → ℕ
  | .pendingAdmin | .pendingAdminExpiry => 4
  | .pendingUpgradeHash | .pendingUpgradeReadyAt => 5
  | _ => 0

/-- The map that the binary of schema version `k` stores for a state. -/
def FactoryState.encodeAt (k : ℕ) (st : FactoryState) : StateMap :=
  fun f => if f.addedIn ≤ k then st.encode f else none

/-- What `migrate` should make of a state of version `k`: the new fields are `None`. -/
def FactoryState.migratedFrom (k : ℕ) (st : FactoryState) : FactoryState :=
  { st with
    schemaVersion := CURRENT_SCHEMA_VERSION
    pendingAdmin := if k < 4 then none else st.pendingAdmin
    pendingAdminExpiry := if k < 4 then none else st.pendingAdminExpiry
    pendingUpgradeHash := none
    pendingUpgradeReadyAt := none }

/-- The world as a binary of schema version `k` left it, with the state `st`. -/
structure OldState (k : ℕ) (st : FactoryState) (w : World) : Prop where
  state : w.storage.inst .state = some (st.encodeAt k)
  sv : w.storage.inst .sv = some k

/-- A call of `migrate` by the stored admin brings the state to the current version. -/
def Migrates (k : ℕ) (st : FactoryState) (env : Env) (w : World) : Prop :=
  ∃ w', (migrate st.admin).Returns env w () w' ∧ w'.state? = some (st.migratedFrom k) ∧
    w'.storage.inst .sv = some CURRENT_SCHEMA_VERSION

/-! ### The old layout -/

/-- An old map lacks a declared field. -/
theorem FactoryState.decode_encodeAt (hk : k < CURRENT_SCHEMA_VERSION) :
    decode (st.encodeAt k) = none := by
  have habsent : st.encodeAt k .pendingUpgradeHash = none := if_neg (Nat.not_le.mpr hk)
  exact decode_eq_none_of_absent habsent

/-- On an old state every reader of the state traps. -/
theorem loadState_traps (hw : OldState k st w) (hk : k < CURRENT_SCHEMA_VERSION) :
    loadState.Traps env w :=
  traps_loadState.mpr ⟨_, hw.state, FactoryState.decode_encodeAt hk⟩

/-- `migrate` traps on an old state, whoever calls it. -/
theorem migrate_traps (hw : OldState k st w) (hk : k < CURRENT_SCHEMA_VERSION) (admin : Address) :
    (migrate admin).Traps env w := by
  rw [migrate, traps_bind, traps_requireAuth]
  rcases hauth : env.authorized admin
  · exact .inl rfl
  · exact .inr ⟨(), w, returns_requireAuth.mpr ⟨hauth, rfl⟩, traps_bind.mpr (.inl (loadState_traps hw hk))⟩

/-- **`migrate` never succeeds on a state of schema version 3 or 4.** -/
theorem not_migrates (hk : k = 3 ∨ k = 4) (hw : OldState k st w) : ¬ Migrates k st env w := by
  rintro ⟨w', hreturns, -⟩
  exact (migrate_traps hw (by rcases hk with rfl | rfl <;> decide) st.admin).not_returns hreturns

/-! ### The current layout -/

/-- A step of the migration writes the state and the marker. -/
theorem returns_completeSchemaStep {version out : ℕ} {update : FactoryState → FactoryState}
    {w' : World} : (completeSchemaStep version update).Returns env w out w' ↔ version = out ∧
      ∃ st, w.state? = some st ∧
        (w.saveState env { update st with schemaVersion := version }).setInst .sv version = w' := by
  simp only [completeSchemaStep, returns_bind, returns_loadState, returns_saveState,
    returns_setInst, returns_pure]
  constructor
  · rintro ⟨st, _, ⟨hst, rfl⟩, _, _, rfl, _, _, rfl, rfl, rfl⟩
    exact ⟨rfl, st, hst, rfl⟩
  · rintro ⟨rfl, st, hst, rfl⟩
    exact ⟨st, w, ⟨hst, rfl⟩, (), _, rfl, (), _, rfl, rfl, rfl⟩

/-- From version 3 on `migrate` is its last two steps. -/
theorem returns_migrate_of_marker {w' : World} (hk : 3 ≤ k) (hst : w.state? = some st)
    (hsv : w.storage.inst .sv = some k) (hauth : env.authorized st.admin = true)
    (h : (migrateV4V5 k).Returns env w () w') : (migrate st.admin).Returns env w () w' := by
  simp only [migrate, returns_bind, returns_requireAuth, returns_loadState, returns_throwIf,
    returns_getInst]
  refine ⟨(), w, ⟨hauth, rfl⟩, st, w, ⟨hst, rfl⟩, (), w, ⟨not_not.mpr rfl, rfl⟩, some k, w,
    ⟨hsv, rfl⟩, ?_⟩
  have hge {n : ℕ} (hn : n ≤ 3) : ¬ k < n := Nat.not_lt.mpr (hn.trans hk)
  refine returns_ite.mpr (.inr ⟨hge (by decide), returns_bind.mpr ⟨k, w, ⟨rfl, ?_⟩⟩⟩)
  refine returns_ite.mpr (.inr ⟨hge (by decide), returns_bind.mpr ⟨k, w, ⟨rfl, ?_⟩⟩⟩)
  exact returns_ite.mpr (.inr ⟨hge (by decide), returns_bind.mpr ⟨k, w, ⟨rfl, h⟩⟩⟩)

/-- A state that has all the fields already is migrated as it should be. -/
theorem migrates_of_currentLayout (hk : k = 3 ∨ k = 4) (hst : w.state? = some st)
    (hsv : w.storage.inst .sv = some k) (hauth : env.authorized st.admin = true) :
    Migrates k st env w := by
  suffices h : ∃ w', (migrateV4V5 k).Returns env w () w' ∧ w'.state? = some (st.migratedFrom k) ∧
      w'.storage.inst .sv = some CURRENT_SCHEMA_VERSION by
    obtain ⟨w', hreturns, hmigrated⟩ := h
    have hge : 3 ≤ k := by omega
    exact ⟨w', returns_migrate_of_marker hge hst hsv hauth hreturns, hmigrated⟩
  rcases hk with rfl | rfl <;>
  · simp [migrateV4V5, returns_completeSchemaStep, returns_ite, hst]
    exact ⟨rfl, rfl⟩

/-! ### A sample migration -/

namespace SampleMigration

/-- The factory of the sample constructor as schema version 4 stores it. -/
def state : FactoryState := { SampleRun.constructorArgs.initialState with schemaVersion := 4 }

/-- A factory of version 4, under this binary. -/
def world : World :=
  (World.genesis.setInst .state (state.encodeAt 4)).setInst .sv (4 : ℕ)

theorem oldState : OldState 4 state world where
  state := rfl
  sv := rfl

end SampleMigration

/-- A factory of version 4 cannot be migrated. -/
theorem not_migrates_sampleMigration :
    ¬ Migrates 4 SampleMigration.state (permissiveEnv 10 ⟨1⟩) SampleMigration.world :=
  not_migrates (.inr rfl) SampleMigration.oldState

/-- The admin's own, authorized call of `migrate` traps on a state of version 4. -/
theorem sampleMigration_traps :
    OldState 4 SampleMigration.state SampleMigration.world ∧
      (permissiveEnv 10 ⟨1⟩).authorized SampleMigration.state.admin = true ∧
      ¬ Migrates 4 SampleMigration.state (permissiveEnv 10 ⟨1⟩) SampleMigration.world :=
  ⟨SampleMigration.oldState, rfl, fun ⟨_, hreturns, _⟩ =>
    (migrate_traps SampleMigration.oldState (by decide) _).not_returns hreturns⟩

end StellarForge.Factory
