import StellarForge.Soroban.Coupling
import StellarForge.Soroban.Lockstep
import StellarForge.Factory.Properties.ChunkedMigration
import StellarForge.Factory.Properties.CreatorLists

/-!
# A storage with entries of an older binary, and the migrated storage

`Older w v`: the storage of `w` has the records of the storage of `v`, but some of its entries may still lie
where an older binary has left them, in the instance tier, and some of the creators' lists may still be one
value.  Every function of the contract keeps the two in lockstep, except for the walk of `migrate`, which
needs that no `TokenInfo` lies in both tiers, and for the view of a creator's list.

* `Older.update`: an operation on one entry keeps the storages alike if it does so for this entry;
* `Older.append`: so does an append to a creator's list, in whichever form the list is.
-/

namespace StellarForge.Factory

open Soroban Contract Storage Collections

/-! ### Two layouts -/

/-- The keys of the creators' lists, which have a form of their own in an older storage. -/
def DataKey.isList : DataKey → Bool
  | .creatorTokens .. | .creatorTokenCount _ | .legacyCreatorTokens _ => true
  | _ => false

/-- A key whose entry is looked for in both tiers, one by one. -/
class DataKey.Entry (k : DataKey) : Prop where
  isLazy : k.isLazy = true
  isList : k.isList = false

/-- A key of the instance tier. -/
class DataKey.Plain (k : DataKey) : Prop where
  eq : k.isLazy = false

/-- The list of a creator, in either form. -/
inductive HasList (w : World) (c : Address) (l : List ℕ) : Prop
  | old (h : Unmigrated w c l) (hle : l.length ≤ U32.MAX)
  | paged (h : Paged w c l)

/-- The list of a creator in the migrated storage, where there is none before the first token. -/
inductive HasPages (v : World) (c : Address) : List ℕ → Prop
  | none (h : Unmigrated v c []) : HasPages v c []
  | paged {l : List ℕ} (h : Paged v c l) : HasPages v c l

/-- The records of `w` are those of the migrated storage `v`. -/
structure Older (w v : World) : Prop where
  plain : ∀ k : DataKey, k.isLazy = false → w.storage.inst k = v.storage.inst k
  entry : ∀ k : DataKey, k.isLazy = true → k.isList = false →
    w.storage.lookup k = v.storage.persistent k ∧ v.storage.inst k = none
  /-- An older binary has not kept the addresses by number. -/
  address : ∀ i, w.storage.inst (.tokenAddress i) = none
  list : ∀ c, ∃ l, HasList w c l ∧ HasPages v c l
  /-- Nor has it kept pages. -/
  pages : ∀ c p, w.storage.inst (.creatorTokens c p) = none ∧ v.storage.inst (.creatorTokens c p) = none
  counts : ∀ c,
    w.storage.inst (.creatorTokenCount c) = none ∧ v.storage.inst (.creatorTokenCount c) = none
  contracts : w.contracts = v.contracts
  calls : w.calls = v.calls
  events : w.events = v.events

/-- The answers of other contracts do not depend on the storage of the factory. -/
class Env.Isolated (env : Env) : Prop where
  reply_eq : ∀ {w v : World} {c : ExtCall}, w.contracts = v.contracts → w.calls = v.calls →
    w.events = v.events → (env.host w c).map Prod.fst = (env.host v c).map Prod.fst

instance (sequence : ℕ) (caller : Address) : (permissiveEnv sequence caller).Isolated where
  reply_eq _ _ _ := rfl

/-- At most the entry of `k` has changed. -/
structure OnlyEntry (k : DataKey) (w w' : World) : Prop where
  persistent : ∀ k', k' ≠ k → w'.storage.persistent k' = w.storage.persistent k'
  inst : ∀ k', k' ≠ k → w'.storage.inst k' = w.storage.inst k'
  contracts : w'.contracts = w.contracts
  calls : w'.calls = w.calls
  events : w'.events = w.events

variable {env : Env} {w v w' v' w₁ : World} {k k' : DataKey} {c c' : Address} {l : List ℕ} {i n : ℕ}
  {st : FactoryState}

section

variable {a : Address}

instance : DataKey.Entry (.tokenInfo i) := ⟨rfl, rfl⟩

instance : DataKey.Entry (.tokenIndex a) := ⟨rfl, rfl⟩

instance : DataKey.Entry (.tokenAddress i) := ⟨rfl, rfl⟩

instance : DataKey.Entry (.metadata a) := ⟨rfl, rfl⟩

instance : DataKey.Entry (.metadataVersion a) := ⟨rfl, rfl⟩

instance : DataKey.Entry (.metadataFrozen a) := ⟨rfl, rfl⟩

instance : DataKey.Entry (.owner a) := ⟨rfl, rfl⟩

instance : DataKey.Entry (.supply a) := ⟨rfl, rfl⟩

instance : DataKey.Entry (.backfilled a) := ⟨rfl, rfl⟩

instance : DataKey.Entry (.whitelist a) := ⟨rfl, rfl⟩

instance : DataKey.Plain .state := ⟨rfl⟩

instance : DataKey.Plain .split := ⟨rfl⟩

instance : DataKey.Plain .sv := ⟨rfl⟩

instance : DataKey.Plain .mig3cur := ⟨rfl⟩

end

/-- A key of a list is neither of them. -/
theorem DataKey.Entry.ne [hk : k.Entry] (h : k'.isList = true) : k' ≠ k := by
  rintro rfl
  rw [hk.isList] at h
  cases h

theorem DataKey.Plain.ne [hk : k.Plain] (h : k'.isLazy = true) : k' ≠ k := by
  rintro rfl
  rw [hk.eq] at h
  cases h

/-! ### One entry -/

namespace OnlyEntry

theorem refl (w : World) : OnlyEntry k w w := ⟨fun _ _ => rfl, fun _ _ => rfl, rfl, rfl, rfl⟩

theorem trans (h : OnlyEntry k w w₁) (h' : OnlyEntry k w₁ w') : OnlyEntry k w w' where
  persistent k' hk' := (h'.persistent k' hk').trans (h.persistent k' hk')
  inst k' hk' := (h'.inst k' hk').trans (h.inst k' hk')
  contracts := h'.contracts.trans h.contracts
  calls := h'.calls.trans h.calls
  events := h'.events.trans h.events

theorem lookup (h : OnlyEntry k w w') (hk' : k' ≠ k) : w'.storage.lookup k' = w.storage.lookup k' :=
  lookup_congr (h.persistent k' hk') (h.inst k' hk')

theorem setPersistent (x : k.Val) : OnlyEntry k w (w.setPersistent env k x) where
  persistent k' hk' := by
    rw [World.storage_setPersistent, persistent_extendTtl, persistent_setPersistent_of_ne hk']
  inst _ _ := rfl
  contracts := rfl
  calls := rfl
  events := rfl

theorem extendTtl : OnlyEntry k w (w.extendTtl env k) := ⟨fun _ _ => rfl, fun _ _ => rfl, rfl, rfl, rfl⟩

theorem removePersistent : OnlyEntry k w (w.removePersistent k) where
  persistent k' hk' := by rw [World.storage_removePersistent, persistent_removePersistent_of_ne hk']
  inst _ _ := rfl
  contracts := rfl
  calls := rfl
  events := rfl

theorem setInst (x : k.Val) : OnlyEntry k w (w.setInst k x) where
  persistent _ _ := rfl
  inst k' hk' := by rw [World.storage_setInst, inst_setInst_of_ne hk']
  contracts := rfl
  calls := rfl
  events := rfl

theorem removeInst : OnlyEntry k w (w.removeInst k) where
  persistent _ _ := rfl
  inst k' hk' := by rw [World.storage_removeInst, inst_removeInst_of_ne hk']
  contracts := rfl
  calls := rfl
  events := rfl

theorem migrateAddrKeyed : OnlyEntry k w (w.migrateAddrKeyed env k) := by
  unfold World.migrateAddrKeyed
  split
  · exact extendTtl
  · split
    · exact (setPersistent _).trans removeInst
    · exact refl w

/-- Moving an entry between the tiers touches that entry only. -/
theorem moveUp : OnlyEntry k w (w.moveUp env k) := by
  rcases hi : w.storage.inst k with _ | x
  · have hsame : w.moveUp env k = w := by
      rw [World.moveUp, World.mapStorage, moveUp_of_none hi]
    rw [hsame]
    exact refl w
  · have hmoved : w.moveUp env k = (w.setPersistent env k x).removeInst k := by
      rw [World.moveUp, World.mapStorage, moveUp_of_some hi]
      rfl
    rw [hmoved]
    exact (setPersistent x).trans removeInst

end OnlyEntry

/-! ### The creators' lists -/

/-- The entries of the creator's list are the same. -/
structure SameList (c : Address) (w w' : World) : Prop where
  legacy : w'.storage.inst (.legacyCreatorTokens c) = w.storage.inst (.legacyCreatorTokens c)
  count : w'.storage.persistent (.creatorTokenCount c) = w.storage.persistent (.creatorTokenCount c)
  pages : ∀ p, w'.storage.persistent (.creatorTokens c p) = w.storage.persistent (.creatorTokens c p)

theorem Unmigrated.congr (h : Unmigrated w c l) (hw : SameList c w w') : Unmigrated w' c l where
  list := by rw [hw.legacy, h.list]
  count := by rw [hw.count, h.count]
  pages p := by rw [hw.pages, h.pages]

theorem Paged.congr (h : Paged w c l) (hw : SameList c w w') : Paged w' c l where
  count := by rw [hw.count, h.count]
  pages p := by rw [hw.pages, h.pages]
  length_le := h.length_le

theorem HasList.congr (h : HasList w c l) (hw : SameList c w w') : HasList w' c l := by
  cases h with
  | old h hle => exact .old (h.congr hw) hle
  | paged h => exact .paged (h.congr hw)

theorem HasPages.congr (h : HasPages v c l) (hv : SameList c v v') : HasPages v' c l := by
  cases h with
  | none h => exact .none (h.congr hv)
  | paged h => exact .paged (h.congr hv)

theorem HasPages.hasList (h : HasPages v c l) : HasList v c l := by
  cases h with
  | none h => exact .old h (Nat.zero_le _)
  | paged h => exact .paged h

/-- The entry of another key is not one of a list. -/
theorem OnlyEntry.sameList (h : OnlyEntry k w w') (hk : k.isList = false) : SameList c w w' := by
  have hne (k' : DataKey) (hk' : k'.isList = true) : k' ≠ k := by
    rintro rfl
    rw [hk] at hk'
    cases hk'
  exact ⟨h.inst _ (hne _ rfl), h.persistent _ (hne _ rfl), fun p => h.persistent _ (hne _ rfl)⟩

/-! ### Operations on one entry -/

/-- **An operation on one entry of both storages.** -/
theorem Older.update [hk : k.Entry] (h : Older w v) (hw : OnlyEntry k w w') (hv : OnlyEntry k v v')
    (hsame : w'.storage.lookup k = v'.storage.persistent k) (hnone : v'.storage.inst k = none)
    (haddress : w.storage.inst k = none → w'.storage.inst k = none) : Older w' v' where
  -- the entry moved, so a key that does not move is another one
  plain k' hk' := by
    have hne : k' ≠ k := by
      rintro rfl
      rw [hk.isLazy] at hk'
      cases hk'
    rw [hw.inst k' hne, hv.inst k' hne, h.plain k' hk']
  entry k' hlazy hlist := by
    -- the entry written is equal by assumption; every other is as it was
    by_cases heq : k' = k
    · subst heq
      exact ⟨hsame, hnone⟩
    · rw [hw.lookup heq, hv.persistent k' heq, hv.inst k' heq]
      exact h.entry k' hlazy hlist
  address i := by
    by_cases heq : .tokenAddress i = k
    · subst heq
      exact haddress (h.address i)
    · rw [hw.inst _ heq, h.address i]
  list c := by
    obtain ⟨l, hl, hl'⟩ := h.list c
    exact ⟨l, hl.congr (hw.sameList hk.isList), hl'.congr (hv.sameList hk.isList)⟩
  pages c p := by
    rw [hw.inst _ (DataKey.Entry.ne rfl), hv.inst _ (DataKey.Entry.ne rfl)]
    exact h.pages c p
  counts c := by
    rw [hw.inst _ (DataKey.Entry.ne rfl), hv.inst _ (DataKey.Entry.ne rfl)]
    exact h.counts c
  contracts := by rw [hw.contracts, hv.contracts, h.contracts]
  calls := by rw [hw.calls, hv.calls, h.calls]
  events := by rw [hw.events, hv.events, h.events]

/-- An operation on a key of the instance tier. -/
theorem Older.updatePlain [hk : k.Plain] (h : Older w v) (hw : OnlyEntry k w w') (hv : OnlyEntry k v v')
    (hsame : w'.storage.inst k = v'.storage.inst k) : Older w' v' where
  plain k' hk' := by
    -- here the entry written is one that never moves
    by_cases heq : k' = k
    · subst heq
      exact hsame
    · rw [hw.inst k' heq, hv.inst k' heq, h.plain k' hk']
  entry k' hlazy hlist := by
    have hne : k' ≠ k := DataKey.Plain.ne hlazy
    rw [hw.lookup hne, hv.persistent k' hne, hv.inst k' hne]
    exact h.entry k' hlazy hlist
  address i := by rw [hw.inst _ (DataKey.Plain.ne rfl), h.address i]
  list c := by
    have hlist : k.isList = false := by
      have hlazy := hk.eq
      cases k <;> first | rfl | cases hlazy
    obtain ⟨l, hl, hl'⟩ := h.list c
    exact ⟨l, hl.congr (hw.sameList hlist), hl'.congr (hv.sameList hlist)⟩
  pages c p := by
    rw [hw.inst _ (DataKey.Plain.ne rfl), hv.inst _ (DataKey.Plain.ne rfl)]
    exact h.pages c p
  counts c := by
    rw [hw.inst _ (DataKey.Plain.ne rfl), hv.inst _ (DataKey.Plain.ne rfl)]
    exact h.counts c
  contracts := by rw [hw.contracts, hv.contracts, h.contracts]
  calls := by rw [hw.calls, hv.calls, h.calls]
  events := by rw [hw.events, hv.events, h.events]

/-- Only what other contracts or listeners see has changed, in the same way. -/
theorem Older.of_storage (h : Older w v) (hw : w'.storage = w.storage) (hv : v'.storage = v.storage)
    (hcontracts : w'.contracts = v'.contracts) (hcalls : w'.calls = v'.calls)
    (hevents : w'.events = v'.events) : Older w' v' := by
  have hlist (c : Address) : SameList c w w' := ⟨by rw [hw], by rw [hw], fun p => by rw [hw]⟩
  have hlist' (c : Address) : SameList c v v' := ⟨by rw [hv], by rw [hv], fun p => by rw [hv]⟩
  refine ⟨?_, ?_, ?_, fun c => ?_, ?_, ?_, hcontracts, hcalls, hevents⟩
  · rw [hw, hv]
    exact h.plain
  · rw [hw, hv]
    exact h.entry
  · rw [hw]
    exact h.address
  · obtain ⟨l, hl, hl'⟩ := h.list c
    exact ⟨l, hl.congr (hlist c), hl'.congr (hlist' c)⟩
  · rw [hw, hv]
    exact h.pages
  · rw [hw, hv]
    exact h.counts

/-! ### The storage helpers -/

theorem OnlyEntry.extendInstTtl : OnlyEntry k w (w.extendInstTtl env) where
  persistent _ _ := by rw [World.storage_extendInstTtl, persistent_extendInstTtl]
  inst _ _ := by rw [World.storage_extendInstTtl, inst_extendInstTtl]
  contracts := World.contracts_extendInstTtl
  calls := World.calls_extendInstTtl
  events := rfl

instance {ev : Event} : Lockstep env Older (publish ev) := by
  refine .modifyWorld fun {w v} h => h.of_storage rfl rfl h.contracts h.calls ?_
  show w.events ++ [ev] = v.events ++ [ev]
  rw [h.events]

/-- A write to the persistent tier, over whatever an older binary has left in the instance tier. -/
theorem Older.setPersistent [k.Entry] (h : Older w v) (x : k.Val) :
    Older (w.setPersistent env k x) (v.setPersistent env k x) := by
  refine h.update (.setPersistent x) (.setPersistent x) ?_ ?_ fun hnone => hnone
  · rw [lookup_of_persistent (persistent_setPersistent x), persistent_setPersistent x]
  · exact (h.entry k DataKey.Entry.isLazy DataKey.Entry.isList).2

instance [k.Entry] {x : k.Val} : Lockstep env Older (setPersistent k x) :=
  .modifyWorld fun h => h.setPersistent x

theorem Older.setInst [k.Plain] (h : Older w v) (x : k.Val) : Older (w.setInst k x) (v.setInst k x) := by
  refine h.updatePlain (.setInst x) (.setInst x) ?_
  rw [World.storage_setInst, World.storage_setInst, inst_setInst_self, inst_setInst_self]

instance [k.Plain] {x : k.Val} : Lockstep env Older (setInst k x) := .modifyWorld fun h => h.setInst x

instance [k.Plain] : Lockstep env Older (removeInst k) := by
  refine .modifyWorld fun {w v} h => h.updatePlain .removeInst .removeInst ?_
  rw [World.storage_removeInst, World.storage_removeInst, inst_removeInst_self, inst_removeInst_self]

theorem Older.extendInstTtl (h : Older w v) : Older (w.extendInstTtl env) (v.extendInstTtl env) := by
  refine h.updatePlain (k := .state) .extendInstTtl .extendInstTtl ?_
  rw [World.storage_extendInstTtl, World.storage_extendInstTtl, inst_extendInstTtl, inst_extendInstTtl]
  exact h.plain _ rfl

instance : Lockstep env Older extendInstTtl := .modifyWorld fun h => h.extendInstTtl

theorem Older.saveState (h : Older w v) : Older (w.saveState env st) (v.saveState env st) :=
  (h.setInst (k := .state) st.encode).extendInstTtl

instance : Lockstep env Older (saveState st) := .modifyWorld fun h => h.saveState

instance [hk : k.Plain] :
    @Lockstep Env World Error (no_index (Option k.Val)) env Older (getInst k) :=
  .read fun h => h.plain k hk.eq

instance : @Lockstep Env World Error (Option Address) env Older (getPersistent (.tokenAddress i)) := by
  refine .read fun {w v} h => ?_
  rw [← (h.entry (.tokenAddress i) rfl rfl).1, lookup_of_inst_none (h.address i)]

theorem Older.lookup_eq [hk : k.Entry] (h : Older w v) : w.storage.lookup k = v.storage.lookup k := by
  obtain ⟨hlookup, hnone⟩ := h.entry k hk.isLazy hk.isList
  rw [hlookup, lookup_of_inst_none hnone]

instance [k.Entry] :
    @Lockstep Env World Error (no_index (Option k.Val)) env Older (readAddrKeyed k) :=
  .read fun h => h.lookup_eq

/-- The entry of the older storage moves if it has to, that of the other stays. -/
theorem Older.migrateAddrKeyed [hk : k.Entry] (h : Older w v) :
    Older (w.migrateAddrKeyed env k) (v.migrateAddrKeyed env k) := by
  obtain ⟨hlookup, hnone⟩ := h.entry k hk.isLazy hk.isList
  have hsettled : Settles k w.storage (w.migrateAddrKeyed env k).storage := settles_migrateAddrKeyed
  have hsettled' : Settles k v.storage (v.migrateAddrKeyed env k).storage := settles_migrateAddrKeyed
  have hnone' : (v.migrateAddrKeyed env k).storage.inst k = none := by
    cases hsettled' with
    | same _ hinst => rw [hinst, hnone]
    | moved _ hinst => exact hinst
  refine h.update .migrateAddrKeyed .migrateAddrKeyed ?_ hnone' fun hi => ?_
  · rw [hsettled.lookup_eq, hlookup, ← lookup_of_inst_none hnone', hsettled'.lookup_eq,
      lookup_of_inst_none hnone]
  · cases hsettled with
    | same _ hinst => rw [hinst, hi]
    | moved _ hinst => exact hinst

instance [k.Entry] :
    @Lockstep Env World Error (no_index (Option k.Val)) env Older (migrateAddrKeyed k) := by
  have : Lockstep env Older (modifyWorld fun env w => w.migrateAddrKeyed env k : ContractM Unit) :=
    .modifyWorld fun h => h.migrateAddrKeyed
  unfold migrateAddrKeyed
  refine .getWorld (fun h => ?_) fun _ => inferInstance
  rw [h.lookup_eq]

instance : Lockstep env Older (requireAuth c) := by
  unfold requireAuth
  infer_instance

instance : Lockstep env Older loadState := by
  unfold loadState
  refine .getWorld (fun h => ?_) fun w => ?_
  · rw [h.plain .state rfl]
  · split
    · infer_instance
    · split <;> infer_instance

instance : Lockstep env Older loadUnlockedState := by
  unfold loadUnlockedState
  infer_instance

instance : Lockstep env Older loadState? := by
  unfold loadState?
  refine .andThen inferInstance fun o => ?_
  split
  · infer_instance
  · split <;> infer_instance

instance {locked : Bool} : Lockstep env Older (setLocked st locked) := by
  unfold setLocked
  infer_instance

/-! ### Appending to a list -/

/-- What is written is storage, and what leaves the instance tier is a list of the older form. -/
structure OnlyStorage (w w' : World) : Prop where
  inst : ∀ k, (∀ c, k ≠ .legacyCreatorTokens c) → w'.storage.inst k = w.storage.inst k
  contracts : w'.contracts = w.contracts
  calls : w'.calls = w.calls
  events : w'.events = w.events

namespace OnlyStorage

instance : Std.Refl OnlyStorage := ⟨fun _ => ⟨fun _ _ => rfl, rfl, rfl, rfl⟩⟩

instance : IsTrans World OnlyStorage where
  trans _ _ _ h h' :=
    ⟨fun k hk => (h'.inst k hk).trans (h.inst k hk), h'.contracts.trans h.contracts,
      h'.calls.trans h.calls, h'.events.trans h.events⟩

instance : @Moves Env World Error (no_index (Option k.Val)) OnlyStorage (getPersistent k) := by
  unfold getPersistent
  infer_instance

instance : @Moves Env World Error (no_index (Option k.Val)) OnlyStorage (getInst k) := by
  unfold getInst
  infer_instance

instance {x : k.Val} : Moves OnlyStorage (Factory.setPersistent k x) :=
  .modifyWorld fun _ _ => ⟨fun _ _ => rfl, rfl, rfl, rfl⟩

instance : Moves OnlyStorage (Factory.removeInst (.legacyCreatorTokens c)) := by
  refine .modifyWorld fun _ _ => ⟨fun k hk => ?_, rfl, rfl, rfl⟩
  rw [World.storage_removeInst, inst_removeInst_of_ne (hk c)]

instance {legacy bucket : List ℕ} : Moves OnlyStorage (migrateLegacyPages c legacy n bucket) := by
  induction legacy generalizing n bucket with
  | nil =>
    unfold migrateLegacyPages
    infer_instance
  | cons index legacy ih =>
    unfold migrateLegacyPages
    infer_instance

instance : Moves OnlyStorage (creatorTokenCount c) := by
  have : Moves OnlyStorage
      (modifyWorld fun env w => w.extendTtl env (.creatorTokenCount c) : ContractM Unit) :=
    .modifyWorld fun _ _ => ⟨fun _ _ => rfl, rfl, rfl, rfl⟩
  unfold creatorTokenCount
  refine .andThen inferInstance fun o => ?_
  split <;> infer_instance

instance : Moves OnlyStorage (appendCreatorToken c i) := by
  unfold appendCreatorToken
  infer_instance

end OnlyStorage

theorem HasList.length_le (h : HasList w c l) : l.length ≤ U32.MAX := by
  cases h with
  | old _ hle => exact hle
  | paged h => exact h.length_le

/-- Counting moves a list of the older form into pages. -/
theorem HasList.counted (h : HasList w c l) (env : Env) : ∃ w₁, Counted env w c l w₁ := by
  cases h with
  | old h hle => exact h.counted env hle
  | paged h =>
    obtain ⟨w₁, hw₁, -⟩ := h.counted env
    exact ⟨w₁, hw₁⟩

/-- An append to a list that cannot be counted any further. -/
theorem Counted.throws (h : Counted env w c l w₁) (hfull : ¬ l.length < U32.MAX) :
    ∃ w', (appendCreatorToken c i).Throws env w .arithmeticOverflow w' := by
  have hsum : U32.checkedAdd l.length 1 = none := by
    rcases hs : U32.checkedAdd l.length 1 with _ | n
    · rfl
    · rw [U32.checkedAdd_eq_some] at hs
      omega
  refine failure_eq_error.mp ?_
  rw [appendCreatorToken, h.returns.failure_bind]
  have hread : (getPersistent (.creatorTokens c (l.length / MAX_TOKENS_BY_CREATOR_PAGE))).Returns env w₁
      _ w₁ := returns_getPersistent.mpr ⟨rfl, rfl⟩
  rw [hread.failure_bind, (returns_setPersistent.mpr rfl : Returns _ env _ () _).failure_bind, hsum]
  rfl

/-- The entries of the other keys stay as they are. -/
theorem OnlyList.sameList (h : OnlyList c w w') (hc : c' ≠ c) : SameList c' w w' where
  legacy := (h _ (by simpa using hc) (by simp) (by simp)).2
  count := (h _ (by simp) (by simpa using hc) (by simp)).1.1
  pages p := (h _ (by simp) (by simp) (by simp [hc])).1.1

/-- The entry of a key that is not one of a list. -/
theorem OnlyList.entry (h : OnlyList c w w') (hk : k.isList = false) :
    w'.storage.persistent k = w.storage.persistent k ∧ w'.storage.inst k = w.storage.inst k := by
  have hne {k' : DataKey} (hk' : k'.isList = true) : k ≠ k' := by
    rintro rfl
    rw [hk] at hk'
    cases hk'
  have hsame := h k (hne rfl) (hne rfl) fun p => hne rfl
  exact ⟨hsame.1.1, hsame.2⟩

/-- The worlds after an append of the same token. -/
theorem Older.append (h : Older w v) (hw : OnlyList c w w') (hv : OnlyList c v v')
    (hstorage : OnlyStorage w w') (hstorage' : OnlyStorage v v') (hl : Paged w' c l)
    (hl' : Paged v' c l) : Older w' v' where
  plain k hk := by
    have hne (c : Address) : k ≠ .legacyCreatorTokens c := by
      rintro rfl
      cases hk
    rw [hstorage.inst k hne, hstorage'.inst k hne, h.plain k hk]
  entry k hlazy hlist := by
    obtain ⟨hpersistent, hinst⟩ := hw.entry hlist
    obtain ⟨hpersistent', hinst'⟩ := hv.entry hlist
    rw [lookup_congr hpersistent hinst, hpersistent', hinst']
    exact h.entry k hlazy hlist
  address i := by rw [hstorage.inst _ (by simp), h.address i]
  list c' := by
    -- the list that grew is paged in both worlds; the others are read as before
    by_cases hc : c' = c
    · subst hc
      exact ⟨l, .paged hl, .paged hl'⟩
    · obtain ⟨l', hl, hl'⟩ := h.list c'
      exact ⟨l', hl.congr (hw.sameList hc), hl'.congr (hv.sameList hc)⟩
  pages c p := by
    rw [hstorage.inst _ (by simp), hstorage'.inst _ (by simp)]
    exact h.pages c p
  counts c := by
    rw [hstorage.inst _ (by simp), hstorage'.inst _ (by simp)]
    exact h.counts c
  contracts := by rw [hstorage.contracts, hstorage'.contracts, h.contracts]
  calls := by rw [hstorage.calls, hstorage'.calls, h.calls]
  events := by rw [hstorage.events, hstorage'.events, h.events]

/-- **An append to the list of a creator**, whichever form it has. -/
instance : Lockstep env Older (appendCreatorToken c i) := by
  refine ⟨fun w v h => ?_⟩
  obtain ⟨l, hl, hl'⟩ := h.list c
  obtain ⟨w₁, hw₁⟩ := hl.counted env
  obtain ⟨v₁, hv₁⟩ := hl'.hasList.counted env
  by_cases hfits : l.length < U32.MAX
  · obtain ⟨w', hw', hpaged, -⟩ := hw₁.append (i := i) hfits
    obtain ⟨v', hv', hpaged', -⟩ := hv₁.append (i := i) hfits
    rw [show appendCreatorToken c i env w = some (.ok (), w') from hw',
      show appendCreatorToken c i env v = some (.ok (), v') from hv']
    exact ⟨rfl, h.append hw'.rel hv'.rel hw'.rel hv'.rel hpaged hpaged'⟩
  · obtain ⟨w', hw'⟩ := hw₁.throws (i := i) hfits
    obtain ⟨v', hv'⟩ := hv₁.throws (i := i) hfits
    rw [show appendCreatorToken c i env w = some (.error _, w') from hw',
      show appendCreatorToken c i env v = some (.error _, v') from hv']
    rfl

end StellarForge.Factory
