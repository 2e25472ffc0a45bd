import StellarForge.Soroban.Tiers
import StellarForge.Factory.Properties.StateFrame

/-!
# The catalogue of tokens, whichever tier its entries lie in

The `TokenInfo` and `TokenIndex` entries of an older binary lie in the instance tier.  `migrate` moves
the former in chunks, the other entrypoints move those that they use, and between the chunks any call
may come: creations raise the number of tokens, `set_burn_enabled` rewrites an entry that may lie in
either tier.

`Catalog` is what the entries say, and `Catalog.next` what a call makes of it.  `Tiered w n` is what
every call preserves: an entry lies in one tier only, and the entries up to the cursor of `migrate` have
moved.  `Kept` is the frame of the calls that leave the tokens alone (`Call.kept_of_returns`); the
others write the tokens that `Catalog.next` says (`written_setBurnEnabled`, `becomes_createToken`,
`becomes_createTokensBatch`).
-/

namespace StellarForge.Factory

open Soroban Contract Transition Storage

/-! ### The catalogue -/

/-- The registered tokens, whichever tier their entries lie in. -/
@[ext] structure Catalog where
  info : ℕ → Option TokenInfo
  index : Address → Option ℕ
  count : ℕ

/-- The `TokenInfo` that the creation paths write. -/
def BatchTokenParams.newInfo (env : Env) (creator : Address) (p : BatchTokenParams) : TokenInfo where
  name := p.name
  symbol := p.symbol
  decimals := p.decimals
  creator := creator
  createdAt := env.timestamp
  burnEnabled := true
  maxSupply := p.maxSupply

namespace Catalog

/-- One more token. -/
def push (token : Address) (info : TokenInfo) (c : Catalog) : Catalog where
  info := Function.update c.info (c.count + 1) (some info)
  index := Function.update c.index token (some (c.count + 1))
  count := c.count + 1

/-- The tokens of a batch, in order. -/
def pushAll (env : Env) (creator : Address) : List BatchTokenParams → List Address → Catalog → Catalog
  | p :: ps, a :: as, c => pushAll env creator ps as (c.push a (p.newInfo env creator))
  | _, _, c => c

/-- The record of one index replaced. -/
def setInfo (i : ℕ) (info : TokenInfo) (c : Catalog) : Catalog where
  info := Function.update c.info i (some info)
  index := c.index
  count := c.count

/-- The flag of one token set. -/
def setBurnEnabled (token : Address) (enabled : Bool) (c : Catalog) : Catalog :=
  match c.index token with
  | none => c
  | some i =>
    match c.info i with
    | none => c
    | some info => c.setInfo i { info with burnEnabled := enabled }

/-- What a call makes of the catalogue: `migrate` is not mentioned. -/
def next (c : Catalog) (i : Invocation) : Catalog :=
  match i.call, i.ret with
  | .createToken creator p _, .address a => c.push a (p.newInfo i.env creator)
  | .createTokensBatch creator ps _, .addresses as => c.pushAll i.env creator ps as
  | .setBurnEnabled token _ enabled, _ => c.setBurnEnabled token enabled
  | _, _ => c

/-- What the calls of a history make of the catalogue, most recent first. -/
def replay (h : List Invocation) (c : Catalog) : Catalog := h.foldr (fun i c => c.next i) c

/-- The indices up to the count are taken. -/
def Complete (c : Catalog) : Prop := ∀ i, 1 ≤ i → i ≤ c.count → (c.info i).isSome = true

end Catalog

/-- The catalogue of `n` tokens. -/
def World.catalog (w : World) (n : ℕ) : Catalog where
  info i := w.storage.lookup (.tokenInfo i)
  index a := w.storage.lookup (.tokenIndex a)
  count := n

/-- The `"mig3cur"` cursor, `0` when it is absent. -/
def World.cursor (w : World) : ℕ := (w.storage.inst .mig3cur).getD 0

/-- No `TokenInfo` entry lies in both tiers; those in the instance tier are ahead of the cursor, and
there are none from version 3 on. -/
structure Tiered (w : World) (n : ℕ) : Prop where
  single : ∀ i, Single (.tokenInfo i) w.storage
  ahead : ∀ i info, w.storage.inst (.tokenInfo i) = some info →
    w.cursor < i ∧ i ≤ n ∧ w.marker < 3
  cursor_le : w.cursor ≤ n

variable {env : Env} {w w' w₁ : World} {st : FactoryState} {n i : ℕ} {k : DataKey}
  {creator token a : Address} {p : BatchTokenParams} {info : TokenInfo} {u : Unit}

/-! ### The catalogue over a history -/

/-- A complete catalog stays complete with a new token. -/
theorem Catalog.Complete.push {c : Catalog} (hc : c.Complete) : (c.push token info).Complete := by
  intro i h₁ h₂
  show (Function.update c.info (c.count + 1) (some info) i).isSome = true
  by_cases hi : i = c.count + 1
  · rw [hi, Function.update_self]
    rfl
  · rw [Function.update_of_ne hi]
    have hle : i ≤ c.count + 1 := h₂
    exact hc i h₁ (by omega)

theorem Catalog.Complete.pushAll {ps : List BatchTokenParams} {as : List Address} {c : Catalog}
    (hc : c.Complete) : (c.pushAll env creator ps as).Complete := by
  induction ps generalizing as c with
  | nil => exact hc
  | cons p ps ih =>
    rcases as with _ | ⟨a, as⟩
    · exact hc
    · exact ih hc.push

/-- A complete catalog stays complete with another record. -/
theorem Catalog.Complete.setInfo {c : Catalog} (hc : c.Complete) : (c.setInfo i info).Complete := by
  intro j h₁ h₂
  show (Function.update c.info i (some info) j).isSome = true
  by_cases hj : j = i
  · rw [hj, Function.update_self]
    rfl
  · rw [Function.update_of_ne hj]
    exact hc j h₁ h₂

theorem Catalog.Complete.setBurnEnabled {c : Catalog} {enabled : Bool} (hc : c.Complete) :
    (c.setBurnEnabled token enabled).Complete := by
  unfold Catalog.setBurnEnabled
  split
  · exact hc
  · split
    · exact hc
    · exact hc.setInfo

theorem Catalog.Complete.next {c : Catalog} (hc : c.Complete) (i : Invocation) :
    (c.next i).Complete := by
  unfold Catalog.next
  split
  · exact hc.push
  · exact hc.pushAll
  · exact hc.setBurnEnabled
  · exact hc

/-! ### Calls that leave the tokens alone -/

/-- No `TokenInfo` and no `TokenIndex` entry has changed, though some may have moved. -/
structure KeepsTokens (w w' : World) : Prop where
  info : ∀ i, Settles (.tokenInfo i) w.storage w'.storage
  index : ∀ a, Settles (.tokenIndex a) w.storage w'.storage

/-- Nor has the walk gone on. -/
structure Kept (w w' : World) : Prop extends KeepsTokens w w' where
  cursor : w'.storage.inst .mig3cur = w.storage.inst .mig3cur
  marker : w'.storage.inst .sv = w.storage.inst .sv

/-- The keys of the tokens and of the walk. -/
def DataKey.Tracked : DataKey → Prop
  | .tokenInfo _ | .tokenIndex _ | .mig3cur | .sv => True
  | _ => False

theorem KeepsTokens.of_storage (hw : w'.storage = w.storage) : KeepsTokens w w' := by
  constructor <;>
  · intro
    rw [hw]
    exact .refl _

theorem KeepsTokens.trans (h : KeepsTokens w w₁) (h' : KeepsTokens w₁ w') : KeepsTokens w w' :=
  ⟨fun i => (h.info i).trans (h'.info i), fun a => (h.index a).trans (h'.index a)⟩

/-- Nothing moves to the instance tier. -/
theorem KeepsTokens.empty (h : KeepsTokens w w') (hi : w.storage.inst (.tokenInfo i) = none) :
    w'.storage.inst (.tokenInfo i) = none := by
  rcases hv : w'.storage.inst (.tokenInfo i) with _ | v
  · rfl
  · obtain ⟨hold, -⟩ := (h.info i).inst_of_some hv
    exact absurd (hi.symm.trans hold) nofun

theorem KeepsTokens.catalog (h : KeepsTokens w w') : w'.catalog n = w.catalog n :=
  Catalog.ext (funext fun i => (h.info i).lookup_eq) (funext fun a => (h.index a).lookup_eq) rfl

/-- The walk has not gone on. -/
theorem KeepsTokens.tiered (h : KeepsTokens w w') (hw : Tiered w n) (hcursor : w'.cursor = w.cursor)
    (hmarker : w.marker < 3 → w'.marker < 3) : Tiered w' n where
  single i := (h.info i).single (hw.single i)
  ahead i info hinfo := by
    obtain ⟨hold, -⟩ := (h.info i).inst_of_some hinfo
    obtain ⟨hahead, hle, hlt⟩ := hw.ahead i info hold
    exact ⟨hcursor.trans_lt hahead, hle, hmarker hlt⟩
  cursor_le := hcursor.trans_le hw.cursor_le

namespace Kept

theorem of_storage (hw : w'.storage = w.storage) : Kept w w' :=
  ⟨.of_storage hw, by rw [hw], by rw [hw]⟩

theorem trans (h : Kept w w₁) (h' : Kept w₁ w') : Kept w w' :=
  ⟨h.toKeepsTokens.trans h'.toKeepsTokens, h'.cursor.trans h.cursor, h'.marker.trans h.marker⟩

/-- An operation that settles every tracked key. -/
theorem of_settles (hinfo : ∀ i, Settles (.tokenInfo i) w.storage w'.storage)
    (hindex : ∀ a, Settles (.tokenIndex a) w.storage w'.storage)
    (hcursor : w'.storage.inst .mig3cur = w.storage.inst .mig3cur)
    (hmarker : w'.storage.inst .sv = w.storage.inst .sv) : Kept w w' :=
  ⟨⟨hinfo, hindex⟩, hcursor, hmarker⟩

theorem cursor_eq (h : Kept w w') : w'.cursor = w.cursor := by
  rw [World.cursor, World.cursor, h.cursor]

theorem marker_eq (h : Kept w w') : w'.marker = w.marker := by
  rw [World.marker, World.marker, h.marker]

/-- An invariant of every call that leaves the tokens alone. -/
theorem tiered (h : Kept w w') (hw : Tiered w n) : Tiered w' n :=
  h.toKeepsTokens.tiered hw h.cursor_eq fun hlt => h.marker_eq.trans_lt hlt

end Kept

instance : Std.Refl Kept := ⟨fun _ => .of_storage rfl⟩

instance : IsTrans World Kept := ⟨fun _ _ _ => .trans⟩

/-- The lazy move of one entry settles all of them. -/
theorem settles_migrateAddrKeyed {k' : DataKey} :
    Settles k' w.storage (w.migrateAddrKeyed env k).storage := by
  unfold World.migrateAddrKeyed
  rcases hp : w.storage.persistent k with _ | v
  · rcases hi : w.storage.inst k with _ | v
    · exact .refl _
    · have hmove : ((w.setPersistent env k v).removeInst k).storage =
          w.storage.moveUp env.sequence env.minPersistentTtl MIN_TTL MAX_TTL k := by
        rw [moveUp_of_some hi]
        rfl
      dsimp only
      rw [hmove]
      apply settles_moveUp
      rintro rfl v' -
      exact hp
  · exact settles_extendTtl

/-- Migrating one entry leaves the others in instance storage. -/
theorem inst_migrateAddrKeyed_of_ne {k' : DataKey} (hk : k' ≠ k) :
    (w.migrateAddrKeyed env k).storage.inst k' = w.storage.inst k' := by
  unfold World.migrateAddrKeyed
  split
  · rfl
  · split
    · rw [World.storage_removeInst, inst_removeInst_of_ne hk]
      rfl
    · rfl

instance : BaseFrame Kept where
  publish _ _ := .of_storage rfl
  addContract _ _ := .of_storage rfl
  extendTtl _ _ := .of_settles (fun _ => settles_extendTtl) (fun _ => settles_extendTtl) rfl rfl
  extendInstTtl _ := by
    refine .of_settles (fun _ => ?_) (fun _ => ?_) ?_ ?_
    · rw [World.storage_extendInstTtl]
      exact settles_extendInstTtl
    · rw [World.storage_extendInstTtl]
      exact settles_extendInstTtl
    · rw [World.storage_extendInstTtl, inst_extendInstTtl]
    · rw [World.storage_extendInstTtl, inst_extendInstTtl]
  migrateAddrKeyed {w} env k hk := by
    have hcursor : DataKey.mig3cur ≠ k := by
      rintro rfl
      cases hk
    have hmarker : DataKey.sv ≠ k := by
      rintro rfl
      cases hk
    exact .of_settles (fun _ => settles_migrateAddrKeyed) (fun _ => settles_migrateAddrKeyed)
      (inst_migrateAddrKeyed_of_ne hcursor) (inst_migrateAddrKeyed_of_ne hmarker)

/-- Writes of the other keys. -/
theorem Kept.mayWrite (hk : ¬ k.Tracked) : MayWrite Kept k := by
  -- no tracked key is `k`
  have hinfo (i : ℕ) : DataKey.tokenInfo i ≠ k := by
    rintro rfl
    exact hk trivial
  have hindex (a : Address) : DataKey.tokenIndex a ≠ k := by
    rintro rfl
    exact hk trivial
  have hcursor : DataKey.mig3cur ≠ k := by
    rintro rfl
    exact hk trivial
  have hmarker : DataKey.sv ≠ k := by
    rintro rfl
    exact hk trivial
  constructor
  · intro w env v
    exact .of_settles (fun i => (settles_setPersistent (hinfo i)).trans settles_extendTtl)
      (fun a => (settles_setPersistent (hindex a)).trans settles_extendTtl) rfl rfl
  · intro w
    exact .of_settles (fun i => settles_removePersistent (hinfo i))
      (fun a => settles_removePersistent (hindex a)) rfl rfl
  · intro w v
    exact .of_settles (fun i => settles_setInst (hinfo i)) (fun a => settles_setInst (hindex a))
      (inst_setInst_of_ne hcursor) (inst_setInst_of_ne hmarker)
  · intro w
    exact .of_settles (fun i => settles_removeInst (hinfo i))
      (fun a => settles_removeInst (hindex a)) (inst_removeInst_of_ne hcursor)
      (inst_removeInst_of_ne hmarker)

instance : MayWrite Kept .state := Kept.mayWrite id

instance : CreatedFrame Kept := ⟨fun _ _ _ _ => ⟨.of_storage rfl⟩⟩

instance : MetaFrame Kept := ⟨fun _ _ _ => ⟨.of_storage rfl⟩⟩

instance : ListFrame Kept :=
  ⟨fun _ _ => Kept.mayWrite id, fun _ => Kept.mayWrite id, fun _ => Kept.mayWrite id⟩

instance : EntryFrame Kept where
  tokenAddress _ := Kept.mayWrite id
  metadata _ := Kept.mayWrite id
  metadataVersion _ := Kept.mayWrite id
  metadataFrozen _ := Kept.mayWrite id
  owner _ := Kept.mayWrite id
  supply _ := Kept.mayWrite id
  backfilled _ := Kept.mayWrite id
  whitelist _ := Kept.mayWrite id
  split := Kept.mayWrite id

instance {c : ExtCall} : MayCall RefusesReentry Kept c where
  tryCall := by
    refine ⟨fun henv h => ?_⟩
    unfold tryCall at h
    split at h
    case h_1 r s hhost =>
      obtain ⟨-, rfl⟩ := Prod.mk.inj (Option.some.inj h)
      exact .of_storage (henv.storage_eq hhost)
    case h_2 =>
      obtain ⟨-, rfl⟩ := Prod.mk.inj (Option.some.inj h)
      exact .of_storage rfl

instance : PaymentFrame RefusesReentry Kept := ⟨inferInstance⟩

instance : CreationFrame RefusesReentry Kept := ⟨inferInstance, inferInstance, inferInstance⟩

instance : BurnFrame RefusesReentry Kept := ⟨inferInstance, inferInstance⟩

theorem Kept.of_returns [henv : env.NoReentry] {α : Type} {x : ContractM α} {v : α}
    [MovesIn RefusesReentry Kept x] (h : x.Returns env w v w') : Kept w w' :=
  h.relIn (E := RefusesReentry) henv

/-- Saving a state leaves the entries alone. -/
theorem kept_saveState (w : World) : Kept w (w.saveState env st) := by
  have h : Moves Kept (saveState st) := inferInstance
  exact h.rel rfl

/-- The calls that do something to the tokens or to the walk. -/
def Call.Rewrites : Call → Prop
  | .createToken .. | .createTokensBatch .. | .setBurnEnabled .. | .migrate _ => True
  | _ => False

/-- The others only move entries. -/
theorem Call.kept_of_returns [env.NoReentry] {call : Call} {ret : Ret} (hc : ¬ call.Rewrites)
    (h : call.exec.Returns env w ret w') : Kept w w' := by
  have : MovesIn RefusesReentry Kept call.exec := by
    cases call with
    | createToken | createTokensBatch | setBurnEnabled | migrate => exact absurd trivial hc
    | view v => exact inferInstanceAs (MovesIn _ _ v.exec)
    | _ => exact inferInstanceAs (MovesIn _ _ (wrap _ _))
  exact .of_returns h

/-! ### `set_burn_enabled` -/

/-- Writing the record of a token whose entry is not in the instance tier. -/
theorem Tiered.setInfo (hw : Tiered w n) (hi : w.storage.inst (.tokenInfo i) = none) :
    Tiered (w.setPersistent env (.tokenInfo i) info) n where
  single j v hv := by
    have hv : w.storage.inst (.tokenInfo j) = some v := hv
    have hne : DataKey.tokenInfo j ≠ .tokenInfo i := by
      intro heq
      obtain rfl := DataKey.tokenInfo.inj heq
      exact absurd (hi.symm.trans hv) nofun
    rw [World.storage_setPersistent, persistent_extendTtl, persistent_setPersistent_of_ne hne]
    exact hw.single j v hv
  ahead := hw.ahead
  cursor_le := hw.cursor_le

/-- Writing a record is writing it in the catalog. -/
theorem catalog_setInfo :
    (w.setPersistent env (.tokenInfo i) info).catalog n = (w.catalog n).setInfo i info := by
  refine Catalog.ext (funext fun j => ?_) rfl rfl
  show (w.setPersistent env (.tokenInfo i) info).storage.lookup (.tokenInfo j) =
    Function.update (w.catalog n).info i (some info) j
  by_cases hj : j = i
  · subst hj
    rw [Function.update_self]
    apply lookup_of_persistent
    rw [World.storage_setPersistent, persistent_extendTtl, persistent_setPersistent_self]
  · have hne : DataKey.tokenInfo j ≠ .tokenInfo i := fun heq => hj (DataKey.tokenInfo.inj heq)
    rw [Function.update_of_ne hj]
    apply lookup_congr
    · rw [World.storage_setPersistent, persistent_extendTtl, persistent_setPersistent_of_ne hne]
    · rfl

/-- Once an entry has been looked up for a change, it is not in the instance tier. -/
theorem inst_migrateAddrKeyed_self (hs : Single k w.storage) :
    (w.migrateAddrKeyed env k).storage.inst k = none := by
  unfold World.migrateAddrKeyed
  rcases hp : w.storage.persistent k with _ | v
  · rcases hi : w.storage.inst k with _ | v
    · exact hi
    · exact inst_removeInst_self
  · rcases hi : w.storage.inst k with _ | v'
    · exact hi
    · rw [hs v' hi] at hp
      cases hp

/-- There are `n` tokens now, and the catalogue is `c`. -/
structure Written (w w' : World) (n : ℕ) (c : Catalog) : Prop where
  tiered : Tiered w' n
  catalog : w'.catalog n = c
  marker : w'.marker = w.marker

theorem Kept.written (h : Kept w w') (hw : Tiered w n) : Written w w' n (w.catalog n) :=
  ⟨h.tiered hw, h.catalog, h.marker_eq⟩

/-- A part that leaves the tokens alone, before. -/
theorem Written.of_kept {c : Catalog} (h : Kept w w₁) (h' : Written w₁ w' n c) : Written w w' n c :=
  ⟨h'.tiered, h'.catalog, h'.marker.trans h.marker_eq⟩

/-- And after. -/
theorem Written.kept {c : Catalog} (h : Written w w₁ n c) (h' : Kept w₁ w') : Written w w' n c :=
  ⟨h'.tiered h.tiered, h'.catalog.trans h.catalog, h'.marker_eq.trans h.marker⟩

/-- Looking up a token moves its two entries. -/
theorem tiered_registeredToken {r : ℕ × TokenInfo} (hw : Tiered w n)
    (h : (registeredToken token).Returns env w r w') :
    Kept w w' ∧ w'.storage.inst (.tokenInfo r.1) = none ∧
      (w.catalog n).index token = some r.1 ∧ (w.catalog n).info r.1 = some r.2 := by
  have hkept : Kept w w' := h.rel
  simp only [registeredToken, returns_bind, returns_migrateAddrKeyed, returns_okOr,
    returns_pure] at h
  obtain ⟨_, _, ⟨hindex, rfl⟩, i, _, ⟨rfl, rfl⟩, _, _, ⟨hinfo, rfl⟩, info, _, ⟨rfl, rfl⟩, rfl, rfl⟩ := h
  have hfirst : Kept w (w.migrateAddrKeyed env (.tokenIndex token)) :=
    BaseFrame.migrateAddrKeyed env rfl
  refine ⟨hkept, ?_, hindex, ?_⟩
  · exact inst_migrateAddrKeyed_self ((hfirst.tiered hw).single i)
  · exact (hfirst.info i).lookup_eq.symm.trans hinfo

/-- What `set_burn_enabled` does to the catalog. -/
theorem written_setBurnEnabled {admin : Address} {enabled : Bool} (hw : Tiered w n)
    (h : (setBurnEnabled token admin enabled).Returns env w u w') :
    Written w w' n ((w.catalog n).setBurnEnabled token enabled) := by
  simp only [setBurnEnabled, returns_bind, returns_requireAuth, returns_loadUnlockedState,
    returns_throwIf, returns_setLocked, returns_setPersistent, returns_pure] at h
  obtain ⟨_, _, ⟨-, rfl⟩, st, _, ⟨-, -, rfl⟩, _, w₁, hcreator, _, _, ⟨-, rfl⟩, h⟩ := h
  obtain ⟨⟨i, info⟩, w₂, hreg, _, _, ⟨rfl, rfl⟩, _, _, rfl, _, _, ⟨-, rfl⟩, -, rfl⟩ := h
  have hcreator : Kept w w₁ := hcreator.rel
  obtain ⟨hreg, hempty, hindex, hinfo⟩ := tiered_registeredToken (hcreator.tiered hw) hreg
  have hbefore : Kept w (w₂.saveState env { st with locked := true }) :=
    (hcreator.trans hreg).trans (kept_saveState _)
  have hempty' : (w₂.saveState env { st with locked := true }).storage.inst (.tokenInfo i) = none := by
    rw [World.storage_saveState, inst_extendInstTtl, inst_setInst_of_ne (by simp)]
    exact hempty
  -- one token info is written, at the number the registry has for the token
  have hset : Written w ((w₂.saveState env { st with locked := true }).setPersistent env (.tokenInfo i)
      { info with burnEnabled := enabled }) n ((w.catalog n).setBurnEnabled token enabled) := by
    refine .of_kept hbefore ⟨(hbefore.tiered hw).setInfo hempty', ?_, rfl⟩
    rw [catalog_setInfo, hbefore.catalog]
    rw [hcreator.catalog] at hindex hinfo
    unfold Catalog.setBurnEnabled
    rw [hindex]
    dsimp only at hinfo ⊢
    rw [hinfo]
  exact hset.kept (kept_saveState _)

/-! ### Creations -/

/-- The entry of a new token. -/
theorem Tiered.push (hw : Tiered w n) :
    Tiered (w.setPersistent env (.tokenInfo (n + 1)) info) (n + 1) := by
  have hempty : w.storage.inst (.tokenInfo (n + 1)) = none := by
    rcases hi : w.storage.inst (.tokenInfo (n + 1)) with _ | v
    · rfl
    · have hle : n + 1 ≤ n := (hw.ahead _ _ hi).2.1
      omega
  have hset : Tiered (w.setPersistent env (.tokenInfo (n + 1)) info) n := hw.setInfo hempty
  refine ⟨hset.single, fun i v hv => ?_, hset.cursor_le.trans (Nat.le_succ n)⟩
  obtain ⟨hahead, hle, hmarker⟩ := hset.ahead i v hv
  exact ⟨hahead, hle.trans (Nat.le_succ n), hmarker⟩

/-- The write of an index entry. -/
theorem tiered_setIndex (hw : Tiered w n) :
    Tiered (w.setPersistent env (.tokenIndex token) i) n where
  single j v hv := by
    have hne : DataKey.tokenInfo j ≠ .tokenIndex token := by simp
    rw [World.storage_setPersistent, persistent_extendTtl, persistent_setPersistent_of_ne hne]
    exact hw.single j v hv
  ahead := hw.ahead
  cursor_le := hw.cursor_le

/-- Writing an index is writing it in the catalog. -/
theorem catalog_setIndex : (w.setPersistent env (.tokenIndex token) i).catalog n =
    { w.catalog n with index := Function.update (w.catalog n).index token (some i) } := by
  refine Catalog.ext (funext fun j => ?_) (funext fun b => ?_) rfl
  · have hne : DataKey.tokenInfo j ≠ .tokenIndex token := by simp
    apply lookup_congr
    · rw [World.storage_setPersistent, persistent_extendTtl, persistent_setPersistent_of_ne hne]
    · rfl
  · show (w.setPersistent env (.tokenIndex token) i).storage.lookup (.tokenIndex b) =
      Function.update (w.catalog n).index token (some i) b
    by_cases hb : b = token
    · subst hb
      rw [Function.update_self]
      apply lookup_of_persistent
      rw [World.storage_setPersistent, persistent_extendTtl, persistent_setPersistent_self]
    · have hne : DataKey.tokenIndex b ≠ .tokenIndex token := fun heq => hb (DataKey.tokenIndex.inj heq)
      rw [Function.update_of_ne hb]
      apply lookup_congr
      · rw [World.storage_setPersistent, persistent_extendTtl, persistent_setPersistent_of_ne hne]
      · rfl

/-- Registering a new token writes its two entries. -/
theorem written_registerToken (hw : Tiered w n)
    (h : (registerToken token creator (n + 1) info).Returns env w u w') :
    Written w w' (n + 1) ((w.catalog n).push token info) := by
  simp only [registerToken, returns_bind, returns_setPersistent] at h
  obtain ⟨_, _, rfl, _, w₁, happend, _, _, rfl, _, _, rfl, rfl⟩ := h
  have happend : Kept (w.setPersistent env (.tokenInfo (n + 1)) info) w₁ := happend.rel
  have haddress : MayWrite Kept (.tokenAddress (n + 1)) := inferInstance
  have howner : MayWrite Kept (.owner token) := inferInstance
  have hindexed : Written w (w₁.setPersistent env (.tokenIndex token) (n + 1)) (n + 1)
      ((w.catalog n).push token info) := by
    refine ⟨tiered_setIndex (happend.tiered hw.push), ?_, happend.marker_eq⟩
    rw [catalog_setIndex, happend.catalog, catalog_setInfo]
    rfl
  exact hindexed.kept (.trans (haddress.setPersistent env _) (howner.setPersistent env _))

/-- What a creation does to the catalog. -/
theorem written_recordToken [env.NoReentry] {r : Address × FactoryState}
    (hw : Tiered w st.tokenCount) (h : (recordToken creator p st).Returns env w r w') :
    Written w w' r.2.tokenCount ((w.catalog st.tokenCount).push r.1 (p.newInfo env creator)) := by
  simp only [recordToken, returns_bind, returns_okOr, returns_getEnv, returns_publish, returns_pure,
    U32.checkedAdd_eq_some] at h
  obtain ⟨token, w₁, hdeploy, _, w₂, hinit, _, w₃, hmint, _, w₄, hseed, h⟩ := h
  obtain ⟨_, _, ⟨⟨rfl, -⟩, rfl⟩, _, _, ⟨rfl, rfl⟩, _, w₅, hregister, _, _, rfl, rfl, rfl⟩ := h
  have hdeploy : Kept w w₁ := .of_returns hdeploy
  have hinit : Kept w₁ w₂ := .of_returns hinit
  have hmint : Kept w₂ w₃ := .of_returns hmint
  have hseed : Kept w₃ w₄ := hseed.rel
  have hbefore : Kept w w₄ := ((hdeploy.trans hinit).trans hmint).trans hseed
  have hregister := written_registerToken (hbefore.tiered hw) hregister
  rw [hbefore.catalog] at hregister
  exact (Written.of_kept hbefore hregister).kept (.of_storage rfl)

/-- What the creations of a batch do to the catalog. -/
theorem written_recordTokens [env.NoReentry] {ps : List BatchTokenParams} {before : List Address}
    {r : List Address × FactoryState} (hw : Tiered w st.tokenCount)
    (h : (recordTokens creator ps before st).Returns env w r w') :
    ∃ as, r.1 = before ++ as ∧
      Written w w' r.2.tokenCount ((w.catalog st.tokenCount).pushAll env creator ps as) := by
  induction ps generalizing before st w with
  | nil =>
    simp only [recordTokens, returns_pure] at h
    obtain ⟨rfl, rfl⟩ := h
    exact ⟨[], (List.append_nil _).symm, hw, rfl, rfl⟩
  | cons p ps ih =>
    simp only [recordTokens, returns_bind] at h
    obtain ⟨⟨token, st₁⟩, w₁, hrecord, h⟩ := h
    have hfirst := written_recordToken hw hrecord
    obtain ⟨as, has, hrest⟩ := ih hfirst.tiered h
    refine ⟨token :: as, ?_, hrest.tiered, ?_, hrest.marker.trans hfirst.marker⟩
    · rw [has, List.append_assoc]
      rfl
    · rw [hrest.catalog, hfirst.catalog]
      rfl

/-- What a call has made of the tokens, with the state that it leaves. -/
def Becomes (w w' : World) (c : Catalog) : Prop :=
  ∃ st', w'.state? = some st' ∧ Written w w' st'.tokenCount c

/-- `create_token` puts one token into the catalog. -/
theorem becomes_createToken [env.NoReentry] {feePayment : ℤ} (hw : Tiered w st.tokenCount)
    (hst : w.state? = some st) (h : (createToken creator p feePayment).Returns env w a w') :
    Becomes w w' ((w.catalog st.tokenCount).push a (p.newInfo env creator)) := by
  simp only [createToken, returns_bind, returns_requireAuth, returns_loadUnlockedState,
    returns_throwIf, returns_setLocked, returns_attempt] at h
  obtain ⟨_, w₁, hpaused, _, _, ⟨-, rfl⟩, st₁, _, ⟨hst₁, -, rfl⟩, h⟩ := h
  obtain ⟨_, w₂, hvalid, _, _, ⟨-, rfl⟩, _, w₃, hlisted, _, _, ⟨-, rfl⟩, h⟩ := h
  -- the inner call is attempted: its state is read after it, with the flag still set
  obtain ⟨_, _, ⟨rfl, rfl⟩, o, w₄, hrun, h⟩ := h
  have hsame : w₁.state? = w.state? := Own.state?_eq hpaused.rel
  obtain rfl := Option.some.inj (hst.symm.trans (hsame.symm.trans hst₁))
  rcases o with e | ⟨a', st'⟩
  · simp at h
  simp only [returns_bind, returns_setLocked, returns_pure] at h
  obtain ⟨_, _, ⟨-, rfl⟩, rfl, rfl⟩ := h
  have hrun : (createTokenInner creator p { st with locked := true }).Returns env _ _ w₄ := hrun
  simp only [createTokenInner, returns_bind] at hrun
  obtain ⟨_, w₅, hfee, hrecord⟩ := hrun
  -- everything up to the fee leaves the catalogue alone; only the record writes to it
  have hpaused : Kept w w₁ := hpaused.rel
  have hvalid : Kept w₁ w₂ := hvalid.rel
  have hlisted : Kept w₂ w₃ := hlisted.rel
  have hfee : Kept _ w₅ := .of_returns hfee
  have hbefore : Kept w w₅ :=
    (((hpaused.trans hvalid).trans hlisted).trans (kept_saveState _)).trans hfee
  have hw₅ : Tiered w₅ ({ st with locked := true } : FactoryState).tokenCount := hbefore.tiered hw
  have hrecord := written_recordToken hw₅ hrecord
  have hcatalog : w₅.catalog ({ st with locked := true } : FactoryState).tokenCount =
    w.catalog st.tokenCount := hbefore.catalog
  rw [hcatalog] at hrecord
  exact ⟨{ st' with locked := false }, World.state?_saveState,
    (Written.of_kept hbefore hrecord).kept (kept_saveState _)⟩

/-- `create_tokens_batch` puts its tokens into the catalog, in their order. -/
theorem becomes_createTokensBatch [env.NoReentry] {ps : List BatchTokenParams} {feePayment : ℤ}
    {as : List Address} (hw : Tiered w st.tokenCount) (hst : w.state? = some st)
    (h : (createTokensBatch creator ps feePayment).Returns env w as w') :
    Becomes w w' ((w.catalog st.tokenCount).pushAll env creator ps as) := by
  simp only [createTokensBatch, returns_bind, returns_requireAuth, returns_loadUnlockedState,
    returns_throwIf, returns_okOr, returns_setLocked, returns_pure] at h
  obtain ⟨_, w₁, hpaused, _, _, ⟨-, rfl⟩, st₁, _, ⟨hst₁, -, rfl⟩, h⟩ := h
  obtain ⟨_, _, ⟨-, rfl⟩, _, _, ⟨-, rfl⟩, _, w₂, hvalid, _, _, ⟨-, rfl⟩, h⟩ := h
  obtain ⟨_, _, ⟨-, rfl⟩, _, _, ⟨-, rfl⟩, _, w₃, hlisted, _, _, ⟨rfl, rfl⟩, h⟩ := h
  -- unlike the single creation, a batch records its tokens before it pays
  obtain ⟨r, w₄, hrecords, _, w₅, hfees, _, _, ⟨-, rfl⟩, rfl, rfl⟩ := h
  have hsame : w₁.state? = w.state? := Own.state?_eq hpaused.rel
  obtain rfl := Option.some.inj (hst.symm.trans (hsame.symm.trans hst₁))
  have hpaused : Kept w w₁ := hpaused.rel
  have hvalid : Kept w₁ w₂ := hvalid.rel
  have hlisted : Kept w₂ w₃ := hlisted.rel
  have hbefore : Kept w (w₃.saveState env { st with locked := true }) :=
    ((hpaused.trans hvalid).trans hlisted).trans (kept_saveState _)
  have hw₃ : Tiered _ ({ st with locked := true } : FactoryState).tokenCount := hbefore.tiered hw
  obtain ⟨as, has, hrecords⟩ := written_recordTokens hw₃ hrecords
  have hcatalog : (w₃.saveState env { st with locked := true }).catalog
      ({ st with locked := true } : FactoryState).tokenCount = w.catalog st.tokenCount :=
    hbefore.catalog
  rw [hcatalog] at hrecords
  have hafter : Kept w₄ (w₅.saveState env { r.2 with locked := false }) :=
    .trans (.of_returns hfees) (kept_saveState _)
  -- the accumulator of the loop starts empty
  rw [has, List.nil_append]
  exact ⟨{ r.2 with locked := false }, World.state?_saveState,
    (Written.of_kept hbefore hrecords).kept hafter⟩

end StellarForge.Factory
