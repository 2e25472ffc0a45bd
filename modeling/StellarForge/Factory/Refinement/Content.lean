import StellarForge.Factory.Abstract

/-!
# The content of a world

How each update of a world changes its content, and what the content of an abstract factory becomes
when one of its entries is written.  `Holds w m st` is `Represents w m` while the stored state is
`st`, which differs from `m.state` between taking the lock and releasing it.
-/

namespace StellarForge.Factory

open Soroban Collections

/-! ### Updates of the content -/

namespace Content

/-- A persistent entry is written. -/
def setPersistent (k : DataKey) (v : k.Val) (c : Content) : Content :=
  { c with persistent := Function.update c.persistent k (some v) }

/-- A persistent entry is removed. -/
def removePersistent (k : DataKey) (c : Content) : Content :=
  { c with persistent := Function.update c.persistent k none }

/-- An instance entry is written. -/
def setInst (k : DataKey) (v : k.Val) (c : Content) : Content :=
  { c with inst := Function.update c.inst k (some v) }

/-- An instance entry is removed. -/
def removeInst (k : DataKey) (c : Content) : Content :=
  { c with inst := Function.update c.inst k none }

/-- A contract is deployed. -/
def addContract (a : Address) (h : BytesN32) (c : Content) : Content :=
  { c with contracts := Function.update c.contracts a (some h) }

@[simp] theorem persistent_setPersistent_self {c : Content} {k : DataKey} {v : k.Val} :
    (c.setPersistent k v).persistent k = some v := Function.update_self ..

@[simp] theorem persistent_setPersistent_of_ne {c : Content} {k k' : DataKey} {v : k.Val}
    (h : k' ≠ k) : (c.setPersistent k v).persistent k' = c.persistent k' :=
  Function.update_of_ne h ..

@[simp] theorem inst_setPersistent {c : Content} {k : DataKey} {v : k.Val} :
    (c.setPersistent k v).inst = c.inst := rfl

@[simp] theorem contracts_setPersistent {c : Content} {k : DataKey} {v : k.Val} :
    (c.setPersistent k v).contracts = c.contracts := rfl

theorem setPersistent_eq_self {c : Content} {k : DataKey} {v : k.Val}
    (h : c.persistent k = some v) : c.setPersistent k v = c := by
  rw [setPersistent, ← h, Function.update_eq_self]

theorem removeInst_eq_self {c : Content} {k : DataKey} (h : c.inst k = none) :
    c.removeInst k = c := by
  rw [removeInst, ← h, Function.update_eq_self]

end Content

variable {env : Env} {w : World} {k : DataKey} {v : k.Val} {st : FactoryState}

@[simp] theorem World.content_setPersistent :
    (w.setPersistent env k v).content = w.content.setPersistent k v := rfl

@[simp] theorem World.content_extendTtl : (w.extendTtl env k).content = w.content := rfl

@[simp] theorem World.content_removePersistent :
    (w.removePersistent k).content = w.content.removePersistent k := rfl

@[simp] theorem World.content_setInst : (w.setInst k v).content = w.content.setInst k v := rfl

@[simp] theorem World.content_removeInst : (w.removeInst k).content = w.content.removeInst k := rfl

@[simp] theorem World.content_mapStorage_extendInstTtl {now t x : ℕ} :
    (w.mapStorage fun s => s.extendInstTtl now t x).content = w.content := rfl

@[simp] theorem World.content_extendInstTtl : (w.extendInstTtl env).content = w.content :=
  content_mapStorage_extendInstTtl

@[simp] theorem World.content_saveState :
    (w.saveState env st).content = w.content.setInst .state st.encode := by
  rw [saveState, content_extendInstTtl, content_setInst]

@[simp] theorem World.content_publish {ev : Event} : (w.publish ev).content = w.content := rfl

@[simp] theorem World.content_logCall {c : ExtCall} {ok : Bool} :
    (w.logCall c ok).content = w.content := rfl

@[simp] theorem World.content_addContract {a : Address} {h : BytesN32} :
    (w.addContract a h).content = w.content.addContract a h := rfl

theorem World.content_migrateAddrKeyed (hk : w.content.inst k = none) :
    (w.migrateAddrKeyed env k).content = w.content := by
  have hk : w.storage.inst k = none := hk
  unfold migrateAddrKeyed
  rw [hk]
  split <;> rfl

/-! ### The content of an abstract factory -/

/-- The world holds the abstract factory `m` while the stored state is `st`. -/
def Holds (w : World) (m : FactoryModel) (st : FactoryState) : Prop := w.content = m.content st

variable {m m' : FactoryModel} {st' : FactoryState}

theorem FactoryModel.content_setState :
    (m.content st).setInst .state st'.encode = m.content st' := by
  refine Content.ext rfl (Function.update_eq_iff.mpr ⟨rfl, fun k hk => ?_⟩) rfl
  cases k <;> first | rfl | exact absurd rfl hk

/-- The keys that hold no instance value: all but the state, the split and the schema marker. -/
def DataKey.NoInst : DataKey → Bool
  | .state | .split | .sv => false
  | _ => true

theorem FactoryModel.inst_eq_none (hk : k.NoInst = true) : m.inst st k = none := by
  cases k <;> first | rfl | exact absurd hk (by decide)

namespace Holds

theorem persistent (h : Holds w m st) (k : DataKey) : w.storage.persistent k = m.persistent k :=
  congrFun (congrArg Content.persistent h) k

theorem inst (h : Holds w m st) (k : DataKey) : w.storage.inst k = m.inst st k :=
  congrFun (congrArg Content.inst h) k

theorem contracts (h : Holds w m st) (a : Address) :
    w.contracts a = (m.tokens.find? a).map Token.wasmHash :=
  congrFun (congrArg Content.contracts h) a

theorem state? (h : Holds w m st) : w.state? = some st := by
  rw [World.state?, h.inst]
  exact FactoryState.decode_encode st

theorem state_eq (h : Holds w m st) (hst : w.state? = some st') : st = st' :=
  Option.some.inj (h.state?.symm.trans hst)

theorem lookup (h : Holds w m st) (hk : k.NoInst = true) :
    w.storage.lookup k = m.persistent k := by
  rw [Storage.lookup, h.persistent, h.inst, FactoryModel.inst_eq_none hk]
  cases m.persistent k <;> rfl

theorem migrateAddrKeyed (h : Holds w m st) (hk : k.NoInst = true) :
    Holds (w.migrateAddrKeyed env k) m st := by
  rw [Holds, World.content_migrateAddrKeyed]
  · exact h
  · exact (h.inst k).trans (FactoryModel.inst_eq_none hk)

theorem saveState (h : Holds w m st) : Holds (w.saveState env st') m st' := by
  rw [Holds, World.content_saveState, h, FactoryModel.content_setState]

theorem publish {ev : Event} (h : Holds w m st) : Holds (w.publish ev) m st := h

theorem logCall {c : ExtCall} {ok : Bool} (h : Holds w m st) : Holds (w.logCall c ok) m st := h

theorem extendTtl (h : Holds w m st) : Holds (w.extendTtl env k) m st := h

/-- The governance data is in the stored state alone. -/
theorem congr (h : Holds w m st) (ht : m'.tokens = m.tokens) (hwl : m'.whitelist = m.whitelist)
    (hs : m'.split = m.split) : Holds w m' st := by
  cases m
  cases m'
  cases ht
  cases hwl
  cases hs
  exact h

end Holds

/-! ### Writing the split and the whitelist -/

theorem FactoryModel.content_setSplit (splits : {s : FeeSplit // s.Valid}) :
    (m.content st).setInst .split splits.val = { m with split := some splits }.content st := by
  refine Content.ext rfl (Function.update_eq_iff.mpr ⟨rfl, fun k hk => ?_⟩) rfl
  cases k <;> first | rfl | exact absurd rfl hk

theorem FactoryModel.content_removeSplit :
    (m.content st).removeInst .split = { m with split := none }.content st := by
  refine Content.ext rfl (Function.update_eq_iff.mpr ⟨rfl, fun k hk => ?_⟩) rfl
  cases k <;> first | rfl | exact absurd rfl hk

/-- Listing an address in the storage is listing it in the model. -/
theorem FactoryModel.persistent_whitelist_update (a : Address) (listed : Bool) :
    Function.update m.persistent (.whitelist a) (if listed then some true else none) =
      ({ m with whitelist := Function.update m.whitelist a listed } : FactoryModel).persistent := by
  refine Function.update_eq_iff.mpr ⟨?_, fun k hk => ?_⟩
  · simp only [persistent, Function.update_self]
  · cases k with
    | whitelist b =>
      have hb : b ≠ a := fun h => hk (congrArg DataKey.whitelist h)
      simp only [persistent, Function.update_of_ne hb]
    | _ => rfl

/-! ### Writing one token's entries -/

section

variable {t : Token} (t' : Token) (ht : m.tokens.find? t'.address = some t)

include ht

/-- What the replacement of a token leaves alone: every entry whose value it does not change. -/
theorem FactoryModel.persistent_putToken (hc : t'.creator = t.creator)
    (hi : ∀ i, k = .tokenInfo i → t'.info = t.info)
    (hmd : k = .metadata t'.address → t'.uris.head? = t.uris.head?)
    (hmv : k = .metadataVersion t'.address → t'.uris.length = t.uris.length)
    (hmf : k = .metadataFrozen t'.address → t'.frozen = t.frozen)
    (hs : k = .supply t'.address →
      t'.supply.map CappedSupply.counter = t.supply.map CappedSupply.counter)
    (hb : k = .backfilled t'.address → t'.backfilled = t.backfilled) :
    (m.putToken t').persistent k = m.persistent k := by
  -- each map reads one part of the token, which the hypothesis for that map keeps
  cases k with
  | tokenInfo i => exact Keyed.map_at?_replace ht (hi i rfl)
  | tokenAddress i => exact Keyed.map_key_at?_replace
  | tokenIndex a => exact Keyed.index?_replace
  | owner a => exact Keyed.map_find?_replace ht hc
  | creatorTokens c p =>
    have : (m.putToken t').creatorTokens c = m.creatorTokens c :=
      Keyed.indices_replace ht (by rw [hc])
    rw [persistent, persistent, this]
  | creatorTokenCount c =>
    have : (m.putToken t').creatorTokens c = m.creatorTokens c :=
      Keyed.indices_replace ht (by rw [hc])
    rw [persistent, persistent, this]
  | metadata a =>
    by_cases ha : a = t'.address
    · exact Keyed.bind_find?_replace ht (hmd (by rw [ha]))
    · exact congrArg (Option.bind · _) (Keyed.find?_replace_of_ne ha)
  | metadataVersion a =>
    by_cases ha : a = t'.address
    · have hlen := hmv (by rw [ha])
      refine Keyed.bind_find?_replace ht ?_
      simp only [← List.length_eq_zero_iff, hlen]
    · exact congrArg (Option.bind · _) (Keyed.find?_replace_of_ne ha)
  | metadataFrozen a =>
    by_cases ha : a = t'.address
    · exact Keyed.bind_find?_replace ht (by rw [hmf (by rw [ha])])
    · exact congrArg (Option.bind · _) (Keyed.find?_replace_of_ne ha)
  | supply a =>
    by_cases ha : a = t'.address
    · exact Keyed.bind_find?_replace ht (hs (by rw [ha]))
    · exact congrArg (Option.bind · _) (Keyed.find?_replace_of_ne ha)
  | backfilled a =>
    by_cases ha : a = t'.address
    · exact Keyed.bind_find?_replace ht (by rw [hb (by rw [ha])])
    · exact congrArg (Option.bind · _) (Keyed.find?_replace_of_ne ha)
  | _ => rfl

/-- A content that agrees with the changed record entry by entry. -/
theorem FactoryModel.content_eq_putToken (hw : t'.wasmHash = t.wasmHash) {c : Content}
    (hp : c.persistent = (m.putToken t').persistent) (hi : c.inst = m.inst st)
    (hc : c.contracts = (m.content st).contracts) : c = (m.putToken t').content st :=
  Content.ext hp hi (hc.trans (funext fun _ => (Keyed.map_find?_replace ht hw).symm))

theorem FactoryModel.bind_find?_putToken {β : Type} (g : Token → Option β) :
    ((m.putToken t').tokens.find? t'.address).bind g = g t' := by
  rw [putToken, Keyed.find?_replace_self ht, Option.bind_some]

end

end StellarForge.Factory
