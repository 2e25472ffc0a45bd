import StellarForge.Soroban.Coupling
import StellarForge.Factory.Properties.Calls

/-!
# Paying the fee and recording the token, in either order

`create_token` pays the fee before it records the token, `create_tokens_batch` afterwards.  The two
steps meet in nothing: `distribute_fee` reads the fee split and the transfers of the fee token, and
`record_token` everything else (`Like`).  So each fails and returns the same whether it comes first or
second, under a host whose answers about the fee token do not depend on the creation of tokens
(`Env.Separate`).
-/

namespace StellarForge.Factory

open Soroban Contract

/-! ### What the host's answers depend on -/

/-- A transfer, which a fee is paid with. -/
def ExtCall.isTransfer : ExtCall → Bool
  | .tryTransfer .. => true
  | _ => false

/-- The transfers so far, each with its success. -/
def World.payments (w : World) : List (ExtCall × Bool) := w.calls.filter fun c => c.1.isTransfer

/-- The other calls so far. -/
def World.creations (w : World) : List (ExtCall × Bool) :=
  w.calls.filter fun c => !c.1.isTransfer

/-- The fee token and the contracts that a creation deploys and calls are different contracts: the
answer to a transfer depends on the transfers before it, and the answer to any other call on the other
calls before it and on which contracts exist. -/
class Env.Separate (env : Env) : Prop where
  payment : ∀ {w v : World} {c : ExtCall}, c.isTransfer = true → w.payments = v.payments →
    (env.host w c).map Prod.fst = (env.host v c).map Prod.fst
  creation : ∀ {w v : World} {c : ExtCall}, c.isTransfer = false → w.creations = v.creations →
    w.contracts = v.contracts → (env.host w c).map Prod.fst = (env.host v c).map Prod.fst

instance (sequence : ℕ) (caller : Address) : (permissiveEnv sequence caller).Separate where
  payment _ _ := rfl
  creation _ _ _ := rfl

/-! ### What each step reads -/

/-- The worlds differ at most in the stored state, in the transfers and in the events, and an
extension makes the lifetimes of their instance entries equal. -/
structure Like (env : Env) (w v : World) : Prop where
  persistent : w.storage.persistent = v.storage.persistent
  liveUntil : w.storage.liveUntil = v.storage.liveUntil
  inst : ∀ k, .state ≠ k → w.storage.inst k = v.storage.inst k
  instLiveUntil : (w.extendInstTtl env).storage.instLiveUntil =
    (v.extendInstTtl env).storage.instLiveUntil
  contracts : w.contracts = v.contracts
  creations : w.creations = v.creations

/-- The worlds have the same whitelist, the same split and the same transfers. -/
structure LikeFee (w v : World) : Prop where
  whitelist : ∀ a, w.storage.lookup (.whitelist a) = v.storage.lookup (.whitelist a)
  split : w.storage.inst .split = v.storage.inst .split
  payments : w.payments = v.payments

variable {env : Env} {w v x : World} {k : DataKey} {st : FactoryState} {c : ExtCall} {ok : Bool}

namespace Like

theorem refl (w : World) : Like env w w := ⟨rfl, rfl, fun _ _ => rfl, rfl, rfl, rfl⟩

theorem symm (h : Like env w v) : Like env v w :=
  ⟨h.persistent.symm, h.liveUntil.symm, fun k hk => (h.inst k hk).symm, h.instLiveUntil.symm,
    h.contracts.symm, h.creations.symm⟩

theorem trans (h : Like env w v) (h' : Like env v x) : Like env w x :=
  ⟨h.persistent.trans h'.persistent, h.liveUntil.trans h'.liveUntil,
    fun k hk => (h.inst k hk).trans (h'.inst k hk), h.instLiveUntil.trans h'.instLiveUntil,
    h.contracts.trans h'.contracts, h.creations.trans h'.creations⟩

/-- Worlds that are alike stay so under the same write. -/
theorem setPersistent (h : Like env w v) {val : k.Val} :
    Like env (w.setPersistent env k val) (v.setPersistent env k val) where
  persistent := by
    simp only [World.storage_setPersistent, Storage.setPersistent, Storage.extendTtl, h.persistent]
  liveUntil :=
    congrArg₂ (fun persistent liveUntil =>
      ((({ w.storage with persistent, liveUntil } : FactoryStorage).setPersistent env.sequence
        env.minPersistentTtl k val).extendTtl env.sequence MIN_TTL MAX_TTL k).liveUntil)
      h.persistent h.liveUntil
  inst := h.inst
  instLiveUntil := h.instLiveUntil
  contracts := h.contracts
  creations := h.creations

theorem extendTtl (h : Like env w v) : Like env (w.extendTtl env k) (v.extendTtl env k) where
  persistent := h.persistent
  liveUntil := by
    simp only [World.storage_extendTtl, Storage.extendTtl, h.liveUntil]
  inst := h.inst
  instLiveUntil := h.instLiveUntil
  contracts := h.contracts
  creations := h.creations

/-- They stay so under the same removal. -/
theorem removeInst (h : Like env w v) : Like env (w.removeInst k) (v.removeInst k) where
  persistent := h.persistent
  liveUntil := h.liveUntil
  inst k' hk' := by
    rw [World.storage_removeInst, World.storage_removeInst]
    by_cases heq : k' = k
    · subst heq
      rw [Storage.inst_removeInst_self, Storage.inst_removeInst_self]
    · rw [Storage.inst_removeInst_of_ne heq, Storage.inst_removeInst_of_ne heq, h.inst k' hk']
  instLiveUntil := h.instLiveUntil
  contracts := h.contracts
  creations := h.creations

theorem publish (h : Like env w v) {ev : Event} : Like env (w.publish ev) (v.publish ev) :=
  ⟨h.persistent, h.liveUntil, h.inst, h.instLiveUntil, h.contracts, h.creations⟩

theorem addContract (h : Like env w v) {a : Address} {hash : BytesN32} :
    Like env (w.addContract a hash) (v.addContract a hash) :=
  ⟨h.persistent, h.liveUntil, h.inst, h.instLiveUntil,
    congrArg (fun f : Address → Option BytesN32 => Function.update f a (some hash)) h.contracts,
    h.creations⟩

/-- They stay so under the same call. -/
theorem logCall (h : Like env w v) : Like env (w.logCall c ok) (v.logCall c ok) where
  persistent := h.persistent
  liveUntil := h.liveUntil
  inst := h.inst
  instLiveUntil := h.instLiveUntil
  contracts := h.contracts
  creations := by
    have hold : w.calls.filter _ = v.calls.filter _ := h.creations
    unfold World.creations
    rw [World.calls_logCall, World.calls_logCall, List.filter_append, List.filter_append, hold]

/-- An extension of a lifetime that has just been extended changes nothing. -/
theorem extendInstTtl_twice : ((w.extendInstTtl env).extendInstTtl env).storage.instLiveUntil =
    (w.extendInstTtl env).storage.instLiveUntil := by
  have hle : MIN_TTL ≤ MAX_TTL := by decide
  simp only [World.storage_extendInstTtl, Storage.extendInstTtl]
  split_ifs <;> omega

/-- Saving a state changes nothing else. -/
theorem saveState (w : World) : Like env w (w.saveState env st) where
  persistent := rfl
  liveUntil := rfl
  inst _ hk := (Storage.inst_setInst_of_ne (Ne.symm hk)).symm
  instLiveUntil := (extendInstTtl_twice (w := w)).symm
  contracts := rfl
  creations := rfl

/-- Saved on top of worlds that are alike, a state makes their storages equal. -/
theorem storage_saveState (h : Like env w v) :
    (w.saveState env st).storage = (v.saveState env st).storage := by
  have hinst : Function.update w.storage.inst .state (some st.encode) =
      Function.update v.storage.inst .state (some st.encode) := by
    refine Function.update_eq_iff.mpr ⟨?_, fun k hk => ?_⟩
    · exact (Function.update_self (f := v.storage.inst) ..).symm
    · rw [Function.update_of_ne hk, h.inst k (Ne.symm hk)]
  have hlive := h.instLiveUntil
  simp only [World.storage_extendInstTtl, Storage.extendInstTtl] at hlive
  simp only [World.storage_saveState, Storage.setInst, Storage.extendInstTtl, h.persistent,
    h.liveUntil, hinst, hlive]
  congr 1

end Like

instance : Std.Refl (Like env) := ⟨Like.refl⟩

instance : IsTrans World (Like env) := ⟨fun _ _ _ => Like.trans⟩

theorem LikeFee.saveState (w : World) : LikeFee w (w.saveState env st) := by
  have hinst (k : DataKey) (hk : k ≠ .state) :
      (w.saveState env st).storage.inst k = w.storage.inst k := Storage.inst_setInst_of_ne hk
  refine ⟨fun a => ?_, (hinst .split nofun).symm, rfl⟩
  unfold Storage.lookup
  rw [hinst (.whitelist a) nofun]
  rfl

instance : Std.Refl LikeFee := ⟨fun _ => ⟨fun _ => rfl, rfl, rfl⟩⟩

instance : IsTrans World LikeFee where
  trans _ _ _ h h' :=
    ⟨fun a => (h.whitelist a).trans (h'.whitelist a), h.split.trans h'.split,
      h.payments.trans h'.payments⟩

/-! ### Recording a token -/

instance {ev : Event} : Respects env (Like env) (publish ev) := .modifyWorld fun h => h.publish

instance {val : k.Val} : Respects env (Like env) (setPersistent k val) :=
  .modifyWorld fun h => h.setPersistent

instance : Respects env (Like env) (removeInst k) := .modifyWorld fun h => h.removeInst

instance : @Respects Env World Error (no_index (Option k.Val)) env (Like env) (getPersistent k) :=
  .read fun h => congrFun h.persistent k

instance [hk : k.Other] :
    @Respects Env World Error (no_index (Option k.Val)) env (Like env) (getInst k) :=
  .read fun h => h.inst k hk.ne

instance {creator : Address} {legacy : List ℕ} {migrated : ℕ} {bucket : List ℕ} :
    Respects env (Like env) (migrateLegacyPages creator legacy migrated bucket) := by
  induction legacy generalizing migrated bucket with
  | nil =>
    unfold migrateLegacyPages
    infer_instance
  | cons index legacy ih =>
    unfold migrateLegacyPages
    infer_instance

instance {creator : Address} : Respects env (Like env) (creatorTokenCount creator) := by
  have : Respects env (Like env)
      (modifyWorld fun env w => w.extendTtl env (.creatorTokenCount creator) : ContractM Unit) :=
    .modifyWorld fun h => h.extendTtl
  unfold creatorTokenCount
  refine .andThen inferInstance fun o => ?_
  split <;> infer_instance

instance {creator : Address} {index : ℕ} :
    Respects env (Like env) (appendCreatorToken creator index) := by
  unfold appendCreatorToken
  infer_instance

instance {token creator : Address} {index : ℕ} {info : TokenInfo} :
    Respects env (Like env) (registerToken token creator index info) := by
  unfold registerToken
  infer_instance

instance {token : Address} {p : BatchTokenParams} :
    Respects env (Like env) (seedSupply token p) := by
  unfold seedSupply
  infer_instance

section

variable [env.NoReentry] [env.Separate]

/-- A call of a creation is answered the same. -/
theorem respects_invoke (hc : c.isTransfer = false) :
    @Respects Env World Error c.Reply env (Like env) (invoke c) := by
  have hcall : @Respects Env World Error (Option c.Reply) env (Like env) (tryCall c) := by
    refine ⟨fun {w v} h => ?_⟩
    have hreply : (env.host w c).map Prod.fst = (env.host v c).map Prod.fst :=
      Env.Separate.creation hc h.creations h.contracts
    unfold tryCall
    rcases hw : env.host w c with _ | ⟨r, s⟩ <;> rcases hv : env.host v c with _ | ⟨r', s'⟩ <;>
      rw [hw, hv] at hreply
    · exact ⟨rfl, h.logCall⟩
    · cases hreply
    · cases hreply
    · obtain rfl := Env.NoReentry.storage_eq hw
      obtain rfl := Env.NoReentry.storage_eq hv
      obtain rfl := Option.some.inj hreply
      exact ⟨rfl, h.logCall⟩
  unfold invoke
  refine .andThen hcall fun o => ?_
  split <;> infer_instance

instance {deployer : Address} {salt wasmHash : BytesN32} :
    Respects env (Like env) (deploy deployer salt wasmHash) := by
  have hadd (a : Address) : Respects env (Like env)
      (modifyWorld fun _ w => w.addContract a wasmHash : ContractM Unit) :=
    .modifyWorld fun h => h.addContract
  unfold deploy
  refine .andThen (respects_invoke rfl) fun a => .getWorld (fun h => ?_) fun w => inferInstance
  rw [h.contracts]

instance {token creator : Address} {p : BatchTokenParams} :
    Respects env (Like env) (mintInitialSupply token creator p) := by
  have : Respects env (Like env) (mintToken token creator p.initialSupply) := respects_invoke rfl
  unfold mintInitialSupply
  infer_instance

instance {creator : Address} {p : BatchTokenParams} {st : FactoryState} :
    Respects env (Like env) (recordToken creator p st) := by
  have (token : Address) :
      Respects env (Like env) (initializeToken token creator p.decimals p.name p.symbol) :=
    respects_invoke rfl
  unfold recordToken
  iterate 6 refine .andThen inferInstance fun _ => ?_
  infer_instance

end

/-! ### Paying a fee -/

section

variable [env.NoReentry] [env.Separate]

omit [env.NoReentry] [env.Separate] in
instance {ev : Event} : Respects env LikeFee (publish ev) :=
  .modifyWorld fun h => ⟨h.whitelist, h.split, h.payments⟩

instance {token payer recipient : Address} {amount : ℤ} :
    Respects env LikeFee (tryTransfer token payer recipient amount) := by
  have hcall : Respects env LikeFee (tryCall (.tryTransfer token payer recipient amount)) := by
    refine ⟨fun {w v} h => ?_⟩
    have hlog {ok : Bool} : LikeFee (w.logCall (.tryTransfer token payer recipient amount) ok)
        (v.logCall (.tryTransfer token payer recipient amount) ok) := by
      have hold : w.calls.filter _ = v.calls.filter _ := h.payments
      refine ⟨h.whitelist, h.split, ?_⟩
      unfold World.payments
      rw [World.calls_logCall, World.calls_logCall, List.filter_append, List.filter_append, hold]
    have hreply : (env.host w (.tryTransfer token payer recipient amount)).map Prod.fst =
        (env.host v (.tryTransfer token payer recipient amount)).map Prod.fst :=
      Env.Separate.payment rfl h.payments
    unfold tryCall
    -- a separate fee token replies the same to both, and does not call back
    rcases hw : env.host w (.tryTransfer token payer recipient amount) with _ | ⟨r, s⟩ <;>
      rcases hv : env.host v (.tryTransfer token payer recipient amount) with _ | ⟨r', s'⟩ <;>
      rw [hw, hv] at hreply
    · exact ⟨rfl, hlog⟩
    · cases hreply
    · cases hreply
    · obtain rfl := Env.NoReentry.storage_eq hw
      obtain rfl := Env.NoReentry.storage_eq hv
      exact ⟨rfl, hlog⟩
  unfold tryTransfer
  infer_instance

instance {feeToken payer : Address} {shares : List (Address × ℤ)} {extra : ℤ} :
    Respects env LikeFee (payShares feeToken payer shares extra) := by
  induction shares generalizing extra with
  | nil =>
    unfold payShares
    infer_instance
  | cons share shares ih =>
    unfold payShares
    infer_instance

instance {st : FactoryState} {payer : Address} {amount : ℤ} :
    Respects env LikeFee (payTreasury st payer amount) := by
  unfold payTreasury
  infer_instance

instance {st : FactoryState} {payer : Address} {amount : ℤ} :
    Respects env LikeFee (distributeFee st payer amount) := by
  have : @Respects Env World Error (Option FeeSplit) env LikeFee (getInst .split) :=
    .read fun h => h.split
  unfold distributeFee
  refine .andThen this fun o => ?_
  split
  · unfold distributeSplit
    infer_instance
  · infer_instance

end

/-! ### What each step leaves alone -/

instance {ev : Event} : Moves (Like env) (Factory.publish ev) :=
  .modifyWorld fun _ _ => ⟨rfl, rfl, fun _ _ => rfl, rfl, rfl, rfl⟩

/-- Paying a fee moves nothing that recording a token reads. -/
instance {st : FactoryState} {payer : Address} {amount : ℤ} :
    MovesIn (fun e => e.NoReentry) (Like env) (distributeFee st payer amount) := by
  have htransfer (token recipient : Address) (amount : ℤ) :
      MovesIn (fun e => e.NoReentry) (Like env) (tryTransfer token payer recipient amount) := by
    have hcall : MovesIn (fun e => e.NoReentry) (Like env)
        (Factory.tryCall (.tryTransfer token payer recipient amount)) := by
      refine ⟨fun {e w r w'} he h => ?_⟩
      unfold Factory.tryCall at h
      split at h
      · next r s hhost =>
        obtain rfl := he.storage_eq hhost
        obtain ⟨-, rfl⟩ := Prod.mk.inj (Option.some.inj h)
        exact ⟨rfl, rfl, fun _ _ => rfl, rfl, rfl, by simp [World.creations, ExtCall.isTransfer]⟩
      · obtain ⟨-, rfl⟩ := Prod.mk.inj (Option.some.inj h)
        exact ⟨rfl, rfl, fun _ _ => rfl, rfl, rfl, by simp [World.creations, ExtCall.isTransfer]⟩
    unfold tryTransfer
    infer_instance
  -- by induction on the shares, of which each is a transfer
  have hshares (shares : List (Address × ℤ)) (extra : ℤ) :
      MovesIn (fun e => e.NoReentry) (Like env) (payShares st.feeToken payer shares extra) := by
    induction shares generalizing extra with
    | nil =>
      unfold payShares
      infer_instance
    | cons share shares ih =>
      unfold payShares
      infer_instance
  have htreasury (amount : ℤ) :
      MovesIn (fun e => e.NoReentry) (Like env) (payTreasury st payer amount) := by
    unfold payTreasury
    infer_instance
  have : @Moves Env World Error (Option FeeSplit) (Like env) (getInst .split) := by
    unfold getInst
    infer_instance
  unfold distributeFee
  refine .andThen inferInstance fun o => ?_
  -- with a split or without one
  split
  · unfold distributeSplit
    infer_instance
  · infer_instance

/-- A key that is neither the split nor an entry of the whitelist. -/
class DataKey.Recorded (k : DataKey) : Prop where
  whitelist : ∀ a, .whitelist a ≠ k
  split : .split ≠ k

instance {i : ℕ} : DataKey.Recorded (.tokenInfo i) := ⟨nofun, nofun⟩

instance {creator : Address} {page : ℕ} : DataKey.Recorded (.creatorTokens creator page) :=
  ⟨nofun, nofun⟩

instance {creator : Address} : DataKey.Recorded (.creatorTokenCount creator) := ⟨nofun, nofun⟩

instance {creator : Address} : DataKey.Recorded (.legacyCreatorTokens creator) := ⟨nofun, nofun⟩

instance {a : Address} : DataKey.Recorded (.tokenIndex a) := ⟨nofun, nofun⟩

instance {i : ℕ} : DataKey.Recorded (.tokenAddress i) := ⟨nofun, nofun⟩

instance {a : Address} : DataKey.Recorded (.owner a) := ⟨nofun, nofun⟩

instance {a : Address} : DataKey.Recorded (.supply a) := ⟨nofun, nofun⟩

section

variable {E : Env → Prop}

instance {ev : Event} : Moves LikeFee (Factory.publish ev) :=
  .modifyWorld fun _ _ => ⟨fun _ => rfl, rfl, rfl⟩

instance [hk : k.Recorded] {val : k.Val} : Moves LikeFee (Factory.setPersistent k val) := by
  refine .modifyWorld fun e w => ⟨fun a => ?_, rfl, rfl⟩
  unfold Storage.lookup
  rw [World.storage_setPersistent, Storage.persistent_extendTtl,
    Storage.persistent_setPersistent_of_ne (hk.whitelist a)]
  rfl

instance [hk : k.Recorded] : Moves LikeFee (Factory.removeInst k) := by
  refine .modifyWorld fun e w => ⟨fun a => ?_, ?_, rfl⟩
  · unfold Storage.lookup
    rw [World.storage_removeInst, Storage.inst_removeInst_of_ne (hk.whitelist a)]
    rfl
  · rw [World.storage_removeInst, Storage.inst_removeInst_of_ne hk.split]

instance : @Moves Env World Error (no_index (Option k.Val)) LikeFee (getPersistent k) := by
  unfold getPersistent
  infer_instance

instance : @Moves Env World Error (no_index (Option k.Val)) LikeFee (getInst k) := by
  unfold getInst
  infer_instance

instance {creator : Address} {legacy : List ℕ} {migrated : ℕ} {bucket : List ℕ} :
    Moves LikeFee (migrateLegacyPages creator legacy migrated bucket) := by
  induction legacy generalizing migrated bucket with
  | nil =>
    unfold migrateLegacyPages
    infer_instance
  | cons index legacy ih =>
    unfold migrateLegacyPages
    infer_instance

instance {creator : Address} : Moves LikeFee (creatorTokenCount creator) := by
  have : Moves LikeFee
      (modifyWorld fun env w => w.extendTtl env (.creatorTokenCount creator) : ContractM Unit) :=
    .modifyWorld fun _ _ => ⟨fun _ => rfl, rfl, rfl⟩
  unfold creatorTokenCount
  refine .andThen inferInstance fun o => ?_
  split <;> infer_instance

/-- A call that is not a transfer adds none. -/
theorem movesIn_invoke (hc : c.isTransfer = false) :
    @MovesIn Env World Error c.Reply (fun e => e.NoReentry) LikeFee (invoke c) := by
  have hcall : @MovesIn Env World Error (Option c.Reply) (fun e => e.NoReentry) LikeFee
      (Factory.tryCall c) := by
    refine ⟨fun {e w r w'} he h => ?_⟩
    unfold Factory.tryCall at h
    split at h
    · next r s hhost =>
      obtain rfl := he.storage_eq hhost
      obtain ⟨-, rfl⟩ := Prod.mk.inj (Option.some.inj h)
      exact ⟨fun _ => rfl, rfl, by simp [World.payments, hc]⟩
    · obtain ⟨-, rfl⟩ := Prod.mk.inj (Option.some.inj h)
      exact ⟨fun _ => rfl, rfl, by simp [World.payments, hc]⟩
  unfold invoke
  refine .andThen hcall fun o => ?_
  split <;> infer_instance

end

/-- Recording a token moves nothing that paying a fee reads. -/
instance {creator : Address} {p : BatchTokenParams} {st : FactoryState} :
    MovesIn (fun e => e.NoReentry) LikeFee (recordToken creator p st) := by
  have hdeploy : MovesIn (fun e => e.NoReentry) LikeFee
      (deploy creator p.salt st.tokenWasmHash) := by
    have (a : Address) (hash : BytesN32) :
        Moves LikeFee (modifyWorld fun _ w => w.addContract a hash : ContractM Unit) :=
      .modifyWorld fun _ _ => ⟨fun _ => rfl, rfl, rfl⟩
    unfold deploy
    exact .andThen (movesIn_invoke rfl) inferInstance
  have hinit (token : Address) : MovesIn (fun e => e.NoReentry) LikeFee
      (initializeToken token creator p.decimals p.name p.symbol) := movesIn_invoke rfl
  have hmint (token : Address) : MovesIn (fun e => e.NoReentry) LikeFee
      (mintInitialSupply token creator p) := by
    have : MovesIn (fun e => e.NoReentry) LikeFee (mintToken token creator p.initialSupply) :=
      movesIn_invoke rfl
    unfold mintInitialSupply
    infer_instance
  have hregister (token : Address) (index : ℕ) (info : TokenInfo) :
      Moves LikeFee (registerToken token creator index info) := by
    have : Moves LikeFee (appendCreatorToken creator index) := by
      unfold appendCreatorToken
      infer_instance
    unfold registerToken
    refine .andThen inferInstance fun _ => ?_
    infer_instance
  -- the six parts before the registration
  unfold recordToken seedSupply
  iterate 6 refine .andThen inferInstance fun _ => ?_
  infer_instance

end StellarForge.Factory
