import StellarForge.Factory.Properties.Calls
import StellarForge.Factory.Properties.TokenUpdates
import StellarForge.Factory.Reentry.Guarded

/-!
# Tokens are isolated from each other

`TokenView` is everything that is stored about one token.  `isolation`: a call changes the view of the
token it names alone, and only when the creator of that token has authorized it; a back-fill by the
admin changes the supply counter alone.  Whether the call succeeds or fails, the contracts it invokes
are the fee token, registered tokens, and contracts that it has deployed itself.
-/

namespace StellarForge.Factory

open Soroban Contract Collections Transition FactoryModel

/-! ### What is stored about a token -/

/-- What the factory stores about one token. -/
structure TokenView where
  index : Option ℕ
  info : Option TokenInfo
  supply : Option ℤ
  metadata : Option Bytes
  metadataVersion : Option ℕ
  metadataFrozen : Option Bool
  owner : Option Address
  deriving DecidableEq

/-- The entries of the token `a`, in either tier of the storage. -/
def World.tokenView (w : World) (a : Address) : TokenView where
  index := w.storage.lookup (.tokenIndex a)
  info := (w.storage.lookup (.tokenIndex a)).bind fun i => w.storage.lookup (.tokenInfo i)
  supply := w.storage.lookup (.supply a)
  metadata := w.storage.lookup (.metadata a)
  metadataVersion := w.storage.lookup (.metadataVersion a)
  metadataFrozen := w.storage.lookup (.metadataFrozen a)
  owner := w.storage.lookup (.owner a)

/-- What never changes of a `TokenInfo`. -/
def TokenInfo.fixed (info : TokenInfo) : Bytes × Bytes × ℕ × Address × Option ℤ :=
  (info.name, info.symbol, info.decimals, info.creator, info.maxSupply)

/-! ### Invoked contracts -/

/-- The contract that a call invokes; the deployer and the replacement of the own code are the
host's. -/
def ExtCall.callee : ExtCall → Option Address
  | .tryTransfer token _ _ _ | .initToken token _ _ _ _ | .mint token _ _ | .balance token _
  | .burn token _ _ => some token
  | .deploy .. | .updateCurrentContractWasm _ => none

/-- The contracts that may be invoked in a call that starts in `w₀`, besides those it deploys. -/
def World.MayInvoke (w₀ : World) (a : Address) : Prop :=
  (∃ st, w₀.state? = some st ∧ st.feeToken = a) ∨ (w₀.storage.lookup (.tokenIndex a)).isSome

/-- No contract has gone, and all that was invoked is allowed, or has been deployed since `w₀`. -/
structure InvokesOnly (w₀ w w' : World) : Prop where
  contracts : ∀ a, w.contracts a ≠ none → w'.contracts a ≠ none
  calls : ∃ new, w'.calls = w.calls ++ new ∧ ∀ c ∈ new, ∀ a, c.1.callee = some a →
    w₀.MayInvoke a ∨ w₀.contracts a = none ∧ w'.contracts a ≠ none

/-- However `x` ends, if it does not trap, it has invoked nothing else. -/
def Confined (w₀ : World) {α : Type} (env : Env) (w : World) (x : ContractM α) : Prop :=
  (∀ a, w₀.contracts a ≠ none → w.contracts a ≠ none) →
    ∀ r w', x env w = some (r, w') → InvokesOnly w₀ w w'

variable {env : Env} {w₀ w w' w₁ : World} {a : Address} {m m' : FactoryModel} {t t' : Token}
  {st : FactoryState} {α β : Type}

/-- No calls were made, and no contract has gone. -/
def Silent (w w' : World) : Prop :=
  w'.calls = w.calls ∧ ∀ a, w.contracts a ≠ none → w'.contracts a ≠ none

theorem Silent.of_eq (hcalls : w'.calls = w.calls) (hcontracts : w'.contracts = w.contracts) :
    Silent w w' :=
  ⟨hcalls, fun a h => by rwa [hcontracts]⟩

theorem Silent.invokesOnly (h : Silent w w') : InvokesOnly w₀ w w' where
  contracts := h.2
  calls := ⟨[], by rw [h.1, List.append_nil], by simp⟩

/-- What two parts of a call may invoke, the call may. -/
theorem InvokesOnly.trans (h : InvokesOnly w₀ w w₁) (h' : InvokesOnly w₀ w₁ w') :
    InvokesOnly w₀ w w' where
  contracts a ha := h'.contracts a (h.contracts a ha)
  calls := by
    obtain ⟨new, hnew, hallowed⟩ := h.calls
    obtain ⟨new', hnew', hallowed'⟩ := h'.calls
    refine ⟨new ++ new', by rw [hnew', hnew, List.append_assoc], ?_⟩
    intro c hc b hb
    rcases List.mem_append.mp hc with hc | hc
    · rcases hallowed c hc b hb with hmay | ⟨hfree, hdeployed⟩
      · exact Or.inl hmay
      · exact Or.inr ⟨hfree, h'.contracts b hdeployed⟩
    · exact hallowed' c hc b hb

/-! ### Rules -/

namespace Confined

/-- A sequence invokes what its parts do. -/
theorem bind {x : ContractM α} {f : α → ContractM β} (hx : Confined w₀ env w x)
    (hf : ∀ b w₁, x.Returns env w b w₁ → InvokesOnly w₀ w w₁ → Confined w₀ env w₁ (f b)) :
    Confined w₀ env w (x >>= f) := by
  intro hgrows r w' h
  simp only [Bind.bind, Contract.bind] at h
  split at h
  · next b w₁ hrun =>
    have hfirst := hx hgrows _ _ hrun
    exact hfirst.trans
      (hf b w₁ hrun hfirst (fun c hc => hfirst.contracts c (hgrows c hc)) r w' h)
  · next e w₁ hrun =>
    obtain ⟨-, rfl⟩ := Prod.mk.inj (Option.some.inj h)
    exact hx hgrows _ _ hrun
  · cases h

theorem ite {p : Prop} [Decidable p] {x y : ContractM α} (hx : p → Confined w₀ env w x)
    (hy : ¬ p → Confined w₀ env w y) : Confined w₀ env w (if p then x else y) := by
  split_ifs with hp
  · exact hx hp
  · exact hy hp

theorem attempt {x : ContractM α} (hx : Confined w₀ env w x) : Confined w₀ env w x.attempt := by
  intro hgrows r w' h
  simp only [Contract.attempt, Option.map_eq_some_iff, Prod.mk.injEq] at h
  obtain ⟨⟨_, _⟩, hrun, -, rfl⟩ := h
  exact hx hgrows _ _ hrun

/-- An invocation of an allowed contract. -/
theorem tryCall {c : ExtCall} (hc : ∀ b, c.callee = some b →
    w₀.MayInvoke b ∨ w₀.contracts b = none ∧ w.contracts b ≠ none) :
    Confined w₀ env w (Factory.tryCall c) := by
  intro _ r w' h
  unfold Factory.tryCall at h
  split at h <;>
  · obtain ⟨-, rfl⟩ := Prod.mk.inj (Option.some.inj h)
    refine ⟨fun _ hb => hb, [_], rfl, ?_⟩
    intro c' hc' b hb
    rw [List.mem_singleton.mp hc'] at hb
    exact hc b hb

/-- A call of a contract that may be invoked, or has just been deployed. -/
theorem invoke {c : ExtCall} (hc : ∀ b, c.callee = some b →
    w₀.MayInvoke b ∨ w₀.contracts b = none ∧ w.contracts b ≠ none) :
    Confined w₀ env w (Factory.invoke c) := by
  unfold Factory.invoke
  refine .bind (.tryCall hc) fun o w₁ _ _ => ?_
  split
  · intro _ r w' h
    obtain ⟨-, rfl⟩ := Prod.mk.inj (Option.some.inj h)
    exact Silent.invokesOnly ⟨rfl, fun _ h => h⟩
  · intro _ r w' h
    cases h

end Confined

/-! ### Parts that invoke nothing -/

instance : Std.Refl Silent := ⟨fun _ => ⟨rfl, fun _ h => h⟩⟩

instance : IsTrans World Silent where
  trans _ _ _ h h' := ⟨h'.1.trans h.1, fun a ha => h'.2 a (h.2 a ha)⟩

instance : HelperFrame Silent where
  publish _ := .of_eq rfl rfl
  addContract {w} a h := by
    refine ⟨rfl, fun b hb => ?_⟩
    rw [World.contracts_addContract, Function.update_apply]
    split_ifs
    · simp
    · exact hb
  extendTtl _ _ := .of_eq World.calls_extendTtl World.contracts_extendTtl
  extendInstTtl _ := .of_eq World.calls_extendInstTtl World.contracts_extendInstTtl
  migrateAddrKeyed {w} env k _ := by
    unfold World.migrateAddrKeyed
    split
    · exact .of_eq World.calls_extendTtl World.contracts_extendTtl
    · split
      · exact .of_eq (World.calls_removeInst.trans World.calls_setPersistent)
          (World.contracts_removeInst.trans World.contracts_setPersistent)
      · exact .of_eq rfl rfl

instance {k : DataKey} : MayWrite Silent k where
  setPersistent _ _ := .of_eq World.calls_setPersistent World.contracts_setPersistent
  removePersistent := .of_eq World.calls_removePersistent World.contracts_removePersistent
  setInst _ := .of_eq World.calls_setInst World.contracts_setInst
  removeInst := .of_eq World.calls_removeInst World.contracts_removeInst

instance : ListFrame Silent := ⟨fun _ _ => inferInstance, fun _ => inferInstance, fun _ => inferInstance⟩

instance : TokenFrame Silent := ⟨fun _ => inferInstance, fun _ => inferInstance⟩

instance : EntryFrame Silent where
  tokenAddress _ := inferInstance
  metadata _ := inferInstance
  metadataVersion _ := inferInstance
  metadataFrozen _ := inferInstance
  owner _ := inferInstance
  supply _ := inferInstance
  backfilled _ := inferInstance
  whitelist _ := inferInstance
  split := inferInstance

theorem Confined.of_silent {x : ContractM α} [hx : Moves Silent x] : Confined w₀ env w x :=
  fun _ _ _ h => (hx.rel h).invokesOnly

/-! ### Fees -/

section Fees

variable {feeToken payer : Address}

theorem Confined.tryTransfer (hfee : w₀.MayInvoke feeToken) {recipient : Address} {amount : ℤ} :
    Confined w₀ env w (tryTransfer feeToken payer recipient amount) := by
  unfold Factory.tryTransfer
  refine .bind (.tryCall fun b hb => Or.inl ?_) fun _ _ _ _ => .of_silent
  rwa [← Option.some.inj hb]

/-- The shares of a fee are paid through the fee token. -/
theorem Confined.payShares (hfee : w₀.MayInvoke feeToken) {shares : List (Address × ℤ)} {extra : ℤ} :
    Confined w₀ env w (payShares feeToken payer shares extra) := by
  induction shares generalizing extra w with
  | nil =>
    unfold Factory.payShares
    exact .of_silent
  | cons share shares ih =>
    unfold Factory.payShares
    refine .ite (fun _ => ?_) fun _ => ih
    refine .bind (.tryTransfer hfee) fun ok _ _ _ => ?_
    refine .ite (fun _ => ih) fun _ => ?_
    exact .bind .of_silent fun _ _ _ _ => .bind .of_silent fun _ _ _ _ => ih

/-- So is the whole fee. -/
theorem Confined.distributeFee {amount : ℤ} (hfee : w₀.MayInvoke st.feeToken) :
    Confined w₀ env w (distributeFee st payer amount) := by
  have htreasury {extra : ℤ} {w : World} : Confined w₀ env w (payTreasury st payer extra) := by
    unfold payTreasury
    exact .bind (.tryTransfer hfee) fun _ _ _ _ => .of_silent
  unfold Factory.distributeFee
  refine .bind .of_silent fun o _ _ _ => ?_
  split
  · unfold distributeSplit
    refine .bind .of_silent fun _ _ _ _ => .bind .of_silent fun _ _ _ _ => ?_
    refine .bind (.payShares hfee) fun _ _ _ _ => ?_
    exact .ite (fun _ => htreasury) fun _ => .of_silent
  · exact htreasury

end Fees

/-! ### New tokens -/

theorem Confined.deploy {deployer : Address} {salt wasmHash : BytesN32} :
    Confined w₀ env w (deploy deployer salt wasmHash) := by
  have (address : Address) : Moves Silent
      (modifyWorld fun _ w => w.addContract address wasmHash : ContractM Unit) :=
    .modifyWorld fun _ _ => HelperFrame.addContract _ _
  unfold Factory.deploy
  exact .bind (.invoke nofun) fun address _ _ _ => .of_silent

/-- What `deploy` returns was free in `w₀`, and has a contract from then on. -/
theorem deployed_of_returns {deployer : Address} {salt wasmHash : BytesN32}
    (hgrows : ∀ b, w₀.contracts b ≠ none → w.contracts b ≠ none)
    (h : (deploy deployer salt wasmHash).Returns env w a w₁) :
    w₀.contracts a = none ∧ w₁.contracts a ≠ none := by
  simp only [Factory.deploy, returns_bind, returns_getWorld, returns_trapUnless,
    returns_modifyWorld, returns_pure] at h
  obtain ⟨_, w₂, hcall, _, _, ⟨rfl, rfl⟩, _, _, ⟨hfree, rfl⟩, _, _, rfl, rfl, rfl⟩ := h
  have hinvoke : Confined w₀ env w (Factory.invoke (.deploy deployer salt wasmHash)) := by
    refine .invoke ?_
    intro b hb
    cases hb
  have hkept := (hinvoke hgrows _ _ hcall).contracts
  constructor
  · by_contra hused
    exact hkept _ (hgrows _ hused) hfree
  · rw [World.contracts_addContract, Function.update_self]
    exact Option.some_ne_none _

/-- A creation invokes the token that it deploys. -/
theorem Confined.recordToken {creator : Address} {p : BatchTokenParams} :
    Confined w₀ env w (recordToken creator p st) := by
  unfold Factory.recordToken
  intro hgrows
  refine Confined.bind .deploy (fun token w₁ hdeploy _ => ?_) hgrows
  -- the new contract may be invoked, also after later calls
  obtain ⟨hfree, hnew⟩ := deployed_of_returns hgrows hdeploy
  refine .bind (.invoke fun b hb => ?_) fun _ w₂ _ hinit => ?_
  · rw [← Option.some.inj hb]
    exact Or.inr ⟨hfree, hnew⟩
  refine .bind ?_ fun _ w₃ _ _ => ?_
  · unfold mintInitialSupply mintToken
    refine .ite (fun _ => .invoke fun b hb => ?_) fun _ => .of_silent
    rw [← Option.some.inj hb]
    exact Or.inr ⟨hfree, hinit.contracts token hnew⟩
  have : Moves Silent (seedSupply token p) := inferInstance
  exact .of_silent

theorem Confined.recordTokens {creator : Address} {ps : List BatchTokenParams}
    {addresses : List Address} : Confined w₀ env w (recordTokens creator ps addresses st) := by
  induction ps generalizing addresses st w with
  | nil =>
    unfold Factory.recordTokens
    exact .of_silent
  | cons p ps ih =>
    unfold Factory.recordTokens
    exact .bind .recordToken fun _ _ _ _ => ih

/-! ### Entrypoints -/

/-- The state of a call is the one it has started with. -/
theorem mayInvoke_feeToken (h : w.state? = some st) : w.MayInvoke st.feeToken :=
  Or.inl ⟨st, h, rfl⟩

theorem mayInvoke_registered {token : Address} {r : ℕ × TokenInfo}
    (h : (registeredToken token).Returns env w r w₁) : w.MayInvoke token := by
  simp only [registeredToken, returns_bind, returns_migrateAddrKeyed, returns_okOr] at h
  obtain ⟨_, _, ⟨hlookup, rfl⟩, i, _, ⟨rfl, rfl⟩, -⟩ := h
  refine Or.inr ?_
  rw [hlookup]
  rfl

/-- `create_token` invokes the fee token and the new token. -/
theorem Confined.createToken {creator : Address} {p : BatchTokenParams} {feePayment : ℤ} :
    Confined w env w (createToken creator p feePayment) := by
  unfold Factory.createToken
  refine .bind .of_silent fun _ _ hpaused _ => .bind .of_silent fun _ _ hauth _ => ?_
  refine .bind .of_silent fun st _ hload _ => ?_
  rw [returns_requireNotPaused] at hpaused
  rw [returns_requireAuth] at hauth
  rw [returns_loadUnlockedState] at hload
  obtain ⟨-, rfl⟩ := hpaused
  obtain ⟨-, rfl⟩ := hauth
  obtain ⟨hstate, -, rfl⟩ := hload
  -- the fee token is the one of the state that was loaded
  have hfee := mayInvoke_feeToken hstate
  refine .bind .of_silent fun _ _ _ _ => .bind .of_silent fun _ _ _ _ => ?_
  refine .bind .of_silent fun _ _ _ _ => .bind .of_silent fun _ _ _ _ => ?_
  refine .bind .of_silent fun locked _ hlocked _ => ?_
  rw [returns_setLocked] at hlocked
  obtain ⟨rfl, -⟩ := hlocked
  -- the attempt may fail as a whole, after which nothing is invoked
  refine .bind (.attempt ?_) fun o _ _ _ => ?_
  · unfold createTokenInner
    exact .bind (.distributeFee hfee) fun _ _ _ _ => .recordToken
  · rcases o with e | ⟨address, st⟩
    · exact .of_silent
    · exact .of_silent

/-- `create_tokens_batch` invokes the fee token and the new tokens. -/
theorem Confined.createTokensBatch {creator : Address} {tokens : List BatchTokenParams}
    {feePayment : ℤ} : Confined w env w (createTokensBatch creator tokens feePayment) := by
  unfold Factory.createTokensBatch
  refine .bind .of_silent fun _ _ hpaused _ => .bind .of_silent fun _ _ hauth _ => ?_
  refine .bind .of_silent fun st _ hload _ => ?_
  rw [returns_requireNotPaused] at hpaused
  rw [returns_requireAuth] at hauth
  rw [returns_loadUnlockedState] at hload
  obtain ⟨-, rfl⟩ := hpaused
  obtain ⟨-, rfl⟩ := hauth
  obtain ⟨hstate, -, rfl⟩ := hload
  have hfee := mayInvoke_feeToken hstate
  refine .bind .of_silent fun _ _ _ _ => .bind .of_silent fun _ _ _ _ => ?_
  refine .bind .of_silent fun _ _ _ _ => .bind .of_silent fun _ _ _ _ => ?_
  refine .bind .of_silent fun _ _ _ _ => .bind .of_silent fun _ _ _ _ => ?_
  refine .bind .of_silent fun _ _ _ _ => .bind .of_silent fun locked _ hlocked _ => ?_
  rw [returns_setLocked] at hlocked
  obtain ⟨rfl, -⟩ := hlocked
  refine .bind .recordTokens fun recorded _ hrec _ => ?_
  -- recording counts tokens, and leaves the rest of the state alone
  obtain ⟨count, hcount⟩ := state_of_returns_recordTokens hrec
  rw [hcount]
  exact .bind (.distributeFee hfee) fun _ _ _ _ => .of_silent

/-- `set_metadata` invokes the fee token. -/
theorem Confined.setMetadata {token admin : Address} {uri : Bytes} {feePayment : ℤ} :
    Confined w env w (setMetadata token admin uri feePayment) := by
  unfold Factory.setMetadata
  refine .bind .of_silent fun _ _ hpaused _ => .bind .of_silent fun _ _ hauth _ => ?_
  refine .bind .of_silent fun st _ hload _ => ?_
  rw [returns_requireNotPaused] at hpaused
  rw [returns_requireAuth] at hauth
  rw [returns_loadUnlockedState] at hload
  obtain ⟨-, rfl⟩ := hpaused
  obtain ⟨-, rfl⟩ := hauth
  obtain ⟨hstate, -, rfl⟩ := hload
  have hfee := mayInvoke_feeToken hstate
  -- checks and reads of the factory's own entries up to the lock
  refine .bind .of_silent fun _ _ _ _ => .bind .of_silent fun _ _ _ _ => ?_
  refine .bind .of_silent fun _ _ _ _ => .bind .of_silent fun _ _ _ _ => ?_
  refine .bind .of_silent fun _ _ _ _ => .bind .of_silent fun _ _ _ _ => ?_
  refine .bind .of_silent fun _ _ _ _ => .bind .of_silent fun _ _ _ _ => ?_
  refine .bind .of_silent fun locked _ hlocked _ => ?_
  rw [returns_setLocked] at hlocked
  obtain ⟨rfl, -⟩ := hlocked
  exact .bind (.distributeFee hfee) fun _ _ _ _ => .of_silent

/-- `mint_tokens` invokes the fee token and the registered token. -/
theorem Confined.mintTokens {token admin recipient : Address} {amount feePayment : ℤ} :
    Confined w env w (mintTokens token admin recipient amount feePayment) := by
  unfold Factory.mintTokens
  -- five checks that reach no other contract come first; each is peeled off with what it tells
  refine .bind .of_silent fun _ _ hpaused _ => .bind .of_silent fun _ _ hauth _ => ?_
  refine .bind .of_silent fun _ _ hamount _ => .bind .of_silent fun st _ hload _ => ?_
  refine .bind .of_silent fun _ _ hpayment _ => ?_
  rw [returns_requireNotPaused] at hpaused
  rw [returns_requireAuth] at hauth
  rw [returns_throwIf] at hamount hpayment
  rw [returns_loadUnlockedState] at hload
  obtain ⟨-, rfl⟩ := hpaused
  obtain ⟨-, rfl⟩ := hauth
  obtain ⟨-, rfl⟩ := hamount
  obtain ⟨hstate, -, rfl⟩ := hload
  obtain ⟨-, rfl⟩ := hpayment
  -- the two contracts the call may reach: the one of the fee, and the token that was looked up
  have hfee := mayInvoke_feeToken hstate
  refine .bind .of_silent fun _ _ hreg _ => ?_
  have htoken := mayInvoke_registered hreg
  refine .bind .of_silent fun _ _ _ _ => .bind .of_silent fun _ _ _ _ => ?_
  refine .bind .of_silent fun _ _ _ _ => .bind .of_silent fun locked _ hlocked _ => ?_
  rw [returns_setLocked] at hlocked
  obtain ⟨rfl, -⟩ := hlocked
  refine .bind (.distributeFee hfee) fun _ _ _ _ => ?_
  -- the last call goes to the token itself
  unfold mintToken
  refine .bind (.invoke fun b hb => Or.inl ?_) fun _ _ _ _ => .of_silent
  rwa [← Option.some.inj hb]

/-- `burn` invokes the registered token. -/
theorem Confined.burn {token holder : Address} {amount : ℤ} :
    Confined w env w (burn token holder amount) := by
  unfold Factory.burn
  refine .bind .of_silent fun _ _ hauth _ => .bind .of_silent fun _ _ hamount _ => ?_
  rw [returns_requireAuth] at hauth
  rw [returns_throwIf] at hamount
  obtain ⟨-, rfl⟩ := hauth
  obtain ⟨-, rfl⟩ := hamount
  refine .bind .of_silent fun _ _ hreg _ => .bind .of_silent fun _ _ _ _ => ?_
  -- both calls of the burn go to the token that was looked up
  have htoken := mayInvoke_registered hreg
  have hburn {w₁ : World} : Confined w env w₁ (burnToken token holder amount) := by
    unfold burnToken
    refine .invoke fun b hb => Or.inl ?_
    rwa [← Option.some.inj hb]
  unfold balanceOfToken
  refine .bind (.invoke fun b hb => Or.inl ?_) fun _ _ _ _ => ?_
  · rwa [← Option.some.inj hb]
  refine .bind .of_silent fun _ _ _ _ => .bind .of_silent fun o _ _ _ => ?_
  rcases o with _ | st
  · exact .bind hburn fun _ _ _ _ => .of_silent
  · refine .bind .of_silent fun _ _ _ _ => .bind .of_silent fun _ _ _ _ => ?_
    exact .bind hburn fun _ _ _ _ => .of_silent

/-- `execute_upgrade` invokes no contract. -/
theorem Confined.executeUpgrade {admin : Address} {hash : BytesN32} :
    Confined w env w (executeUpgrade admin hash) := by
  unfold Factory.executeUpgrade
  refine .bind .of_silent fun _ _ _ _ => .bind .of_silent fun _ _ _ _ => ?_
  refine .bind .of_silent fun _ _ _ _ => .bind .of_silent fun _ _ _ _ => ?_
  refine .bind .of_silent fun _ _ _ _ => .bind .of_silent fun _ _ _ _ => ?_
  refine .bind .of_silent fun _ _ _ _ => .bind .of_silent fun _ _ _ _ => ?_
  refine .bind .of_silent fun _ _ _ _ => .bind .of_silent fun _ _ _ _ => ?_
  unfold updateCurrentContractWasm
  exact .invoke nofun

theorem Confined.wrap {f : α → Ret} {x : ContractM α} (hx : Confined w₀ env w x) :
    Confined w₀ env w (wrap f x) := by
  unfold Factory.wrap
  exact .bind hx fun _ _ _ _ => .of_silent

/-- **A call invokes the fee token, registered tokens and contracts it has deployed, and no others.** -/
theorem Confined.exec {call : Call} : Confined w env w call.exec := by
  cases call with
  | createToken => exact .wrap .createToken
  | createTokensBatch => exact .wrap .createTokensBatch
  | setMetadata => exact .wrap .setMetadata
  | mintTokens => exact .wrap .mintTokens
  | burn => exact .wrap .burn
  | executeUpgrade => exact .wrap .executeUpgrade
  | setBurnEnabled token admin enabled =>
    have : Moves Silent (setBurnEnabled token admin enabled) := by
      unfold setBurnEnabled
      iterate 8 refine .andThen inferInstance fun _ => ?_
      infer_instance
    exact .wrap .of_silent
  | view v => exact (Confined.of_silent : Confined w env w v.exec)
  | _ => exact .wrap .of_silent

/-! ### The view of a token -/

/-- The view of the token `t` with the number `index`. -/
def Token.view (t : Token) (index : Option ℕ) : TokenView where
  index := index
  info := some t.info
  supply := t.supply.map CappedSupply.counter
  metadata := t.uris.head?
  metadataVersion := if t.uris = [] then none else some t.uris.length
  metadataFrozen := if t.frozen then some true else none
  owner := some t.creator

/-- What is stored about a token is what the abstract factory has. -/
theorem Represents.tokenView (hw : Represents w m) (ht : m.tokens.find? a = some t) :
    w.tokenView a = t.view (m.tokens.index? a) := by
  have hread (k : DataKey) (hk : k.NoInst = true) : w.storage.lookup k = m.persistent k :=
    Holds.lookup hw hk
  have hindex : (m.tokens.index? a).isSome := by
    rw [Keyed.isSome_index?, ht]
    rfl
  obtain ⟨i, hi⟩ := Option.isSome_iff_exists.mp hindex
  have hinfo : (w.storage.lookup (.tokenIndex a)).bind (fun i => w.storage.lookup (.tokenInfo i)) =
      some t.info := by
    rw [hread _ rfl]
    change (m.tokens.index? a).bind _ = _
    rw [hi, Option.bind_some, hread _ rfl]
    change (m.tokens.at? i).map Token.info = _
    rw [Keyed.at?_of_index? hi ht, Option.map_some]
  unfold World.tokenView Token.view
  rw [hinfo, hread _ rfl, hread _ rfl, hread _ rfl, hread _ rfl, hread _ rfl, hread _ rfl]
  simp only [FactoryModel.persistent, ht, Option.bind_some, Option.map_some]

/-- An authorized change: by the creator of the token, or a back-fill by the admin, which changes the
supply counter alone. -/
inductive AuthorizedChange (env : Env) (w : World) (a : Address) : Call → TokenView → Prop
  | creator {call : Call} {v : TokenView} {creator : Address} (named : call.edits = some a)
    (owner : (w.tokenView a).owner = some creator) (authorized : env.authorized creator = true) :
    AuthorizedChange env w a call v
  | backfill {admin : Address} {verified : ℤ} (authorized : env.authorized admin = true)
    (isAdmin : w.state?.map FactoryState.admin = some admin) (supply : Option ℤ) :
    AuthorizedChange env w a (.backfillCappedSupply admin a verified)
      { w.tokenView a with supply }

/-- Updates are authorized. -/
theorem Token.Update.authorizedChange {call : Call} (hw : Represents w m)
    (ht : m.tokens.find? a = some t) (h : t.Update env m a call t') :
    AuthorizedChange env w a call (t'.view (m.tokens.index? a)) := by
  -- the creator recorded is the one who has to sign
  have hcreator {admin : Address} (hc : IsCreator env m admin a t) :
      (w.tokenView a).owner = some admin ∧ env.authorized admin = true := by
    have hsame : t = _ := Option.some.inj (ht.symm.trans hc.find?)
    rw [hw.tokenView ht]
    exact ⟨congrArg some hc.creator_eq, hc.authorized⟩
  cases h with
  | setMetadata hc _ => exact .creator rfl (hcreator hc).1 (hcreator hc).2
  | freezeMetadata hc => exact .creator rfl (hcreator hc).1 (hcreator hc).2
  | mintTokens hc _ => exact .creator rfl (hcreator hc).1 (hcreator hc).2
  | setBurnEnabled hc => exact .creator rfl (hcreator hc).1 (hcreator hc).2
  | backfillCappedSupply ha hb =>
    obtain ⟨-, s, s', _, -, -, rfl⟩ := Token.backfill_eq_some hb
    have hadmin : w.state?.map FactoryState.admin = some m.admin := by
      rw [hw.state?]
      rfl
    rw [← ha.2] at hadmin
    change AuthorizedChange env w a _ { t.view (m.tokens.index? a) with supply := some s'.counter }
    rw [← hw.tokenView ht]
    exact .backfill ha.1 hadmin _

/-- The number of a token is the place of its address among the registered ones. -/
theorem index?_of_run {h : List Invocation} (hr : Run AbstractStep m h m')
    (ht : m.tokens.find? a = some t) : m'.tokens.index? a = m.tokens.index? a := by
  have hplace (r : Keyed Token.address) :
      r.index? a = ((r.records.map Token.origin).findIdx? fun o => o.1 = a).map (· + 1) := by
    rw [Keyed.index?, List.findIdx?_map]
    rfl
  have hsome : (m.tokens.index? a).isSome := by
    rw [Keyed.isSome_index?, ht]
    rfl
  rw [hplace] at hsome
  rw [hplace, hplace, origins_of_run hr, List.findIdx?_append]
  rw [Option.isSome_map] at hsome
  obtain ⟨i, hi⟩ := Option.isSome_iff_exists.mp hsome
  rw [hi, Option.some_or]

/-! ### Isolation -/

variable {args : ConstructorArgs} {h : List Invocation} {p : BatchTokenParams}

/-- **Isolation**: in every reachable state and for every registered token `a`, a call changes what is
stored about `a` only within an authorized change; the number, the creator, the name, the symbol, the
decimals and the cap of `a` are the same in every later state; and the call invokes the fee token,
registered tokens and contracts it has deployed, and no others. -/
theorem isolation [env.NoReentry] (hr : Reaches args h w) (ha : (a, p) ∈ created h) (call : Call) :
    ((call.exec.commit env w).tokenView a ≠ w.tokenView a →
      AuthorizedChange env w a call ((call.exec.commit env w).tokenView a)) ∧
    (∀ h' w', Run Step w h' w' →
      (w'.tokenView a).index = (w.tokenView a).index ∧
      (w'.tokenView a).owner = (w.tokenView a).owner ∧
      (w'.tokenView a).info.map TokenInfo.fixed = (w.tokenView a).info.map TokenInfo.fixed) ∧
    ∀ r w', call.exec env w = some (r, w') →
      ∃ new, w'.calls = w.calls ++ new ∧ ∀ c ∈ new, ∀ b, c.1.callee = some b →
        w.MayInvoke b ∨ w.contracts b = none ∧ w'.contracts b ≠ none := by
  obtain ⟨m, hm, hw⟩ := hr.represents
  obtain ⟨t, ht, -⟩ := find?_of_mem_created hm ha
  refine ⟨?_, ?_, ?_⟩
  · intro hne
    by_cases hreturns : ∃ ret w', call.exec.Returns env w ret w'
    · obtain ⟨ret, w', hreturns⟩ := hreturns
      rw [hreturns.commit_eq] at hne ⊢
      have hstep : Step w ⟨env, call, ret⟩ w' := ⟨inferInstance, hreturns⟩
      obtain ⟨m', hm', hw'⟩ := hw.step hstep
      have hindex := index?_of_run (.snoc .nil hm') ht
      have hfate := AbstractStep.fate hm' a
      rw [ht] at hfate
      generalize hfind : m'.tokens.find? a = o at hfate
      cases hfate with
      | same _ =>
        rw [hw'.tokenView hfind, hw.tokenView ht, hindex] at hne
        exact absurd rfl hne
      | updated hupdate =>
        rw [hw'.tokenView hfind, hindex]
        exact hupdate.authorizedChange hw ht
    · -- what fails is rolled back
      rw [commit_of_not_returns fun ret w' hret => hreturns ⟨ret, w', hret⟩] at hne
      exact absurd rfl hne
  · intro h' w' hrun
    obtain ⟨m', hm', hw'⟩ := hw.run hrun
    obtain ⟨t', ht', he⟩ := evolves_of_run hm' ht
    have hparams : t'.params = t.params := congrArg Prod.snd he.origin
    rw [hw'.tokenView ht', hw.tokenView ht, index?_of_run hm' ht]
    refine ⟨rfl, congrArg some he.creator, ?_⟩
    simp only [Token.view, Option.map_some, TokenInfo.fixed, Token.info, hparams, he.creator]
  · intro r w' hexec
    exact (Confined.exec (fun _ hc => hc) r w' hexec).calls

/-- The creator freezes the metadata of the token, which the call is about. -/
theorem isolation_sampleRun :
    (⟨50⟩, SampleRun.params) ∈ created SampleRun.history ∧
    ((Call.freezeMetadata ⟨50⟩ ⟨5⟩).exec.commit (permissiveEnv 30 ⟨5⟩)
        SampleRun.world₂).tokenView ⟨50⟩ ≠ SampleRun.world₂.tokenView ⟨50⟩ ∧
    AuthorizedChange (permissiveEnv 30 ⟨5⟩) SampleRun.world₂ ⟨50⟩ (.freezeMetadata ⟨50⟩ ⟨5⟩)
      (((Call.freezeMetadata ⟨50⟩ ⟨5⟩).exec.commit (permissiveEnv 30 ⟨5⟩)
        SampleRun.world₂).tokenView ⟨50⟩) := by
  have hcreated : (⟨50⟩, SampleRun.params) ∈ created SampleRun.history :=
    List.mem_singleton.mpr rfl
  have hchanged : ((Call.freezeMetadata ⟨50⟩ ⟨5⟩).exec.commit (permissiveEnv 30 ⟨5⟩)
      SampleRun.world₂).tokenView ⟨50⟩ ≠ SampleRun.world₂.tokenView ⟨50⟩ := by
    intro hsame
    have hfrozen := congrArg TokenView.metadataFrozen hsame
    revert hfrozen
    decide
  exact ⟨hcreated, hchanged,
    (isolation SampleRun.reaches hcreated (.freezeMetadata ⟨50⟩ ⟨5⟩)).1 hchanged⟩

end StellarForge.Factory
