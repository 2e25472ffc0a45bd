import StellarForge.Factory.Refinement.Registration

/-!
# The governance entrypoints refine the abstract factory

Each lemma `Represents.f` says: if `f` returns in a world that represents `m`, then the abstract
factory makes the step of that call, and the world left behind represents the result.
-/

namespace StellarForge.Factory

open Soroban Contract Collections FactoryModel

variable {env : Env} {w w' : World} {m : FactoryModel} {u : Unit} {admin : Address}

/-! ### Helpers -/

/-- The loop of `set_fee_split` returns the sum of the entries, none of which is zero. -/
theorem returns_sumBps {entries : List (Address × ℕ)} {start total : ℕ}
    (h : (sumBps entries start).Returns env w total w') :
    w = w' ∧ (∀ e ∈ entries, 1 ≤ e.2) ∧ total = start + (entries.map Prod.snd).sum := by
  induction entries generalizing start with
  | nil =>
    rw [sumBps, returns_pure] at h
    exact ⟨h.2, by simp, by simp [h.1]⟩
  | cons e entries ih =>
    simp only [sumBps, returns_bind, returns_throwIf, returns_okOr, U32.checkedAdd_eq_some] at h
    obtain ⟨_, _, ⟨hbps, rfl⟩, _, _, ⟨⟨rfl, -⟩, rfl⟩, h⟩ := h
    obtain ⟨rfl, hpos, rfl⟩ := ih h
    refine ⟨rfl, List.forall_mem_cons.mpr ⟨Nat.one_le_iff_ne_zero.mpr hbps, hpos⟩, ?_⟩
    rw [List.map_cons, List.sum_cons, Nat.add_assoc]

/-- A fee that `update_fees` installs is not negative. -/
theorem returns_checkedFee {current fee : ℤ} {o : Option ℤ}
    (h : (checkedFee current o).Returns env w fee w') :
    w = w' ∧ ∃ n : Option ℕ, o = n.map Nat.cast ∧ fee = (n.map Nat.cast).getD current := by
  rcases o with _ | x
  · rw [checkedFee, returns_pure] at h
    exact ⟨h.2, none, rfl, h.1.symm⟩
  · simp only [checkedFee, returns_bind, returns_throwIf, returns_pure] at h
    obtain ⟨_, _, ⟨hx, rfl⟩, rfl, rfl⟩ := h
    obtain ⟨n, rfl⟩ := Int.eq_ofNat_of_zero_le (not_lt.mp hx)
    exact ⟨rfl, some n, rfl, rfl⟩

namespace Represents

theorem state? (hw : Represents w m) : w.state? = some m.state := Holds.state? hw

theorem state_eq {st : FactoryState} (hw : Represents w m) (h : w.state? = some st) :
    m.state = st := Holds.state_eq hw h

/-- A call that rewrites the stored state changes the governance data. -/
theorem saveState {m' : FactoryModel} {st : FactoryState} (hw : Represents w m)
    (hst : st = m'.state) (ht : m'.tokens = m.tokens) (hwl : m'.whitelist = m.whitelist)
    (hs : m'.split = m.split) : Represents (w.saveState env st) m' := by
  have hw : Holds w m m.state := hw
  rw [Represents, hst]
  exact hw.saveState.congr ht hwl hs

/-- The opening of the admin-gated entrypoints: authorization, then the check against the stored
admin. -/
theorem adminGate {α : Type} {a : α} {f : FactoryState → ContractM α} (hw : Represents w m)
    (h : (do
      requireAuth admin
      let state ← loadState
      throwIf (state.admin ≠ admin) .unauthorized
      f state : ContractM α).Returns env w a w') :
    IsAdmin env m admin ∧ (f m.state).Returns env w a w' := by
  simp only [returns_bind, returns_requireAuth, returns_loadState, returns_throwIf] at h
  obtain ⟨_, _, ⟨hauth, rfl⟩, st, _, ⟨hst, rfl⟩, _, _, ⟨hadmin, rfl⟩, h⟩ := h
  obtain rfl := hw.state_eq hst
  exact ⟨⟨hauth, (not_not.mp hadmin).symm⟩, h⟩

/-! ### The whitelist -/

theorem addToWhitelist {address : Address} (hw : Represents w m)
    (h : (addToWhitelist admin address).Returns env w u w') :
    ∃ m', Next env m (.addToWhitelist admin address) .unit m' ∧ Represents w' m' := by
  obtain ⟨ha, h⟩ := hw.adminGate h
  simp only [returns_bind, returns_setPersistent, returns_publish] at h
  obtain ⟨_, _, rfl, rfl⟩ := h
  refine ⟨_, .addToWhitelist ha, ?_⟩
  rw [Represents, World.content_publish, World.content_setPersistent, show w.content = _ from hw]
  exact Content.ext (persistent_whitelist_update address true) rfl rfl

/-- `remove_from_whitelist` refines its abstract step. -/
theorem removeFromWhitelist {address : Address} (hw : Represents w m)
    (h : (removeFromWhitelist admin address).Returns env w u w') :
    ∃ m', Next env m (.removeFromWhitelist admin address) .unit m' ∧ Represents w' m' := by
  obtain ⟨ha, h⟩ := hw.adminGate h
  simp only [returns_bind, returns_modifyWorld, returns_removeInst, returns_publish] at h
  obtain ⟨_, _, rfl, _, _, rfl, rfl⟩ := h
  refine ⟨_, .removeFromWhitelist ha, ?_⟩
  rw [Represents, World.content_publish, World.content_removeInst, World.content_removePersistent,
    show w.content = _ from hw, Content.removeInst_eq_self]
  · exact Content.ext (persistent_whitelist_update address false) rfl rfl
  · change m.inst m.state (.whitelist address) = none
    exact inst_eq_none rfl

theorem setWhitelistEnabled {enabled : Bool} (hw : Represents w m)
    (h : (setWhitelistEnabled admin enabled).Returns env w u w') :
    ∃ m', Next env m (.setWhitelistEnabled admin enabled) .unit m' ∧ Represents w' m' := by
  obtain ⟨ha, h⟩ := hw.adminGate h
  simp only [returns_bind, returns_saveState, returns_publish] at h
  obtain ⟨_, _, rfl, rfl⟩ := h
  exact ⟨_, .setWhitelistEnabled ha, hw.saveState rfl rfl rfl rfl⟩

/-! ### Pausing and fees -/

theorem pause (hw : Represents w m) (h : (pause admin).Returns env w u w') :
    ∃ m', Next env m (.pause admin) .unit m' ∧ Represents w' m' := by
  obtain ⟨ha, h⟩ := hw.adminGate h
  simp only [returns_bind, returns_saveState, returns_publish] at h
  obtain ⟨_, _, rfl, rfl⟩ := h
  exact ⟨_, .pause ha, hw.saveState rfl rfl rfl rfl⟩

theorem unpause (hw : Represents w m) (h : (unpause admin).Returns env w u w') :
    ∃ m', Next env m (.unpause admin) .unit m' ∧ Represents w' m' := by
  obtain ⟨ha, h⟩ := hw.adminGate h
  simp only [returns_bind, returns_saveState, returns_publish] at h
  obtain ⟨_, _, rfl, rfl⟩ := h
  exact ⟨_, .unpause ha, hw.saveState rfl rfl rfl rfl⟩

/-- `set_fee_split` refines its abstract step. -/
theorem setFeeSplit {splits : FeeSplit} (hw : Represents w m)
    (h : (setFeeSplit admin splits).Returns env w u w') :
    ∃ m', Next env m (.setFeeSplit admin splits) .unit m' ∧ Represents w' m' := by
  obtain ⟨ha, h⟩ := hw.adminGate h
  simp only [returns_ite, returns_bind, returns_removeInst, returns_publish, returns_throwIf,
    returns_setInst, returns_extendInstTtl] at h
  rcases h with ⟨hempty, _, _, rfl, rfl⟩ |
    ⟨hne, _, _, ⟨hlen, rfl⟩, total, _, hsum, _, _, ⟨htotal, rfl⟩, _, _, rfl, _, _, rfl, rfl⟩
  · refine ⟨_, .clearFeeSplit ha hempty, ?_⟩
    rw [Represents, World.content_publish, World.content_removeInst, show w.content = _ from hw,
      content_removeSplit]
    rfl
  · obtain ⟨rfl, hpos, rfl⟩ := returns_sumBps hsum
    have hvalid : splits.Valid :=
      ⟨List.length_pos_iff.mpr hne, not_lt.mp hlen, hpos, by simpa using htotal⟩
    refine ⟨_, .setFeeSplit ha hvalid, ?_⟩
    rw [Represents, World.content_publish, World.content_extendInstTtl, World.content_setInst,
      show w.content = _ from hw]
    exact content_setSplit ⟨splits, hvalid⟩

/-- `update_fees` refines its abstract step. -/
theorem updateFees {baseFee metadataFee : Option ℤ} (hw : Represents w m)
    (h : (updateFees admin baseFee metadataFee).Returns env w u w') :
    ∃ m', Next env m (.updateFees admin baseFee metadataFee) .unit m' ∧ Represents w' m' := by
  simp only [Factory.updateFees, returns_bind, returns_requireAuth, returns_loadState,
    returns_throwIf, returns_saveState, returns_publish] at h
  obtain ⟨_, _, ⟨hauth, rfl⟩, st, _, ⟨hst, rfl⟩, _, _, ⟨hadmin, rfl⟩, base, _, hbase, metadata, _,
    hmeta, _, _, rfl, rfl⟩ := h
  obtain rfl := hw.state_eq hst
  obtain ⟨rfl, b, rfl, rfl⟩ := returns_checkedFee hbase
  obtain ⟨rfl, f, rfl, rfl⟩ := returns_checkedFee hmeta
  refine ⟨_, .updateFees ⟨hauth, not_not.mp hadmin⟩, hw.saveState ?_ rfl rfl rfl⟩
  cases b <;> cases f <;> rfl

/-! ### Upgrades -/

theorem proposeUpgrade {hash : BytesN32} (hw : Represents w m)
    (h : (proposeUpgrade admin hash).Returns env w u w') :
    ∃ m', Next env m (.proposeUpgrade admin hash) .unit m' ∧ Represents w' m' := by
  obtain ⟨ha, h⟩ := hw.adminGate h
  simp only [returns_bind, returns_getEnv, returns_okOr, U32.checkedAdd_eq_some, returns_saveState,
    returns_publish] at h
  obtain ⟨_, _, ⟨rfl, rfl⟩, _, _, ⟨⟨rfl, -⟩, rfl⟩, _, _, rfl, rfl⟩ := h
  exact ⟨_, .proposeUpgrade ha, hw.saveState rfl rfl rfl rfl⟩

/-- `execute_upgrade` refines its abstract step. -/
theorem executeUpgrade [env.NoReentry] {hash : BytesN32} (hw : Represents w m)
    (h : (executeUpgrade admin hash).Returns env w u w') :
    ∃ m', Next env m (.executeUpgrade admin hash) .unit m' ∧ Represents w' m' := by
  obtain ⟨ha, h⟩ := hw.adminGate h
  simp only [returns_bind, returns_okOr, returns_getEnv, returns_throwIf, returns_saveState,
    returns_publish, returns_updateCurrentContractWasm] at h
  obtain ⟨_, _, ⟨hhash, rfl⟩, readyAt, _, ⟨hready, rfl⟩, _, _, ⟨rfl, rfl⟩, _, _, ⟨hwait, rfl⟩, _, _,
    ⟨hmatch, rfl⟩, _, _, rfl, _, _, rfl, -, rfl⟩ := h
  obtain ⟨p, hp, hsubject⟩ := Option.map_eq_some_iff.mp hhash
  have hledger : p.ledger = readyAt := by
    have : m.pendingUpgrade.map Proposal.ledger = some readyAt := hready
    rw [hp] at this
    exact Option.some.inj this
  obtain ⟨subject, ledger⟩ := p
  obtain rfl : subject = hash := hsubject.trans (not_not.mp hmatch)
  obtain rfl : ledger = readyAt := hledger
  exact ⟨_, .executeUpgrade ha hp (not_lt.mp hwait), hw.saveState rfl rfl rfl rfl⟩

/-- `cancel_upgrade` refines its abstract step. -/
theorem cancelUpgrade (hw : Represents w m) (h : (cancelUpgrade admin).Returns env w u w') :
    ∃ m', Next env m (.cancelUpgrade admin) .unit m' ∧ Represents w' m' := by
  obtain ⟨ha, h⟩ := hw.adminGate h
  refine ⟨_, .cancelUpgrade ha, ?_⟩
  rcases hp : m.pendingUpgrade with _ | p
  · have hnone : m.state.pendingUpgradeHash = none := by rw [FactoryModel.state, hp]; rfl
    rw [hnone, returns_pure] at h
    rw [← h.2, ← hp]
    exact hw
  · have hsome : m.state.pendingUpgradeHash = some p.subject := by
      rw [FactoryModel.state, hp]; rfl
    simp only [hsome, returns_bind, returns_saveState, returns_publish] at h
    obtain ⟨_, _, rfl, rfl⟩ := h
    exact hw.saveState rfl rfl rfl rfl

/-- On a storage that is up to date `migrate` does nothing. -/
theorem migrate (hw : Represents w m) (h : (migrate admin).Returns env w u w') :
    ∃ m', Next env m (.migrate admin) .unit m' ∧ Represents w' m' := by
  obtain ⟨ha, h⟩ := hw.adminGate h
  have hsv : w.storage.inst .sv = some CURRENT_SCHEMA_VERSION := Holds.inst hw .sv
  simp only [returns_bind, returns_getInst, hsv] at h
  obtain ⟨_, _, ⟨rfl, rfl⟩, h⟩ := h
  simp [CURRENT_SCHEMA_VERSION, migrateV4V5] at h
  exact ⟨_, .migrate ha, h ▸ hw⟩

/-! ### Admin rotation -/

theorem proposeAdmin {newAdmin : Address} (hw : Represents w m)
    (h : (proposeAdmin admin newAdmin).Returns env w u w') :
    ∃ m', Next env m (.proposeAdmin admin newAdmin) .unit m' ∧ Represents w' m' := by
  obtain ⟨ha, h⟩ := hw.adminGate h
  simp only [returns_bind, returns_throwIf, returns_getEnv, returns_okOr, U32.checkedAdd_eq_some,
    returns_saveState, returns_publish] at h
  obtain ⟨_, _, ⟨hne, rfl⟩, _, _, ⟨rfl, rfl⟩, _, _, ⟨⟨rfl, -⟩, rfl⟩, _, _, rfl, rfl⟩ := h
  exact ⟨_, .proposeAdmin ha hne, hw.saveState rfl rfl rfl rfl⟩

/-- `accept_admin` refines its abstract step. -/
theorem acceptAdmin {newAdmin : Address} (hw : Represents w m)
    (h : (acceptAdmin newAdmin).Returns env w u w') :
    ∃ m', Next env m (.acceptAdmin newAdmin) .unit m' ∧ Represents w' m' := by
  simp only [Factory.acceptAdmin, returns_bind, returns_requireAuth, returns_loadState,
    returns_okOr, returns_throwIf, returns_getEnv, returns_saveState, returns_publish] at h
  obtain ⟨_, _, ⟨hauth, rfl⟩, st, _, ⟨hst, rfl⟩, proposed, _, ⟨hpending, rfl⟩, _, _, ⟨hmatch, rfl⟩,
    _, _, ⟨rfl, rfl⟩, _, _, ⟨hexpiry, rfl⟩, _, _, rfl, rfl⟩ := h
  obtain rfl := hw.state_eq hst
  obtain ⟨p, hp, hsubject⟩ := Option.map_eq_some_iff.mp hpending
  have hledger : m.state.pendingAdminExpiry.getD 0 = p.ledger := by
    rw [FactoryModel.state, hp]; rfl
  rw [hledger] at hexpiry
  obtain ⟨subject, ledger⟩ := p
  obtain rfl : subject = newAdmin := hsubject.trans (not_not.mp hmatch)
  exact ⟨_, .acceptAdmin hauth hp (not_le.mp hexpiry), hw.saveState rfl rfl rfl rfl⟩

/-- `cancel_admin_proposal` refines its abstract step. -/
theorem cancelAdminProposal (hw : Represents w m)
    (h : (cancelAdminProposal admin).Returns env w u w') :
    ∃ m', Next env m (.cancelAdminProposal admin) .unit m' ∧ Represents w' m' := by
  obtain ⟨ha, h⟩ := hw.adminGate h
  refine ⟨_, .cancelAdminProposal ha, ?_⟩
  rcases hp : m.pendingAdmin with _ | p
  · have hnone : m.state.pendingAdmin = none := by rw [FactoryModel.state, hp]; rfl
    rw [hnone, returns_pure] at h
    rw [← h.2, ← hp]
    exact hw
  · have hsome : m.state.pendingAdmin = some p.subject := by rw [FactoryModel.state, hp]; rfl
    simp only [hsome, returns_bind, returns_saveState, returns_publish] at h
    obtain ⟨_, _, rfl, rfl⟩ := h
    exact hw.saveState rfl rfl rfl rfl

/-- A deprecated alias is a proposal. -/
theorem proposeAdminViaLegacyAlias {newAdmin : Address} {entrypoint : Symbol}
    {receipt : AdminRotationReceipt} (hw : Represents w m)
    (h : (proposeAdminViaLegacyAlias admin newAdmin entrypoint).Returns env w receipt w') :
    ∃ m', Next env m (.proposeAdmin admin newAdmin) .unit m' ∧ Represents w' m' := by
  simp only [Factory.proposeAdminViaLegacyAlias, returns_bind, returns_loadState, returns_publish,
    returns_pure] at h
  obtain ⟨_, w₁, hprop, _, _, ⟨-, rfl⟩, _, _, rfl, -, rfl⟩ := h
  obtain ⟨m', hnext, hw'⟩ := hw.proposeAdmin hprop
  exact ⟨m', hnext, hw'⟩

end Represents

end StellarForge.Factory
