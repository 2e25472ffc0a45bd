import StellarForge.Factory.Refinement.Governance
import StellarForge.Factory.Refinement.Records

/-!
# The token entrypoints refine the abstract factory

Creation, metadata, minting, burning and the back-fills.  Between taking the lock and releasing it the
stored state differs from that of the abstract factory; `Holds` carries the registry through.
-/

namespace StellarForge.Factory

open Soroban Contract Collections FactoryModel

variable {env : Env} {w w' : World} {m : FactoryModel} {st : FactoryState} {u : Unit}
  {t : Token} {a : Address}

/-! ### Helpers -/

theorem returns_requireNotPaused :
    requireNotPaused.Returns env w u w' ↔ (∃ st, w.state? = some st ∧ st.paused = false) ∧ w = w' := by
  simp only [requireNotPaused, returns_bind, returns_loadState, returns_throwIf, Bool.not_eq_true]
  grind

theorem returns_validateMetadataUri {uri : Bytes}
    (h : (validateMetadataUri uri).Returns env w u w') : w = w' := by
  simp only [validateMetadataUri, returns_bind, returns_throwIf] at h
  obtain ⟨_, _, ⟨-, rfl⟩, _, _, ⟨-, rfl⟩, _, _, ⟨-, rfl⟩, -, rfl⟩ := h
  rfl

/-- The cap check accounts for the mint. -/
theorem Holds.trackMint {amount : ℤ} (hw : Holds w m st) (ht : m.tokens.find? a = some t)
    (h : (trackMint a t.info.maxSupply amount).Returns env w u w') :
    ∃ t', t.mint amount = some t' ∧ Holds w' (m.putToken t') st := by
  obtain rfl := Keyed.key_of_find? ht
  have hmax : t.info.maxSupply = t.supply.map CappedSupply.cap := t.supply_cap.symm
  -- a token without a cap is not tracked
  rcases hs : t.supply with _ | s
  · rw [hmax, hs, Option.map_none, Factory.trackMint, returns_pure] at h
    obtain ⟨-, rfl⟩ := h
    refine ⟨t, by unfold Token.mint; split <;> simp_all, ?_⟩
    rw [putToken_self ht]
    exact hw
  · simp only [hmax, hs, Option.map_some, Factory.trackMint, returns_bind, returns_migrateAddrKeyed,
      returns_okOr, returns_throwIf, returns_setPersistent, I128.checkedAdd, I128.checked_eq_some] at h
    obtain ⟨_, _, ⟨hl, rfl⟩, total, _, ⟨⟨rfl, -⟩, rfl⟩, _, _, ⟨hcap, rfl⟩, rfl⟩ := h
    rw [hw.lookup rfl] at hl
    have hcounter : m.persistent (.supply t.address) = some s.counter := by
      change (m.tokens.find? t.address).bind _ = _
      rw [ht, Option.bind_some, hs, Option.map_some]
    -- the counter read is the one of the model's supply
    obtain rfl := hcounter.symm.trans hl
    have hmint : s.mint amount = some _ := dif_pos (not_lt.mp hcap)
    obtain ⟨hcap', ht'⟩ := Token.mint_of_some hs hmint
    refine ⟨_, ht', ?_⟩
    rw [Holds, World.content_setPersistent, show World.content _ = _ from hw.migrateAddrKeyed rfl]
    exact content_withSupply ht hcap'

/-! ### Creation -/

/-- Adding a batch changes nothing but the registry. -/
theorem FactoryModel.createAll_state {creator : Address} {ps : List BatchTokenParams}
    {as : List Address} {m' : FactoryModel} (h : m.createAll env creator ps as = some m') :
    ∃ tokens, m' = { m with tokens } := by
  induction ps generalizing m as with
  | nil =>
    rcases as with _ | ⟨a, as⟩
    · exact ⟨m.tokens, (Option.some.inj h).symm⟩
    · simp [createAll] at h
  | cons p ps ih =>
    rcases as with _ | ⟨a, as⟩
    · simp [createAll] at h
    · rw [createAll, Option.bind_eq_some_iff] at h
      obtain ⟨m₁, hm₁, h⟩ := h
      obtain ⟨_, _, rfl⟩ := create_eq_some hm₁
      obtain ⟨tokens, rfl⟩ := ih h
      exact ⟨tokens, rfl⟩

section

variable [env.NoReentry]

/-- `create_token` refines its abstract step. -/
theorem Represents.createToken {creator : Address} {p : BatchTokenParams} {feePayment : ℤ}
    (hw : Represents w m) (h : (createToken creator p feePayment).Returns env w a w') :
    ∃ m', Next env m (.createToken creator p feePayment) (.address a) m' ∧ Represents w' m' := by
  simp only [Factory.createToken, returns_bind, returns_requireNotPaused, returns_requireAuth,
    returns_loadUnlockedState, returns_validateTokenParams, returns_throwIf, returns_setLocked,
    returns_attempt] at h
  obtain ⟨_, _, ⟨⟨st₀, hst₀, hpaused⟩, rfl⟩, _, _, ⟨hauth, rfl⟩, st, _, ⟨hst, -, rfl⟩, h⟩ := h
  obtain ⟨_, _, ⟨hp, rfl⟩, _, _, ⟨hfee, rfl⟩, _, _, hwl, _, _, ⟨-, rfl⟩, h⟩ := h
  obtain ⟨_, _, ⟨rfl, rfl⟩, o, w₁, hrun, h⟩ := h
  obtain rfl := hw.state_eq hst₀
  obtain rfl := hw.state_eq hst
  obtain ⟨rfl, hlisted⟩ := Holds.requireWhitelisted hw hwl
  rcases o with e | ⟨address, s⟩
  · simp at h
  have hrun : (createTokenInner creator p { m.state with locked := true }).Returns env _ _ w₁ := hrun
  simp only [createTokenInner, returns_bind] at hrun
  obtain ⟨_, w₂, hfees, hrec⟩ := hrun
  -- while the lock is held the stored state differs, the registry does not
  have hlocked : Holds (w.saveState env { m.state with locked := true }) m
    { m.state with locked := true } := Holds.saveState hw
  obtain ⟨m', hm', hw₁, hs⟩ := (hlocked.distributeFee hfees).recordToken hp rfl rfl hrec
  simp only [returns_bind, returns_setLocked, returns_pure] at h
  obtain ⟨_, _, ⟨rfl, rfl⟩, rfl, rfl⟩ := h
  refine ⟨m', .createToken ⟨hauth, hpaused, not_lt.mp hfee, hlisted⟩ hm', ?_⟩
  have hstate : { s with locked := false } = m'.state := by
    obtain ⟨_, _, rfl⟩ := create_eq_some hm'
    exact congrArg (fun s : FactoryState => { s with locked := false }) hs
  rw [hstate]
  exact hw₁.saveState

/-- `create_tokens_batch` refines its abstract step. -/
theorem Represents.createTokensBatch {creator : Address} {tokens : List BatchTokenParams}
    {feePayment : ℤ} {addresses : List Address} (hw : Represents w m)
    (h : (createTokensBatch creator tokens feePayment).Returns env w addresses w') :
    ∃ m', Next env m (.createTokensBatch creator tokens feePayment) (.addresses addresses) m' ∧
      Represents w' m' := by
  simp only [Factory.createTokensBatch, returns_bind, returns_requireNotPaused,
    returns_requireAuth, returns_loadUnlockedState, returns_validateBatch, returns_throwIf,
    returns_setLocked, returns_okOr, I128.checkedMul, I128.checked_eq_some, returns_pure] at h
  obtain ⟨_, _, ⟨⟨st₀, hst₀, hpaused⟩, rfl⟩, _, _, ⟨hauth, rfl⟩, st, _, ⟨hst, -, rfl⟩, h⟩ := h
  obtain ⟨_, _, ⟨-, rfl⟩, _, _, ⟨-, rfl⟩, _, _, ⟨hps, rfl⟩, _, _, ⟨-, rfl⟩, h⟩ := h
  obtain ⟨totalFee, _, ⟨⟨htotal, -⟩, rfl⟩, _, _, ⟨hfee, rfl⟩, _, _, hwl, h⟩ := h
  obtain ⟨_, _, ⟨rfl, rfl⟩, r, w₁, hrec, _, w₂, hfees, _, _, ⟨rfl, rfl⟩, rfl, rfl⟩ := h
  obtain rfl := hw.state_eq hst₀
  obtain rfl := hw.state_eq hst
  obtain ⟨rfl, hlisted⟩ := Holds.requireWhitelisted hw hwl
  -- the lock is saved before the loop and lifted after it
  have hlocked : Holds (w.saveState env { m.state with locked := true }) m
    { m.state with locked := true } := Holds.saveState hw
  obtain ⟨new, m', hnew, hm', hw₁, hs⟩ := hlocked.recordTokens hps rfl rfl hrec
  rw [List.nil_append] at hnew
  rw [hnew]
  refine ⟨m', .createTokensBatch ⟨hauth, hpaused, ?_, hlisted⟩ hm', ?_⟩
  · rw [← htotal] at hfee
    exact not_lt.mp hfee
  · -- apart from the lock the state is that of the model after all creations
    have hstate : { r.2 with locked := false } = m'.state := by
      obtain ⟨_, rfl⟩ := createAll_state hm'
      exact congrArg (fun s : FactoryState => { s with locked := false }) hs
    rw [hstate]
    exact (hw₁.distributeFee hfees).saveState

/-! ### Metadata -/

/-- `set_metadata` refines its abstract step. -/
theorem Represents.setMetadata {admin : Address} {uri : Bytes} {feePayment : ℤ}
    (hw : Represents w m) (h : (setMetadata a admin uri feePayment).Returns env w u w') :
    ∃ m', Next env m (.setMetadata a admin uri feePayment) .unit m' ∧ Represents w' m' := by
  simp only [Factory.setMetadata, returns_bind, returns_requireNotPaused, returns_requireAuth,
    returns_loadUnlockedState, returns_throwIf, returns_setLocked, returns_okOr,
    U32.checkedAdd_eq_some, returns_migrateAddrKeyed, returns_setPersistent, returns_publish] at h
  obtain ⟨_, _, ⟨⟨st₀, hst₀, hpaused⟩, rfl⟩, _, _, ⟨hauth, rfl⟩, st, _, ⟨hst, -, rfl⟩, h⟩ := h
  obtain ⟨_, _, ⟨hfee, rfl⟩, _, _, huri, creator, w₁, hcreator, _, _, ⟨hmatch, rfl⟩, h⟩ := h
  obtain ⟨frozen, w₂, hfrozen, _, _, ⟨hnot, rfl⟩, version, _, ⟨hversion, rfl⟩, h⟩ := h
  obtain ⟨_, _, ⟨hlt, rfl⟩, _, _, ⟨rfl, rfl⟩, _, w₃, hfees, h⟩ := h
  obtain ⟨_, _, ⟨⟨rfl, -⟩, rfl⟩, _, _, rfl, _, _, rfl, _, _, ⟨rfl, rfl⟩, rfl⟩ := h
  obtain rfl := hw.state_eq hst₀
  obtain rfl := hw.state_eq hst
  obtain rfl := returns_validateMetadataUri huri
  obtain ⟨hw₁, t, ht, rfl⟩ := Holds.tokenCreator hw hcreator
  obtain ⟨hw₂, rfl⟩ := hw₁.metadataFrozen ht hfrozen
  obtain rfl := Keyed.key_of_find? ht
  -- the stored version counts the URIs
  have hcount : version.getD 0 = t.uris.length := by
    rw [hw₂.lookup rfl] at hversion
    have hread : (m.tokens.find? t.address).bind
        (fun t => if t.uris = [] then none else some t.uris.length) = version := hversion
    rw [ht, Option.bind_some] at hread
    rw [← hread]
    split_ifs with huris
    · rw [huris]; rfl
    · rfl
  rw [hcount] at hlt ⊢
  have hset : t.setUri uri = some (t.withUri uri (not_le.mp hlt)) := by
    rw [Token.setUri, if_neg hnot, dif_pos (not_le.mp hlt)]
  refine ⟨_, .setMetadata hpaused ⟨hauth, ht, not_not.mp hmatch⟩ (not_lt.mp hfee) hset, ?_⟩
  have hw₃ : Holds w₃ m { m.state with locked := true } :=
    (Holds.saveState (hw₂.migrateAddrKeyed rfl)).distributeFee hfees
  rw [Represents, World.content_publish, World.content_saveState, World.content_setPersistent,
    World.content_setPersistent, hw₃, content_withUri ht, content_setState, state_putToken]
  rfl

omit [env.NoReentry] in
/-- `freeze_metadata` refines its abstract step. -/
theorem Represents.freezeMetadata {admin : Address} (hw : Represents w m)
    (h : (freezeMetadata a admin).Returns env w u w') :
    ∃ m', Next env m (.freezeMetadata a admin) .unit m' ∧ Represents w' m' := by
  simp only [Factory.freezeMetadata, returns_bind, returns_requireNotPaused, returns_requireAuth,
    returns_throwIf, returns_ite, returns_pure, returns_setPersistent, returns_publish] at h
  obtain ⟨_, _, ⟨⟨st₀, hst₀, hpaused⟩, rfl⟩, _, _, ⟨hauth, rfl⟩, creator, w₁, hcreator, _, _,
    ⟨hmatch, rfl⟩, frozen, w₂, hfrozen, h⟩ := h
  obtain rfl := hw.state_eq hst₀
  obtain ⟨hw₁, t, ht, rfl⟩ := Holds.tokenCreator hw hcreator
  obtain ⟨hw₂, rfl⟩ := hw₁.metadataFrozen ht hfrozen
  obtain rfl := Keyed.key_of_find? ht
  refine ⟨_, .freezeMetadata hpaused ⟨hauth, ht, not_not.mp hmatch⟩, ?_⟩
  rcases h with ⟨hf, -, rfl⟩ | ⟨-, _, _, rfl, rfl⟩
  · -- frozen already
    have hself : ({ t with frozen := true } : Token) = t := by
      cases t
      simp only [Token.mk.injEq, true_and]
      exact hf.symm
    rw [hself, putToken_self ht]
    exact hw₂
  · rw [Represents, World.content_publish, World.content_setPersistent, hw₂, content_freeze ht,
      state_putToken]

/-! ### Minting and burning -/

/-- `mint_tokens` refines its abstract step. -/
theorem Represents.mintTokens {admin recipient : Address} {amount feePayment : ℤ}
    (hw : Represents w m)
    (h : (mintTokens a admin recipient amount feePayment).Returns env w u w') :
    ∃ m', Next env m (.mintTokens a admin recipient amount feePayment) .unit m' ∧
      Represents w' m' := by
  simp only [Factory.mintTokens, returns_bind, returns_requireNotPaused, returns_requireAuth,
    returns_throwIf, returns_loadUnlockedState, returns_setLocked, returns_mintToken,
    returns_publish] at h
  obtain ⟨_, _, ⟨⟨st₀, hst₀, hpaused⟩, rfl⟩, _, _, ⟨hauth, rfl⟩, _, _, ⟨hpos, rfl⟩, h⟩ := h
  obtain ⟨st, _, ⟨hst, -, rfl⟩, _, _, ⟨hfee, rfl⟩, ⟨i, info⟩, w₁, hreg, h⟩ := h
  obtain ⟨creator, w₂, hcreator, _, _, ⟨hmatch, rfl⟩, _, w₃, htrack, h⟩ := h
  obtain ⟨_, _, ⟨rfl, rfl⟩, _, w₄, hfees, _, _, ⟨-, rfl⟩, _, _, ⟨rfl, rfl⟩, rfl⟩ := h
  obtain rfl := hw.state_eq hst₀
  obtain rfl := hw.state_eq hst
  -- the token looked up twice is one token of the model
  obtain ⟨hw₁, t, ht, -, rfl⟩ := Holds.registeredToken hw hreg
  obtain ⟨hw₂, t', ht', rfl⟩ := hw₁.tokenCreator hcreator
  obtain rfl := Option.some.inj (ht.symm.trans ht')
  obtain ⟨t', hmint, hw₃⟩ := hw₂.trackMint ht htrack
  refine ⟨_, .mintTokens hpaused ⟨hauth, ht, not_not.mp hmatch⟩ (not_lt.mp hfee)
    (not_le.mp hpos) hmint, ?_⟩
  have hw₄ : Holds w₄ (m.putToken t') { m.state with locked := true } :=
    hw₃.saveState.distributeFee hfees
  rw [Represents, World.content_publish, World.content_saveState, World.content_logCall, hw₄,
    content_setState, state_putToken]
  rfl

/-- `burn` refines its abstract step. -/
theorem Represents.burn {holder : Address} {amount : ℤ} (hw : Represents w m)
    (h : (burn a holder amount).Returns env w u w') :
    ∃ m', Next env m (.burn a holder amount) .unit m' ∧ Represents w' m' := by
  simp only [Factory.burn, returns_bind, returns_requireAuth, returns_throwIf,
    returns_balanceOfToken] at h
  obtain ⟨_, _, ⟨hauth, rfl⟩, _, _, ⟨hpos, rfl⟩, ⟨i, info⟩, w₁, hreg, _, _, ⟨henabled, rfl⟩, _, _,
    ⟨-, rfl⟩, _, _, ⟨-, rfl⟩, o, w₂, hload, h⟩ := h
  obtain ⟨hw₁, t, ht, -, rfl⟩ := Holds.registeredToken hw hreg
  have henabled : t.burnEnabled = true := eq_true_of_ne_false henabled
  obtain ⟨hstate, rfl⟩ := returns_loadState? hload
  obtain rfl := hw₁.logCall.state?.symm.trans hstate
  simp only [returns_bind, returns_throwIf, returns_setLocked, returns_burnToken,
    returns_publish] at h
  obtain ⟨_, _, ⟨-, rfl⟩, _, _, ⟨rfl, rfl⟩, _, _, ⟨-, rfl⟩, _, _, ⟨rfl, rfl⟩, rfl⟩ := h
  refine ⟨_, .burn hauth (not_le.mp hpos) ht henabled, ?_⟩
  rw [Represents, World.content_publish, World.content_saveState, World.content_logCall,
    World.content_saveState, World.content_logCall, hw₁, content_setState, content_setState]
  rfl

omit [env.NoReentry] in
/-- `set_burn_enabled` refines its abstract step. -/
theorem Represents.setBurnEnabled {admin : Address} {enabled : Bool} (hw : Represents w m)
    (h : (setBurnEnabled a admin enabled).Returns env w u w') :
    ∃ m', Next env m (.setBurnEnabled a admin enabled) .unit m' ∧ Represents w' m' := by
  simp only [Factory.setBurnEnabled, returns_bind, returns_requireAuth, returns_loadUnlockedState,
    returns_throwIf, returns_setLocked, returns_setPersistent, returns_pure] at h
  obtain ⟨_, _, ⟨hauth, rfl⟩, st, _, ⟨hst, -, rfl⟩, creator, w₁, hcreator, _, _, ⟨hmatch, rfl⟩,
    ⟨i, info⟩, w₂, hreg, _, _, ⟨rfl, rfl⟩, _, _, rfl, _, _, ⟨rfl, rfl⟩, -, rfl⟩ := h
  obtain rfl := hw.state_eq hst
  obtain ⟨hw₁, t, ht, rfl⟩ := Holds.tokenCreator hw hcreator
  obtain ⟨hw₂, t', ht', hi, rfl⟩ := hw₁.registeredToken hreg
  obtain rfl := Option.some.inj (ht.symm.trans ht')
  obtain rfl := Keyed.key_of_find? ht
  refine ⟨_, .setBurnEnabled ⟨hauth, ht, not_not.mp hmatch⟩, ?_⟩
  rw [Represents, World.content_saveState, World.content_setPersistent, World.content_saveState, hw₂,
    content_setState, content_burnEnabled ht hi, content_setState, state_putToken]
  rfl

end

/-! ### Back-fills -/

/-- `backfill_capped_supply` refines its abstract step. -/
theorem Represents.backfillCappedSupply {admin : Address} {verified : ℤ} (hw : Represents w m)
    (h : (backfillCappedSupply admin a verified).Returns env w u w') :
    ∃ m', Next env m (.backfillCappedSupply admin a verified) .unit m' ∧ Represents w' m' := by
  obtain ⟨ha, h⟩ := hw.adminGate h
  simp only [returns_bind, returns_okOr, returns_throwIf, returns_migrateAddrKeyed, returns_ite,
    returns_setPersistent] at h
  obtain ⟨⟨i, info⟩, w₁, hreg, cap, _, ⟨hcap, rfl⟩, _, _, ⟨hrange, rfl⟩, h⟩ := h
  obtain ⟨already, _, ⟨halready, rfl⟩, _, _, ⟨hnot, rfl⟩, current, _, ⟨hcurrent, rfl⟩, h⟩ := h
  obtain ⟨hw₁, t, ht, -, rfl⟩ := Holds.registeredToken hw hreg
  obtain rfl := Keyed.key_of_find? ht
  have hw₂ : Holds (w₁.migrateAddrKeyed env (.backfilled t.address)) m m.state :=
    hw₁.migrateAddrKeyed rfl
  have hw₃ : Holds ((w₁.migrateAddrKeyed env (.backfilled t.address)).migrateAddrKeyed env
    (.supply t.address)) m m.state := hw₂.migrateAddrKeyed rfl
  -- what the two reads found
  obtain ⟨s, hs, hscap⟩ := Option.map_eq_some_iff.mp (t.supply_cap.trans hcap)
  have hb : t.backfilled = false := by
    rw [hw₁.lookup rfl] at halready
    have hread : (m.tokens.find? t.address).bind
        (fun t => if t.backfilled then some true else none) = already := halready
    rw [ht, Option.bind_some] at hread
    by_contra hno
    rw [if_pos (eq_true_of_ne_false hno)] at hread
    rw [← hread] at hnot
    exact hnot rfl
  have hcounter : (m.content m.state).persistent (.supply t.address) = some s.counter := by
    change (m.tokens.find? t.address).bind _ = _
    rw [ht, Option.bind_some, hs, Option.map_some]
  have hcur : current = some s.counter := by
    rw [hw₂.lookup rfl] at hcurrent
    exact hcurrent.symm.trans hcounter
  have hle : verified ≤ s.cap := by omega
  obtain ⟨s', hs'⟩ : ∃ s', s.backfill verified = some s' := ⟨_, dif_pos hle⟩
  obtain ⟨-, -, -, hmax⟩ := CappedSupply.backfill_eq_some hs'
  obtain ⟨hcap', ht'⟩ := Token.backfill_of_some hs hb hs'
  refine ⟨_, .backfillCappedSupply ha ht ht', ?_⟩
  rw [Represents, state_putToken, ← content_backfill ht hcap', hmax]
  rw [hcur, Option.getD_some] at h
  rcases h with ⟨hgt, _, _, rfl, rfl⟩ | ⟨hngt, rfl⟩
  · rw [World.content_setPersistent, World.content_setPersistent, hw₃, max_eq_right hgt.le]
  · rw [World.content_setPersistent, hw₃, max_eq_left (not_lt.mp hngt),
      Content.setPersistent_eq_self hcounter]

/-- On a registry that is up to date the back-fill of an address has nothing to write. -/
theorem Represents.backfillTokenAddress {index : ℕ} (hw : Represents w m)
    (h : (backfillTokenAddress a).Returns env w index w') :
    ∃ m', Next env m (.backfillTokenAddress a) (.u32 index) m' ∧ Represents w' m' := by
  simp only [Factory.backfillTokenAddress, returns_bind, returns_migrateAddrKeyed, returns_okOr,
    returns_getPersistent, returns_ite, returns_pure, returns_setPersistent] at h
  obtain ⟨_, _, ⟨hl, rfl⟩, i, _, ⟨rfl, rfl⟩, o, _, ⟨ho, rfl⟩, h⟩ := h
  rw [Holds.lookup hw rfl] at hl
  have hw₁ : Holds (w.migrateAddrKeyed env (.tokenIndex a)) m m.state :=
    Holds.migrateAddrKeyed hw rfl
  rw [hw₁.persistent] at ho
  obtain ⟨t, ht, -⟩ := Keyed.index?_eq_some.mp hl
  have hsome : o = some t.address := by
    rw [← ho]
    change (m.tokens.at? i).map Token.address = _
    rw [ht, Option.map_some]
  rcases h with ⟨-, rfl, rfl⟩ | ⟨hno, -⟩
  · exact ⟨_, .backfillTokenAddress hl, hw₁⟩
  · rw [hsome] at hno
    exact absurd rfl hno

end StellarForge.Factory
