import StellarForge.Factory.Refinement.Content

/-!
# The helpers on a world that holds an abstract factory

One lemma for each helper that reads or writes the registry: what it returns and what the world holds
afterwards.  The last one, `Holds.recordToken`, is the registration of a new token.
-/

namespace StellarForge.Factory

open Soroban Contract Collections

variable {env : Env} {w w' : World} {m : FactoryModel} {st : FactoryState}

/-! ### Fees and the whitelist -/

section

variable [env.NoReentry]

/-- Paying shares writes nothing of the factory's. -/
theorem content_payShares {feeToken payer : Address} {shares : List (Address × ℤ)} {extra out : ℤ}
    (h : (payShares feeToken payer shares extra).Returns env w out w') :
    w'.content = w.content := by
  induction shares generalizing w extra with
  | nil =>
    rw [payShares, returns_pure] at h
    rw [h.2]
  | cons s shares ih =>
    simp only [payShares, returns_ite, returns_bind, returns_tryTransfer, returns_okOr,
      returns_publish] at h
    rcases h with ⟨-, ok, w₁, ⟨-, rfl⟩, ⟨-, h⟩ | ⟨-, _, _, ⟨-, rfl⟩, _, _, rfl, h⟩⟩ | ⟨-, h⟩
    · exact (ih h).trans rfl
    · exact (ih h).trans rfl
    · exact ih h

theorem content_payTreasury {payer : Address} {amount : ℤ} {u : Unit}
    (h : (payTreasury st payer amount).Returns env w u w') : w'.content = w.content := by
  simp only [payTreasury, returns_bind, returns_tryTransfer, returns_throwIf] at h
  obtain ⟨ok, w₁, ⟨-, rfl⟩, -, rfl⟩ := h
  rfl

/-- Paying a fee changes neither the factory's storage nor the contracts. -/
theorem content_distributeFee {payer : Address} {amount : ℤ} {u : Unit}
    (h : (distributeFee st payer amount).Returns env w u w') : w'.content = w.content := by
  simp only [distributeFee, returns_bind, returns_getInst] at h
  obtain ⟨split, w₁, ⟨-, rfl⟩, h⟩ := h
  rcases split with _ | splits
  · exact content_payTreasury h
  · simp only [distributeSplit, returns_bind, returns_okOr, returns_ite, returns_pure] at h
    obtain ⟨alloc, w₁, ⟨-, rfl⟩, remainder, w₂, ⟨-, rfl⟩, extra, w₃, hpay, ⟨-, h⟩ | ⟨-, -, rfl⟩⟩ := h
    · exact (content_payTreasury h).trans (content_payShares hpay)
    · exact content_payShares hpay

theorem Holds.distributeFee {st' : FactoryState} {payer : Address} {amount : ℤ} {u : Unit}
    (hw : Holds w m st) (h : (distributeFee st' payer amount).Returns env w u w') :
    Holds w' m st :=
  (content_distributeFee h).trans hw

end

/-- The check of the whitelist is the one of the model. -/
theorem Holds.requireWhitelisted {st' : FactoryState} {creator : Address} {u : Unit}
    (hw : Holds w m st) (h : (requireWhitelisted st' creator).Returns env w u w') :
    w = w' ∧ (st'.whitelistEnabled = true → m.whitelist creator = true) := by
  simp only [Factory.requireWhitelisted, whitelistContains, returns_ite, returns_bind,
    returns_readAddrKeyed, returns_throwIf, returns_pure, hw.lookup (k := .whitelist creator) rfl] at h
  rcases h with ⟨hen, listed, _, ⟨_, _, ⟨rfl, rfl⟩, hl, rfl⟩, hlisted, rfl⟩ | ⟨hen, -, rfl⟩
  · refine ⟨rfl, fun _ => ?_⟩
    by_contra hno
    simp only [FactoryModel.persistent, if_neg hno] at hl
    exact hlisted hl.symm
  · exact ⟨rfl, fun h' => absurd h' hen⟩

/-! ### Reading a registered token -/

theorem Holds.tokenCreator {a c : Address} (hw : Holds w m st)
    (h : (tokenCreator a).Returns env w c w') :
    Holds w' m st ∧ ∃ t, m.tokens.find? a = some t ∧ t.creator = c := by
  simp only [Factory.tokenCreator, returns_bind, returns_migrateAddrKeyed, returns_okOr] at h
  obtain ⟨_, _, ⟨hl, rfl⟩, rfl, rfl⟩ := h
  rw [hw.lookup rfl] at hl
  exact ⟨hw.migrateAddrKeyed rfl, Option.map_eq_some_iff.mp hl⟩

/-- A registered token is one of the model. -/
theorem Holds.registeredToken {a : Address} {r : ℕ × TokenInfo} (hw : Holds w m st)
    (h : (registeredToken a).Returns env w r w') : Holds w' m st ∧
      ∃ t, m.tokens.find? a = some t ∧ m.tokens.at? r.1 = some t ∧ t.info = r.2 := by
  simp only [Factory.registeredToken, returns_bind, returns_migrateAddrKeyed, returns_okOr,
    returns_pure] at h
  obtain ⟨_, _, ⟨hl, rfl⟩, index, _, ⟨rfl, rfl⟩, _, _, ⟨hl', rfl⟩, info, _, ⟨rfl, rfl⟩, rfl, rfl⟩ := h
  rw [hw.lookup rfl] at hl
  have hw₁ : Holds (w.migrateAddrKeyed env (.tokenIndex a)) m st := hw.migrateAddrKeyed rfl
  rw [hw₁.lookup rfl] at hl'
  obtain ⟨t, ht, hinfo⟩ := Option.map_eq_some_iff.mp hl'
  obtain ⟨t', ht', ha⟩ := Keyed.index?_eq_some.mp hl
  obtain rfl := Option.some.inj (ht.symm.trans ht')
  exact ⟨hw₁.migrateAddrKeyed rfl, t, Keyed.find?_eq_some_iff_at?.mpr ⟨index, ht, ha⟩, ht, hinfo⟩

/-- The flag of a token is the one of the model. -/
theorem Holds.metadataFrozen {a : Address} {frozen : Bool} {t : Token} (hw : Holds w m st)
    (ht : m.tokens.find? a = some t) (h : (metadataFrozen a).Returns env w frozen w') :
    Holds w' m st ∧ t.frozen = frozen := by
  simp only [Factory.metadataFrozen, returns_bind, returns_migrateAddrKeyed, returns_pure] at h
  obtain ⟨_, _, ⟨hl, rfl⟩, rfl, rfl⟩ := h
  rw [hw.lookup rfl, FactoryModel.persistent, ht] at hl
  refine ⟨hw.migrateAddrKeyed rfl, ?_⟩
  rcases hf : t.frozen
  · rw [Option.bind_some, hf] at hl
    rw [← hl]
    rfl
  · rw [Option.bind_some, hf] at hl
    rw [← hl]
    rfl

end StellarForge.Factory
