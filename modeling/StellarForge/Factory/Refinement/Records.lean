import StellarForge.Factory.Refinement.Governance

/-!
# Changing one record

What the partial operations on a token do when they succeed, and the content of the factory in which
one token's record has been changed: writing the entry that shows the change is all that is needed.
-/

namespace StellarForge.Factory

open Soroban Contract Collections FactoryModel

variable {m : FactoryModel} {st : FactoryState} {t t' : Token} {a : Address}

/-! ### The operations on a token -/

theorem Token.setUri_eq_some {uri : Bytes} (h : t.setUri uri = some t') :
    t.frozen = false ∧ ∃ hlen, t' = t.withUri uri hlen := by
  unfold setUri at h
  split_ifs at h with hf hlen
  exact ⟨by simpa using hf, hlen, (Option.some.inj h).symm⟩

/-- A mint of a token with a cap is one of its supply. -/
theorem Token.mint_eq_some {amount : ℤ} (h : t.mint amount = some t') :
    (t.supply = none ∧ t' = t) ∨ ∃ s s' hcap,
      t.supply = some s ∧ s.mint amount = some s' ∧ t' = t.withSupply s' hcap := by
  unfold mint at h
  split at h
  case h_1 hs => exact .inl ⟨hs, (Option.some.inj h).symm⟩
  case h_2 s hs =>
    split at h
    case h_1 => simp at h
    case h_2 s' hm => exact .inr ⟨s, s', _, hs, hm, (Option.some.inj h).symm⟩

theorem Token.mint_of_some {amount : ℤ} {s s' : CappedSupply} (hs : t.supply = some s)
    (hm : s.mint amount = some s') : ∃ hcap, t.mint amount = some (t.withSupply s' hcap) := by
  unfold mint
  split
  case h_1 hs' => simp [hs] at hs'
  case h_2 s₀ hs' =>
    obtain rfl := Option.some.inj (hs.symm.trans hs')
    split
    case h_1 hm' => simp [hm] at hm'
    case h_2 s₁ hm' =>
      obtain rfl := Option.some.inj (hm.symm.trans hm')
      exact ⟨Token.cap_eq hs (CappedSupply.mint_eq_some hm).2.1, rfl⟩

/-- A back-fill happens once, to a token with a cap. -/
theorem Token.backfill_eq_some {verified : ℤ} (h : t.backfill verified = some t') :
    t.backfilled = false ∧ ∃ s s' hcap, t.supply = some s ∧ s.backfill verified = some s' ∧
      t' = { t.withSupply s' hcap with backfilled := true } := by
  unfold backfill at h
  split at h
  case h_1 => simp at h
  case h_2 s hs =>
    split_ifs at h with hb
    split at h
    case h_1 => simp at h
    case h_2 s' hm =>
      exact ⟨by simpa using hb, s, s', Token.cap_eq hs (CappedSupply.backfill_eq_some hm).2.1, hs,
        hm, (Option.some.inj h).symm⟩

theorem Token.backfill_of_some {verified : ℤ} {s s' : CappedSupply} (hs : t.supply = some s)
    (hb : t.backfilled = false) (hm : s.backfill verified = some s') :
    ∃ hcap, t.backfill verified = some { t.withSupply s' hcap with backfilled := true } := by
  unfold backfill
  split
  case h_1 hs' => simp [hs] at hs'
  case h_2 s₀ hs' =>
    obtain rfl := Option.some.inj (hs.symm.trans hs')
    rw [if_neg (by simp [hb])]
    split
    case h_1 hm' => simp [hm] at hm'
    case h_2 s₁ hm' =>
      obtain rfl := Option.some.inj (hm.symm.trans hm')
      exact ⟨Token.cap_eq hs (CappedSupply.backfill_eq_some hm).2.1, rfl⟩

/-- A change of a record leaves the governance data alone. -/
theorem FactoryModel.state_putToken : (m.putToken t).state = m.state := by
  simp only [state, putToken, Keyed.length_replace]

theorem FactoryModel.putToken_self (ht : m.tokens.find? a = some t) : m.putToken t = m := by
  obtain rfl := Keyed.key_of_find? ht
  rw [putToken, Keyed.replace_self ht]

theorem FactoryModel.putToken_putToken (h : t.address = t'.address) :
    (m.putToken t).putToken t' = m.putToken t' :=
  congrArg (fun tokens => { m with tokens }) (Keyed.replace_replace h)

/-! ### The content -/

section

variable (ht : m.tokens.find? t.address = some t)

include ht

/-- Writing a URI and its version is adding the URI to the token. -/
theorem FactoryModel.content_withUri {uri : Bytes} (hlen : t.uris.length < METADATA_MAX_UPDATES) :
    ((m.content st).setPersistent (.metadata t.address) uri).setPersistent
      (.metadataVersion t.address) (t.uris.length + 1) =
        (m.putToken (t.withUri uri hlen)).content st := by
  refine content_eq_putToken (t.withUri uri hlen) ht rfl
    (Function.update_eq_iff.mpr ⟨?_, fun k hk => ?_⟩) rfl rfl
  · refine Eq.trans ?_ (bind_find?_putToken (t.withUri uri hlen) ht _).symm
    rfl
  · by_cases hk' : k = .metadata t.address
    · subst hk'
      refine Content.persistent_setPersistent_self.trans ?_
      refine Eq.trans ?_ (bind_find?_putToken (t.withUri uri hlen) ht _).symm
      rfl
    · refine (Content.persistent_setPersistent_of_ne hk').trans ?_
      exact (persistent_putToken (t.withUri uri hlen) ht rfl (fun _ _ => rfl)
        (fun h => absurd h hk') (fun h => absurd h hk) (fun _ => rfl) (fun _ => rfl)
        fun _ => rfl).symm

theorem FactoryModel.content_freeze :
    (m.content st).setPersistent (.metadataFrozen t.address) true =
      (m.putToken { t with frozen := true }).content st := by
  refine content_eq_putToken { t with frozen := true } ht rfl
    (Function.update_eq_iff.mpr ⟨?_, fun k hk => ?_⟩) rfl rfl
  · refine Eq.trans ?_ (bind_find?_putToken { t with frozen := true } ht _).symm
    rfl
  · exact (persistent_putToken { t with frozen := true } ht rfl (fun _ _ => rfl) (fun _ => rfl)
      (fun _ => rfl) (fun h => absurd h hk) (fun _ => rfl) fun _ => rfl).symm

theorem FactoryModel.content_withSupply {s : CappedSupply}
    (hcap : some s.cap = t.params.maxSupply) :
    (m.content st).setPersistent (.supply t.address) s.counter =
      (m.putToken (t.withSupply s hcap)).content st := by
  refine content_eq_putToken (t.withSupply s hcap) ht rfl
    (Function.update_eq_iff.mpr ⟨?_, fun k hk => ?_⟩) rfl rfl
  · refine Eq.trans ?_ (bind_find?_putToken (t.withSupply s hcap) ht _).symm
    rfl
  · exact (persistent_putToken (t.withSupply s hcap) ht rfl (fun _ _ => rfl) (fun _ => rfl)
      (fun _ => rfl) (fun _ => rfl) (fun h => absurd h hk) fun _ => rfl).symm

theorem FactoryModel.content_backfilled :
    (m.content st).setPersistent (.backfilled t.address) true =
      (m.putToken { t with backfilled := true }).content st := by
  refine content_eq_putToken { t with backfilled := true } ht rfl
    (Function.update_eq_iff.mpr ⟨?_, fun k hk => ?_⟩) rfl rfl
  · refine Eq.trans ?_ (bind_find?_putToken { t with backfilled := true } ht _).symm
    rfl
  · exact (persistent_putToken { t with backfilled := true } ht rfl (fun _ _ => rfl)
      (fun _ => rfl) (fun _ => rfl) (fun _ => rfl) (fun _ => rfl) fun h => absurd h hk).symm

/-- The two entries that a back-fill writes. -/
theorem FactoryModel.content_backfill {s : CappedSupply} (hcap : some s.cap = t.params.maxSupply) :
    ((m.content st).setPersistent (.supply t.address) s.counter).setPersistent
      (.backfilled t.address) true =
        (m.putToken { t.withSupply s hcap with backfilled := true }).content st := by
  have ht' : (m.putToken (t.withSupply s hcap)).tokens.find? (t.withSupply s hcap).address =
      some (t.withSupply s hcap) := Keyed.find?_replace_self (x := t.withSupply s hcap) ht
  refine (congrArg _ (content_withSupply ht hcap)).trans ((content_backfilled ht').trans ?_)
  rw [putToken_putToken]
  rfl

/-- Writing the flag of burns is setting it in the token. -/
theorem FactoryModel.content_burnEnabled {i : ℕ} {enabled : Bool}
    (hi : m.tokens.at? i = some t) :
    (m.content st).setPersistent (.tokenInfo i) { t.info with burnEnabled := enabled } =
      (m.putToken { t with burnEnabled := enabled }).content st := by
  refine content_eq_putToken { t with burnEnabled := enabled } ht rfl
    (Function.update_eq_iff.mpr ⟨?_, fun k hk => ?_⟩) rfl rfl
  · simp only [persistent, putToken, Keyed.at?_replace, hi, Option.map_some, if_true]
    rfl
  · by_cases hk' : ∃ j, k = .tokenInfo j
    · -- another number is another record, which the replacement does not touch
      obtain ⟨j, rfl⟩ := hk'
      simp only [content, persistent, putToken, Keyed.at?_replace, Option.map_map]
      rcases hj : m.tokens.at? j with _ | t'
      · rfl
      · have hne : t'.address ≠ t.address := by
          intro heq
          exact hk (congrArg DataKey.tokenInfo (Keyed.at?_inj hj hi heq))
        simp only [Option.map_some, Function.comp_apply, if_neg hne]
    · exact (persistent_putToken { t with burnEnabled := enabled } ht rfl
        (fun j hj => absurd ⟨j, hj⟩ hk') (fun _ => rfl) (fun _ => rfl) (fun _ => rfl)
        (fun _ => rfl) fun _ => rfl).symm

end

end StellarForge.Factory
