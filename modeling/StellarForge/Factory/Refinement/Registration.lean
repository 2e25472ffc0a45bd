import StellarForge.Factory.Refinement.Helpers

/-!
# The registration of a new token

`Holds.recordToken`: deploying and recording a token adds one record to the abstract factory.  The
seven entries that `record_token` writes are the seven that `FactoryModel.persistent` changes when a
record is added, whatever was stored before.
-/

namespace StellarForge.Factory

open Soroban Contract Collections

variable {env : Env} {w w' : World} {m : FactoryModel} {st : FactoryState}

/-! ### The creator's pages -/

/-- The content after `append_creator_token` on a creator whose pages hold the list `l`. -/
def Content.appendCreatorToken (creator : Address) (l : List ℕ) (index : ℕ) (c : Content) :
    Content :=
  (c.setPersistent (.creatorTokens creator (l.length / MAX_TOKENS_BY_CREATOR_PAGE))
    ((page MAX_TOKENS_BY_CREATOR_PAGE l (l.length / MAX_TOKENS_BY_CREATOR_PAGE)).getD []
      ++ [index])).setPersistent (.creatorTokenCount creator) (l.length + 1)

/-- Without a legacy list the count is the stored one, and nothing is moved. -/
theorem returns_creatorTokenCount {creator : Address} {count : ℕ} {l : List ℕ}
    (hcount : w.content.persistent (.creatorTokenCount creator) =
      if l = [] then none else some l.length)
    (hlegacy : w.content.inst (.legacyCreatorTokens creator) = none)
    (h : (creatorTokenCount creator).Returns env w count w') :
    count = l.length ∧ w'.content = w.content := by
  have hcount' : w.storage.persistent (.creatorTokenCount creator) = _ := hcount
  have hlegacy' : w.storage.inst (.legacyCreatorTokens creator) = none := hlegacy
  simp only [creatorTokenCount, returns_bind, returns_getPersistent] at h
  obtain ⟨o, _, ⟨ho, rfl⟩, h⟩ := h
  rw [hcount'] at ho
  split_ifs at ho with hl
  · -- a count of its own is missing before the first token only
    subst ho
    simp only [returns_bind, returns_getInst, hlegacy', returns_removeInst] at h
    obtain ⟨_, _, ⟨rfl, rfl⟩, _, _, rfl, moved, w₁, hmoved, h⟩ := h
    rw [Option.getD_none, migrateLegacyPages, returns_pure] at hmoved
    obtain ⟨rfl, rfl⟩ := hmoved
    simp only [ne_eq, not_true_eq_false, if_false, returns_pure] at h
    obtain ⟨rfl, rfl⟩ := h
    exact ⟨by rw [hl, List.length_nil], Content.removeInst_eq_self hlegacy⟩
  · subst ho
    simp only [returns_bind, returns_modifyWorld, returns_pure] at h
    obtain ⟨_, _, rfl, rfl, rfl⟩ := h
    exact ⟨rfl, rfl⟩

/-- Appending to the last page of a creator is appending to the list. -/
theorem content_appendCreatorToken {creator : Address} {index : ℕ} {l : List ℕ} {u : Unit}
    (hcount : w.content.persistent (.creatorTokenCount creator) =
      if l = [] then none else some l.length)
    (hpage : w.content.persistent
        (.creatorTokens creator (l.length / MAX_TOKENS_BY_CREATOR_PAGE)) =
      page MAX_TOKENS_BY_CREATOR_PAGE l (l.length / MAX_TOKENS_BY_CREATOR_PAGE))
    (hlegacy : w.content.inst (.legacyCreatorTokens creator) = none)
    (h : (appendCreatorToken creator index).Returns env w u w') :
    w'.content = w.content.appendCreatorToken creator l index := by
  simp only [Factory.appendCreatorToken, returns_bind, returns_getPersistent,
    returns_setPersistent, returns_okOr, U32.checkedAdd_eq_some] at h
  obtain ⟨count, w₁, hc, bucket, _, ⟨rfl, rfl⟩, _, _, rfl, _, _, ⟨⟨rfl, -⟩, rfl⟩, rfl⟩ := h
  obtain ⟨rfl, hw₁⟩ := returns_creatorTokenCount hcount hlegacy hc
  have hb : w₁.storage.persistent
      (.creatorTokens creator (l.length / MAX_TOKENS_BY_CREATOR_PAGE)) = _ :=
    (congrFun (congrArg Content.persistent hw₁) _).trans hpage
  rw [hb, World.content_setPersistent, World.content_setPersistent, hw₁]
  rfl

/-! ### The entries of a new record -/

/-- The content after the writes of `register_token`. -/
def Content.register (t : Token) (l : List ℕ) (index : ℕ) (c : Content) : Content :=
  ((((c.setPersistent (.tokenInfo index) t.info).appendCreatorToken t.creator l
    index).setPersistent (.tokenIndex t.address) index).setPersistent
      (.tokenAddress index) t.address).setPersistent (.owner t.address) t.creator

theorem content_registerToken {t : Token} {index : ℕ} {l : List ℕ} {u : Unit}
    (hcount : w.content.persistent (.creatorTokenCount t.creator) =
      if l = [] then none else some l.length)
    (hpage : w.content.persistent
        (.creatorTokens t.creator (l.length / MAX_TOKENS_BY_CREATOR_PAGE)) =
      page MAX_TOKENS_BY_CREATOR_PAGE l (l.length / MAX_TOKENS_BY_CREATOR_PAGE))
    (hlegacy : w.content.inst (.legacyCreatorTokens t.creator) = none)
    (h : (registerToken t.address t.creator index t.info).Returns env w u w') :
    w'.content = w.content.register t l index := by
  simp only [registerToken, returns_bind, returns_setPersistent] at h
  obtain ⟨_, _, rfl, _, w₁, happ, _, _, rfl, _, _, rfl, rfl⟩ := h
  have hw₁ := content_appendCreatorToken (l := l) (by simpa using hcount) (by simpa using hpage)
    (by simpa using hlegacy) happ
  simp only [World.content_setPersistent, hw₁]
  rfl

/-- The creator's list after a record is added. -/
theorem FactoryModel.creatorTokens_push {t : Token} {h : m.tokens.find? t.address = none}
    {c : Address} : ({ m with tokens := m.tokens.push t h } : FactoryModel).creatorTokens c =
      m.creatorTokens c ++ if t.creator = c then [m.tokens.length + 1] else [] := by
  rw [creatorTokens, Keyed.indices_push]
  simp only [decide_eq_true_eq]
  rfl

/-- **Adding a record changes the entries that `register_token` and the supply seed write**, and
no others. -/
theorem FactoryModel.content_push {t : Token} (h : m.tokens.find? t.address = none)
    (hnew : t.uris = [] ∧ t.frozen = false ∧ t.backfilled = false) {c : Content}
    (hsupply : c.persistent (.supply t.address) = t.supply.map CappedSupply.counter)
    (hold : ∀ k, k ≠ .supply t.address → c.persistent k = m.persistent k)
    (hinst : c.inst = m.inst st)
    (hcontracts : c.contracts = Function.update (m.content st).contracts t.address
      (some t.wasmHash)) :
    c.register t (m.creatorTokens t.creator) (m.tokens.length + 1) =
      ({ m with tokens := m.tokens.push t h } : FactoryModel).content st := by
  have hpages : 0 < MAX_TOKENS_BY_CREATOR_PAGE := by decide
  refine Content.ext ?_ ?_ ?_
  · funext k
    unfold Content.register Content.appendCreatorToken
    -- each map of single entries changes at the new number or address only
    cases k with
    | tokenInfo i =>
      by_cases hi : i = m.tokens.length + 1
      · subst hi
        simp [content, persistent, Keyed.at?_push]
      · simp [content, persistent, Keyed.at?_push, hi, hold]
    | tokenAddress i =>
      by_cases hi : i = m.tokens.length + 1
      · subst hi
        simp [content, persistent, Keyed.at?_push]
      · simp [content, persistent, Keyed.at?_push, hi, hold]
    | tokenIndex a =>
      by_cases ha : a = t.address
      · subst ha
        simp [content, persistent, Keyed.index?_push]
      · simp [content, persistent, Keyed.index?_push, ha, hold]
    | owner a =>
      by_cases ha : a = t.address
      · subst ha
        simp [content, persistent, Keyed.find?_push]
      · simp [content, persistent, Keyed.find?_push, ha, hold]
    | supply a =>
      by_cases ha : a = t.address
      · subst ha
        simp [content, persistent, Keyed.find?_push, hsupply]
      · simp [content, persistent, Keyed.find?_push, ha, hold]
    | metadata a =>
      by_cases ha : a = t.address
      · subst ha
        simp [content, persistent, Keyed.find?_push, hold, h, hnew]
      · simp [content, persistent, Keyed.find?_push, ha, hold]
    | metadataVersion a =>
      by_cases ha : a = t.address
      · subst ha
        simp [content, persistent, Keyed.find?_push, hold, h, hnew]
      · simp [content, persistent, Keyed.find?_push, ha, hold]
    | metadataFrozen a =>
      by_cases ha : a = t.address
      · subst ha
        simp [content, persistent, Keyed.find?_push, hold, h, hnew]
      · simp [content, persistent, Keyed.find?_push, ha, hold]
    | backfilled a =>
      by_cases ha : a = t.address
      · subst ha
        simp [content, persistent, Keyed.find?_push, hold, h, hnew]
      · simp [content, persistent, Keyed.find?_push, ha, hold]
    -- the last page of the creator grows by one, or a new page is begun
    | creatorTokens c p =>
      simp only [content, persistent, creatorTokens_push]
      by_cases hc : t.creator = c
      · subst hc
        rw [if_pos rfl]
        by_cases hp : p = (m.creatorTokens t.creator).length / MAX_TOKENS_BY_CREATOR_PAGE
        · subst hp
          rw [page_append_self hpages]
          simp
        · rw [page_append_of_ne hpages hp]
          simp [hp, hold, persistent]
      · rw [if_neg hc, List.append_nil]
        simp [Ne.symm hc, hold, persistent]
    | creatorTokenCount c =>
      simp only [content, persistent, creatorTokens_push]
      by_cases hc : t.creator = c
      · subst hc
        simp
      · rw [if_neg hc, List.append_nil]
        simp [Ne.symm hc, hold, persistent]
    | _ => simp [content, persistent, hold]
  · exact hinst
  · refine hcontracts.trans (Function.update_eq_iff.mpr ⟨?_, fun a ha => ?_⟩)
    · simp [content, Keyed.find?_push]
    · simp [content, Keyed.find?_push, ha]

/-! ### Validation -/

/-- The check of the parameters lets the valid ones through. -/
theorem returns_validateTokenParams {p : BatchTokenParams} {u : Unit} :
    (validateTokenParams p).Returns env w u w' ↔ p.Valid ∧ w = w' := by
  simp only [validateTokenParams, returns_bind, returns_throwIf]
  constructor
  · rintro ⟨_, _, ⟨hn, rfl⟩, _, _, ⟨hs, rfl⟩, _, _, ⟨hd, rfl⟩, _, _, ⟨hi, rfl⟩, h⟩
    rcases hm : p.maxSupply with _ | cap
    · rw [hm, returns_pure] at h
      exact ⟨⟨by omega, by omega, by omega, by omega, by simp [hm]⟩, h.2⟩
    · rw [hm] at h
      rw [returns_throwIf] at h
      exact ⟨⟨by omega, by omega, by omega, by omega, by simp [hm]; omega⟩, h.2⟩
  · rintro ⟨⟨hn, hs, hd, hi, hm⟩, rfl⟩
    refine ⟨(), _, ⟨by omega, rfl⟩, (), _, ⟨by omega, rfl⟩, (), _, ⟨by omega, rfl⟩, (), _,
      ⟨by omega, rfl⟩, ?_⟩
    rcases hc : p.maxSupply with _ | cap
    · exact returns_pure.mpr ⟨rfl, rfl⟩
    · have := hm cap hc
      exact returns_throwIf.mpr ⟨by omega, rfl⟩

theorem returns_validateBatch {ps : List BatchTokenParams} {u : Unit} :
    (validateBatch ps).Returns env w u w' ↔ (∀ p ∈ ps, p.Valid) ∧ w = w' := by
  induction ps generalizing w with
  | nil => simp [validateBatch]
  | cons p ps ih =>
    simp only [validateBatch, returns_bind, returns_validateTokenParams, ih, List.forall_mem_cons]
    grind

/-! ### Recording a token -/

/-- Adding a token changes nothing but the registry. -/
theorem FactoryModel.create_eq_some {creator a : Address} {p : BatchTokenParams}
    {m' : FactoryModel} (h : m.create env creator p a = some m') :
    ∃ (hp : p.Valid) (hfree : m.tokens.find? a = none), m' = { m with
      tokens := m.tokens.push (Token.new env creator p hp a m.tokenWasmHash) hfree } := by
  unfold create Token.create at h
  split_ifs at h with hp
  simp only [] at h
  split_ifs at h with hfree
  exact ⟨hp, hfree, (Option.some.inj h).symm⟩

theorem FactoryModel.length_create {creator a : Address} {p : BatchTokenParams}
    {m' : FactoryModel} (h : m.create env creator p a = some m') :
    m'.tokens.length = m.tokens.length + 1 := by
  obtain ⟨_, hfree, rfl⟩ := create_eq_some h
  exact Keyed.length_push (h := hfree)

section

variable [env.NoReentry]

theorem content_mintInitialSupply {a creator : Address} {p : BatchTokenParams} {u : Unit}
    (h : (mintInitialSupply a creator p).Returns env w u w') : w'.content = w.content := by
  simp only [mintInitialSupply, returns_ite, returns_mintToken, returns_pure] at h
  rcases h with ⟨-, -, rfl⟩ | ⟨-, -, rfl⟩ <;> rfl

omit [env.NoReentry] in
theorem content_seedSupply {a : Address} {p : BatchTokenParams} (hp : p.Valid) {u : Unit}
    (h : (seedSupply a p).Returns env w u w') :
    (∃ s, p.supply hp = some s ∧ w'.content = w.content.setPersistent (.supply a) s.counter) ∨
      p.supply hp = none ∧ w'.content = w.content := by
  simp only [seedSupply, returns_ite, returns_setPersistent, returns_pure] at h
  rcases h with ⟨hsome, rfl⟩ | ⟨hnone, -, rfl⟩
  · obtain ⟨cap, hcap⟩ := Option.isSome_iff_exists.mp hsome
    exact .inl ⟨_, Option.pmap_some' hcap, rfl⟩
  · rw [Option.isSome_iff_ne_none, not_not] at hnone
    exact .inr ⟨Option.pmap_none' hnone, rfl⟩

/-- **Recording a token adds its record to the abstract factory.** -/
theorem Holds.recordToken {creator : Address} {p : BatchTokenParams} {s : FactoryState}
    {r : Address × FactoryState} (hw : Holds w m st) (hp : p.Valid)
    (hcount : s.tokenCount = m.tokens.length) (hwasm : s.tokenWasmHash = m.tokenWasmHash)
    (h : (recordToken creator p s).Returns env w r w') :
    ∃ m', m.create env creator p r.1 = some m' ∧ Holds w' m' st ∧
      r.2 = { s with tokenCount := m'.tokens.length } := by
  simp only [Factory.recordToken, returns_bind, returns_deploy, returns_initializeToken,
    returns_okOr, U32.checkedAdd_eq_some, returns_getEnv, returns_publish, returns_pure] at h
  obtain ⟨a, w₁, ⟨-, hfree, rfl⟩, _, w₂, ⟨-, rfl⟩, _, w₃, hmint, _, w₄, hseed, _, _,
    ⟨⟨rfl, -⟩, rfl⟩, _, _, ⟨rfl, rfl⟩, _, w₅, hreg, _, _, rfl, rfl, rfl⟩ := h
  rw [hw.contracts, Option.map_eq_none_iff] at hfree
  set t := Token.new env creator p hp a m.tokenWasmHash
  have hm : m.create env creator p a = some { m with tokens := m.tokens.push t hfree } := by
    rw [FactoryModel.create, Token.create, dif_pos hp]
    exact dif_pos hfree
  -- the content before the registration: the contract, and the seed of a capped token
  have hw₃ : w₃.content = (m.content st).addContract a m.tokenWasmHash := by
    rw [content_mintInitialSupply hmint, World.content_logCall, World.content_addContract,
      World.content_logCall, hw, hwasm]
  have hbase : w₄.content.persistent (.supply a) = t.supply.map CappedSupply.counter ∧
      (∀ k, k ≠ .supply a → w₄.content.persistent k = m.persistent k) ∧
      w₄.content.inst = m.inst st ∧ w₄.content.contracts = w₃.content.contracts := by
    rcases content_seedSupply hp hseed with ⟨s, hs, hw₄⟩ | ⟨hs, hw₄⟩
    · have hts : t.supply = some s := hs
      rw [hw₄, hw₃, hts]
      exact ⟨Content.persistent_setPersistent_self,
        fun k hk => Content.persistent_setPersistent_of_ne hk, rfl, rfl⟩
    · have hts : t.supply = none := hs
      rw [hw₄, hw₃, hts]
      refine ⟨?_, fun k _ => rfl, rfl, rfl⟩
      change (m.tokens.find? a).bind _ = none
      rw [hfree, Option.bind_none]
  obtain ⟨hsupply, hold, hinst, hcontracts⟩ := hbase
  have hw₅ := content_registerToken (t := t) (l := m.creatorTokens creator)
    ((hold _ (by simp)).trans rfl) ((hold _ (by simp)).trans rfl)
    (by rw [hinst]; exact FactoryModel.inst_eq_none rfl) hreg
  refine ⟨_, hm, ?_, ?_⟩
  · rw [Holds, World.content_publish, hw₅, hcount]
    exact FactoryModel.content_push hfree ⟨rfl, rfl, rfl⟩ hsupply hold hinst
      (hcontracts.trans (by rw [hw₃]; rfl))
  · rw [FactoryModel.length_create hm, hcount]

/-- **Recording a batch adds its records, in order.** -/
theorem Holds.recordTokens {creator : Address} {ps : List BatchTokenParams} {s : FactoryState}
    {addresses : List Address} {r : List Address × FactoryState} (hw : Holds w m st)
    (hps : ∀ p ∈ ps, p.Valid) (hcount : s.tokenCount = m.tokens.length)
    (hwasm : s.tokenWasmHash = m.tokenWasmHash)
    (h : (recordTokens creator ps addresses s).Returns env w r w') :
    ∃ new m', r.1 = addresses ++ new ∧ m.createAll env creator ps new = some m' ∧
      Holds w' m' st ∧ r.2 = { s with tokenCount := m'.tokens.length } := by
  induction ps generalizing w m s addresses with
  | nil =>
    rw [Factory.recordTokens, returns_pure] at h
    obtain ⟨rfl, rfl⟩ := h
    exact ⟨[], m, (List.append_nil _).symm, rfl, hw, by rw [← hcount]⟩
  | cons p ps ih =>
    simp only [Factory.recordTokens, returns_bind] at h
    obtain ⟨⟨a, s₁⟩, w₁, hrec, h⟩ := h
    rw [List.forall_mem_cons] at hps
    obtain ⟨m₁, hm₁, hw₁, rfl⟩ := hw.recordToken hps.1 hcount hwasm hrec
    obtain ⟨_, _, hm₁'⟩ := FactoryModel.create_eq_some hm₁
    -- the next record is made from the state the one before has left
    have hwasm₁ : s.tokenWasmHash = m₁.tokenWasmHash := hwasm.trans (by rw [hm₁'])
    obtain ⟨new, m', hr, hm', hw', hs'⟩ :=
      ih (s := { s with tokenCount := m₁.tokens.length }) hw₁ hps.2 rfl hwasm₁ h
    refine ⟨a :: new, m', by rw [hr, List.append_assoc, List.singleton_append], ?_, hw', hs'⟩
    rw [FactoryModel.createAll, hm₁, Option.bind_some, hm']

end

end StellarForge.Factory
