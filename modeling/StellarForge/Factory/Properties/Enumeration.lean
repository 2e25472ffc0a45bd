import StellarForge.Factory.Properties.Histories

/-!
# The registry maps agree in every reachable state

`RegistryBijection w n registered` is what enumeration over the registry relies on: six stored maps
that describe one numbering of the registered addresses.  `registry_bijection` proves it of every
world that a run reaches, with `n` the stored token count and `registered` the addresses created.
-/

namespace StellarForge.Factory

open Soroban Contract Collections Transition FactoryModel

/-! ### The stored lists -/

namespace World

/-- A page of a creator's token list, empty where there is none. -/
def creatorPage (w : World) (creator : Address) (p : ℕ) : List ℕ :=
  (w.storage.persistent (.creatorTokens creator p)).getD []

/-- The stored length of a creator's token list. -/
def creatorCount (w : World) (creator : Address) : ℕ :=
  (w.storage.persistent (.creatorTokenCount creator)).getD 0

/-- A creator's token list: its pages, one after the other. -/
def creatorList (w : World) (creator : Address) : List ℕ :=
  (List.range (w.creatorCount creator)).flatMap (w.creatorPage creator)

end World

/-- The stored maps describe one numbering of the registered addresses by `1`, …, `n`. -/
structure RegistryBijection (w : World) (n : ℕ) (registered : List Address) : Prop where
  /-- `TokenAddress` and `TokenIndex` are inverse to each other. -/
  inverse : ∀ i a, w.storage.persistent (.tokenAddress i) = some a ↔
    w.storage.persistent (.tokenIndex a) = some i
  address_domain : ∀ i, (w.storage.persistent (.tokenAddress i)).isSome ↔ 1 ≤ i ∧ i ≤ n
  index_domain : ∀ a, (w.storage.persistent (.tokenIndex a)).isSome ↔ a ∈ registered
  info_domain : ∀ i, (w.storage.persistent (.tokenInfo i)).isSome ↔ 1 ≤ i ∧ i ≤ n
  owner : ∀ i a info, w.storage.persistent (.tokenAddress i) = some a →
    w.storage.persistent (.tokenInfo i) = some info →
    w.storage.persistent (.owner a) = some info.creator
  /-- An index occurs once: for one creator, on one page, at one position. -/
  listed_once : ∀ i, 1 ≤ i → i ≤ n →
    ∃! x : Address × ℕ × ℕ, (w.creatorPage x.1 x.2.1)[x.2.2]? = some i
  /-- What is listed for a creator is a token of that creator. -/
  listed_creator : ∀ c p i, i ∈ w.creatorPage c p →
    ∃ info, w.storage.persistent (.tokenInfo i) = some info ∧ info.creator = c
  count : ∀ c, w.creatorCount c = (w.creatorList c).length
  increasing : ∀ c, (w.creatorList c).Pairwise (· < ·)
  /-- There are no pages beyond those that the count accounts for. -/
  no_more_pages : ∀ c p, w.creatorCount c ≤ p → w.creatorPage c p = []

variable {args : ConstructorArgs} {h : List Invocation} {w : World} {m : FactoryModel}
  {c a : Address} {i p : ℕ}

/-! ### Reading the stored maps -/

namespace Represents

theorem tokenInfo (hw : Represents w m) (i : ℕ) :
    w.storage.persistent (.tokenInfo i) = (m.tokens.at? i).map Token.info :=
  Holds.persistent hw _

theorem tokenAddress (hw : Represents w m) (i : ℕ) :
    w.storage.persistent (.tokenAddress i) = (m.tokens.at? i).map Token.address :=
  Holds.persistent hw _

theorem tokenIndex (hw : Represents w m) (a : Address) :
    w.storage.persistent (.tokenIndex a) = m.tokens.index? a :=
  Holds.persistent hw _

theorem owner (hw : Represents w m) (a : Address) :
    w.storage.persistent (.owner a) = (m.tokens.find? a).map Token.creator :=
  Holds.persistent hw _

theorem creatorPage (hw : Represents w m) (c : Address) (p : ℕ) :
    w.creatorPage c p = (page MAX_TOKENS_BY_CREATOR_PAGE (m.creatorTokens c) p).getD [] :=
  congrArg (Option.getD · []) (Holds.persistent hw (.creatorTokens c p))

/-- The count of a creator's tokens. -/
theorem creatorCount (hw : Represents w m) (c : Address) :
    w.creatorCount c = (m.creatorTokens c).length := by
  have hcount : w.storage.persistent (.creatorTokenCount c) =
      if m.creatorTokens c = [] then none else some (m.creatorTokens c).length :=
    Holds.persistent hw _
  rw [World.creatorCount, hcount]
  split_ifs with hl
  · rw [hl]
    rfl
  · rfl

theorem creatorList (hw : Represents w m) (c : Address) :
    w.creatorList c = m.creatorTokens c := by
  have hpages : w.creatorPage c =
      fun p => (page MAX_TOKENS_BY_CREATOR_PAGE (m.creatorTokens c) p).getD [] :=
    funext fun p => hw.creatorPage c p
  rw [World.creatorList, hpages, flatMap_page, hw.creatorCount]
  exact List.take_of_length_le (Nat.le_mul_of_pos_right _ (by decide))

end Represents

/-! ### The creators' lists -/

theorem FactoryModel.mem_creatorTokens :
    i ∈ m.creatorTokens c ↔ ∃ t, m.tokens.at? i = some t ∧ t.creator = c := by
  rw [creatorTokens, Keyed.mem_indices]
  simp only [decide_eq_true_eq]

/-- A listed index is at the position that its place on the pages names. -/
theorem Represents.getElem?_creatorPage (hw : Represents w m) {j : ℕ} :
    (w.creatorPage c p)[j]? = some i ↔
      j < MAX_TOKENS_BY_CREATOR_PAGE ∧
        (m.creatorTokens c)[p * MAX_TOKENS_BY_CREATOR_PAGE + j]? = some i := by
  rw [hw.creatorPage]
  by_cases hj : j < MAX_TOKENS_BY_CREATOR_PAGE
  · rw [getElem?_page_mul_add hj]
    exact ⟨fun h => ⟨hj, h⟩, fun h => h.2⟩
  · rw [getElem?_page_of_le (not_lt.mp hj)]
    exact ⟨fun h => by simp at h, fun h => absurd h.1 hj⟩

/-- Every token is listed once, in one page of one creator. -/
theorem Represents.listed_once (hw : Represents w m) (h₁ : 1 ≤ i) (h₂ : i ≤ m.tokens.length) :
    ∃! x : Address × ℕ × ℕ, (w.creatorPage x.1 x.2.1)[x.2.2]? = some i := by
  obtain ⟨t, ht⟩ := Option.isSome_iff_exists.mp (Keyed.at?_isSome.mpr ⟨h₁, h₂⟩)
  obtain ⟨j, hj⟩ := List.getElem?_of_mem (mem_creatorTokens.mpr ⟨t, ht, rfl⟩)
  refine ⟨(t.creator, j / MAX_TOKENS_BY_CREATOR_PAGE, j % MAX_TOKENS_BY_CREATOR_PAGE), ?_, ?_⟩
  · refine hw.getElem?_creatorPage.mpr ⟨Nat.mod_lt _ (by decide), ?_⟩
    rw [Nat.mul_comm, Nat.div_add_mod, hj]
  · rintro ⟨c, p, k⟩ hk
    obtain ⟨hlt, hk⟩ := hw.getElem?_creatorPage.mp hk
    -- the creator is that of the token, and its list has no index twice
    obtain ⟨t', ht', rfl⟩ := mem_creatorTokens.mp (List.mem_of_getElem? hk)
    obtain rfl := Option.some.inj (ht.symm.trans ht')
    have hnodup : (m.creatorTokens t.creator).Nodup :=
      Keyed.pairwise_indices.imp fun hlt => Nat.ne_of_lt hlt
    have hjk : j = p * MAX_TOKENS_BY_CREATOR_PAGE + k :=
      (List.getElem?_inj (List.getElem?_eq_some_iff.mp hj).1 hnodup).mp (hj.trans hk.symm)
    rw [hjk, Nat.mul_comm, Nat.mul_add_div (by decide), Nat.mul_add_mod, Nat.div_eq_of_lt hlt,
      Nat.mod_eq_of_lt hlt, Nat.add_zero]

/-! ### The bijection -/

/-- The six maps agree in a world that holds an abstract factory. -/
theorem Represents.registryBijection (hw : Represents w m) :
    RegistryBijection w m.tokens.length (m.tokens.records.map Token.address) where
  inverse i a := by
    rw [hw.tokenAddress, hw.tokenIndex, Option.map_eq_some_iff, Keyed.index?_eq_some]
  address_domain i := by rw [hw.tokenAddress, Option.isSome_map, Keyed.at?_isSome]
  index_domain a := by
    rw [hw.tokenIndex, Keyed.isSome_index?, Option.isSome_iff_exists, List.mem_map]
    simp only [Keyed.find?_eq_some]
  info_domain i := by rw [hw.tokenInfo, Option.isSome_map, Keyed.at?_isSome]
  -- the creator in a record is the owner of its token
  owner i a info ha hinfo := by
    rw [hw.tokenAddress, Option.map_eq_some_iff] at ha
    obtain ⟨t, ht, rfl⟩ := ha
    rw [hw.tokenInfo, ht, Option.map_some, Option.some.injEq] at hinfo
    rw [hw.owner, Keyed.find?_eq_some_iff_at?.mpr ⟨i, ht, rfl⟩, Option.map_some, ← hinfo]
    rfl
  listed_once i h₁ h₂ := hw.listed_once h₁ h₂
  listed_creator c p i hi := by
    obtain ⟨j, hj⟩ := List.getElem?_of_mem hi
    obtain ⟨-, hj⟩ := hw.getElem?_creatorPage.mp hj
    obtain ⟨t, ht, rfl⟩ := mem_creatorTokens.mp (List.mem_of_getElem? hj)
    exact ⟨t.info, by rw [hw.tokenInfo, ht, Option.map_some], rfl⟩
  count c := by rw [hw.creatorCount, hw.creatorList]
  increasing c := by
    rw [hw.creatorList]
    exact Keyed.pairwise_indices
  no_more_pages c p hp := by
    rw [hw.creatorCount] at hp
    have hpast : (m.creatorTokens c).length ≤ p * MAX_TOKENS_BY_CREATOR_PAGE :=
      hp.trans (Nat.le_mul_of_pos_right _ (by decide))
    rw [hw.creatorPage, getD_page, List.drop_eq_nil_of_le hpast, List.take_nil]

/-- **Registry bijection**: in every reachable state the stored maps describe one numbering of the
addresses that the run has created. -/
theorem registry_bijection (hr : Reaches args h w) :
    ∃ st, w.state? = some st ∧ st.tokenCount = (created h).length ∧
      RegistryBijection w st.tokenCount ((created h).map Prod.fst) := by
  obtain ⟨m, hm, hw⟩ := hr.represents
  have horigins : m.tokens.records.map Token.origin = created h := by
    rw [origins_of_run hm]
    rfl
  have haddresses : (created h).map Prod.fst = m.tokens.records.map Token.address := by
    rw [← horigins, List.map_map]
    rfl
  refine ⟨m.state, hw.state?, ?_, ?_⟩
  · rw [← horigins, List.length_map]
    rfl
  · rw [haddresses]
    exact hw.registryBijection

/-! ### Two tokens -/

namespace TwoTokens

/-- A token without a supply at its creation. -/
def second : BatchTokenParams := { SampleRun.params with salt := 51, initialSupply := 0 }

/-- `5` creates a batch with the token `51`, and then `6` the token `50`. -/
def history : List Invocation :=
  [⟨permissiveEnv 20 ⟨6⟩, .createToken ⟨6⟩ SampleRun.params 100, .address ⟨50⟩⟩,
    ⟨permissiveEnv 10 ⟨5⟩, .createTokensBatch ⟨5⟩ [second] 100, .addresses [⟨51⟩]⟩]

/-- A second token has come from a batch. -/
def world₁ : World :=
  (Call.createTokensBatch ⟨5⟩ [second] 100).exec.commit (permissiveEnv 10 ⟨5⟩) SampleRun.world₀

/-- A third token has come from another creator. -/
def world₂ : World :=
  (Call.createToken ⟨6⟩ SampleRun.params 100).exec.commit (permissiveEnv 20 ⟨6⟩) world₁

/-- The call returns this address. -/
def creates (a : Address) (result : Option (Except Error Ret × World)) : Bool :=
  match result with
  | some (.ok (.address b), _) => b = a
  | _ => false

theorem map_fst_of_creates {a : Address} {result : Option (Except Error Ret × World)}
    (h : creates a result = true) : result.map Prod.fst = some (.ok (.address a)) := by
  unfold creates at h
  split at h
  · rw [of_decide_eq_true h]
    rfl
  · cases h

theorem reaches : Reaches SampleRun.constructorArgs history world₂ := by
  have hsecond : creates ⟨50⟩ ((Call.createToken ⟨6⟩ SampleRun.params 100).exec (permissiveEnv 20 ⟨6⟩)
      world₁) = true := by decide +kernel
  exact (SampleRun.reaches₀.step (step_commit inferInstance rfl)).step
    (step_commit inferInstance (map_fst_of_creates hsecond))

end TwoTokens

/-- The two tokens are numbered in the order of their creation. -/
theorem registry_bijection_sampleRun : ∃ st, TwoTokens.world₂.state? = some st ∧ st.tokenCount = 2 ∧
    RegistryBijection TwoTokens.world₂ st.tokenCount [⟨51⟩, ⟨50⟩] :=
  registry_bijection TwoTokens.reaches

end StellarForge.Factory
