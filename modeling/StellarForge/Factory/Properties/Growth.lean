import StellarForge.Factory.Properties.Creation
import StellarForge.Factory.Properties.CreatorLists

/-!
# A factory grows

Where every call to another contract succeeds, creating a token with a new address succeeds as soon as
the checks of `create_token` are passed.

* `Represents.createToken_returns`: the progress lemma;
* `reaches_created`: a factory with any number of tokens of one creator can be reached.
-/

namespace StellarForge.Factory

open Soroban Contract Collections Transition FactoryModel

variable {w w' : World} {m : FactoryModel} {st s : FactoryState} {env : Env}
  {creator a token : Address} {p : BatchTokenParams} {index sequence : ℕ} {feePayment : ℤ}
  {info : TokenInfo} {l : List ℕ}

/-! ### Registering -/

theorem FactoryModel.length_creatorTokens_le (m : FactoryModel) (creator : Address) :
    (m.creatorTokens creator).length ≤ m.tokens.length := by
  have hle := List.length_filter_le (fun i => (m.tokens.at? i).any fun t => t.creator = creator)
    (List.range' 1 m.tokens.length)
  rwa [List.length_range'] at hle

/-- The entries of the list of `creator`. -/
structure Listing (w : World) (creator : Address) (l : List ℕ) : Prop where
  count : w.storage.persistent (.creatorTokenCount creator) = if l = [] then none else some l.length
  pages : ∀ p, w.storage.persistent (.creatorTokens creator p) =
    page MAX_TOKENS_BY_CREATOR_PAGE l p
  legacy : w.storage.inst (.legacyCreatorTokens creator) = none

theorem Holds.listing (hw : Holds w m st) (creator : Address) :
    Listing w creator (m.creatorTokens creator) where
  count := hw.persistent _
  pages p := hw.persistent (.creatorTokens creator p)
  legacy := hw.inst _

/-- The view is a slice of the list. -/
theorem Holds.returns_getTokensByCreator (hw : Holds w m st) {offset limit : ℕ}
    (hfits : offset + min limit MAX_TOKENS_BY_CREATOR_PAGE ≤ U32.MAX) :
    (getTokensByCreator creator offset limit).Returns env w
      (((m.creatorTokens creator).drop offset).take (min limit MAX_TOKENS_BY_CREATOR_PAGE)) w := by
  have hlisting := hw.listing creator
  apply returns_getTokensByCreator_of_pages env _ hlisting.pages (Or.inr hfits)
  have hlookup : w.storage.lookup (.creatorTokenCount creator) =
      w.storage.persistent (.creatorTokenCount creator) := by
    rw [hw.lookup rfl, hw.persistent]
  rw [hlookup, hlisting.count]
  split_ifs with hnil
  · rw [hnil]
    rfl
  · rfl

theorem Holds.returns_getTokenInfo (hw : Holds w m st) {i : ℕ} {t : Token}
    (ht : m.tokens.at? i = some t) : (getTokenInfo i).Returns env w t.info w := by
  have hlookup : w.storage.lookup (.tokenInfo i) = some t.info := by
    rw [hw.lookup rfl]
    show (m.tokens.at? i).map Token.info = some t.info
    rw [ht, Option.map_some]
  simp only [getTokenInfo, returns_bind, returns_readAddrKeyed, returns_okOr]
  exact ⟨_, w, ⟨hlookup, rfl⟩, rfl, rfl⟩

/-- A list that is not full can be appended to. -/
theorem Listing.appendCreatorToken_returns (h : Listing w creator l) (env : Env)
    (hroom : l.length < U32.MAX) (index : ℕ) :
    ∃ w', (appendCreatorToken creator index).Returns env w () w' := by
  have hcount := h.count
  by_cases hnil : l = []
  · rw [if_pos hnil] at hcount
    have hempty : Unmigrated w creator [] := by
      refine ⟨?_, hcount, fun p => ?_⟩
      · rw [h.legacy, Option.getD_none]
      · rw [h.pages, hnil, page_nil]
    obtain ⟨w₁, hw₁⟩ := hempty.counted env (Nat.zero_le _)
    obtain ⟨w', hrun, -⟩ := hw₁.append (i := index) (by decide)
    exact ⟨w', hrun⟩
  · rw [if_neg hnil] at hcount
    have hpaged : Paged w creator l := ⟨hcount, h.pages, hroom.le⟩
    obtain ⟨w₁, hw₁, -⟩ := hpaged.counted env
    obtain ⟨w', hrun, -⟩ := hw₁.append (i := index) hroom
    exact ⟨w', hrun⟩

/-- There is room for another token of a creator. -/
theorem Listing.registerToken_returns (h : Listing w creator l) (hroom : l.length < U32.MAX)
    (token : Address) (index : ℕ) (info : TokenInfo) (env : Env) :
    ∃ w', (registerToken token creator index info).Returns env w () w' := by
  have hinfo : Listing (w.setPersistent env (.tokenInfo index) info) creator l := by
    refine ⟨?_, fun p => ?_, h.legacy⟩
    · rw [(sameEntry_setPersistent (by simp)).1, h.count]
    · rw [(sameEntry_setPersistent (by simp)).1, h.pages]
  obtain ⟨w₁, hrun⟩ := hinfo.appendCreatorToken_returns env hroom index
  simp only [registerToken, returns_bind, returns_setPersistent]
  exact ⟨_, (), _, rfl, (), w₁, hrun, (), _, rfl, (), _, rfl, rfl⟩

/-! ### Creating -/

/-- Without a split the fee goes to the treasury. -/
theorem distributeFee_returns (hsplit : w.storage.inst .split = none) {payer : Address}
    {amount : ℤ} :
    ∃ w', (distributeFee st payer amount).Returns (permissiveEnv sequence a) w () w' := by
  refine ⟨w.logCall (.tryTransfer st.feeToken payer st.treasury amount) true, ?_⟩
  simp only [distributeFee, returns_bind, returns_getInst]
  refine ⟨none, w, ⟨hsplit, rfl⟩, ?_⟩
  simp only [payTreasury, returns_bind, returns_tryTransfer, returns_throwIf]
  exact ⟨true, _, ⟨rfl, rfl⟩, by decide, rfl⟩

theorem mintInitialSupply_returns (w : World) (token : Address) :
    ∃ w', (mintInitialSupply token creator p).Returns (permissiveEnv sequence a) w () w' ∧
      w'.storage = w.storage := by
  simp only [mintInitialSupply, returns_ite, returns_mintToken, returns_pure]
  by_cases hpos : p.initialSupply > 0
  · exact ⟨_, .inl ⟨hpos, rfl, rfl⟩, rfl⟩
  · exact ⟨w, .inr ⟨hpos, trivial, rfl⟩, rfl⟩

theorem seedSupply_returns (h : Listing w creator l) (token : Address) (env : Env) :
    ∃ w', (seedSupply token p).Returns env w () w' ∧ Listing w' creator l := by
  simp only [seedSupply, returns_ite, returns_setPersistent, returns_pure]
  by_cases hcap : p.maxSupply.isSome = true
  · refine ⟨_, .inl ⟨hcap, rfl⟩, ?_, fun p => ?_, h.legacy⟩
    · rw [(sameEntry_setPersistent (by simp)).1, h.count]
    · rw [(sameEntry_setPersistent (by simp)).1, h.pages]
  · exact ⟨w, .inr ⟨hcap, trivial, rfl⟩, h⟩

/-- A creation at a free address succeeds while there is room. -/
theorem Holds.recordToken_returns (hw : Holds w m st) (hcount : s.tokenCount < U32.MAX)
    (hroom : (m.creatorTokens creator).length < U32.MAX)
    (hfree : m.tokens.find? ⟨p.salt.toNat⟩ = none) :
    ∃ r w', (Factory.recordToken creator p s).Returns (permissiveEnv sequence a) w r w' := by
  have hcontracts : w.contracts ⟨p.salt.toNat⟩ = none := by
    rw [hw.contracts, hfree, Option.map_none]
  have hlisting := hw.listing creator
  -- deploying and minting leave the entries alone
  obtain ⟨w₁, hdeploy, hstorage₁⟩ : ∃ w₁,
      (deploy creator p.salt s.tokenWasmHash).Returns (permissiveEnv sequence a) w
        ⟨p.salt.toNat⟩ w₁ ∧ w₁.storage = w.storage :=
    ⟨_, returns_deploy.mpr ⟨rfl, hcontracts, rfl⟩, rfl⟩
  obtain ⟨w₂, hinit, hstorage₂⟩ : ∃ w₂,
      (initializeToken ⟨p.salt.toNat⟩ creator p.decimals p.name p.symbol).Returns
        (permissiveEnv sequence a) w₁ () w₂ ∧ w₂.storage = w₁.storage :=
    ⟨_, returns_initializeToken.mpr ⟨rfl, rfl⟩, rfl⟩
  obtain ⟨w₃, hmint, hstorage₃⟩ : ∃ w₃,
      (mintInitialSupply ⟨p.salt.toNat⟩ creator p).Returns (permissiveEnv sequence a) w₂ () w₃ ∧
        w₃.storage = w₂.storage :=
    mintInitialSupply_returns ..
  have hlisting₃ : Listing w₃ creator (m.creatorTokens creator) := by
    have hstorage : w₃.storage = w.storage := by
      rw [hstorage₃, hstorage₂, hstorage₁]
    refine ⟨?_, fun p => ?_, ?_⟩
    · rw [hstorage, hlisting.count]
    · rw [hstorage, hlisting.pages]
    · rw [hstorage, hlisting.legacy]
  obtain ⟨w₄, hseed, hlisting₄⟩ := seedSupply_returns (p := p) hlisting₃ ⟨p.salt.toNat⟩
    (permissiveEnv sequence a)
  obtain ⟨w₅, hregister⟩ := hlisting₄.registerToken_returns hroom ⟨p.salt.toNat⟩ (s.tokenCount + 1)
    { name := p.name, symbol := p.symbol, decimals := p.decimals, creator,
      createdAt := (permissiveEnv sequence a).timestamp, burnEnabled := true,
      maxSupply := p.maxSupply } (permissiveEnv sequence a)
  have hsum : U32.checkedAdd s.tokenCount 1 = some (s.tokenCount + 1) := by
    rw [U32.checkedAdd_eq_some]
    omega
  refine ⟨(⟨p.salt.toNat⟩, { s with tokenCount := s.tokenCount + 1 }),
    w₅.publish (.created ⟨p.salt.toNat⟩ creator p.name p.symbol), ?_⟩
  simp only [Factory.recordToken, returns_bind, returns_okOr, returns_getEnv, returns_publish, returns_pure]
  exact ⟨_, w₁, hdeploy, (), w₂, hinit, (), w₃, hmint, (), w₄, hseed, _, w₄, ⟨hsum, rfl⟩, _, w₄,
    ⟨rfl, rfl⟩, (), w₅, hregister, (), _, rfl, rfl, rfl⟩

/-- The address of a new token is given by the salt. -/
theorem address_recordToken {r : Address × FactoryState}
    (h : (Factory.recordToken creator p s).Returns (permissiveEnv sequence a) w r w') :
    r.1 = ⟨p.salt.toNat⟩ := by
  simp only [Factory.recordToken, returns_bind, returns_deploy, returns_pure] at h
  obtain ⟨address, w₁, ⟨hreply, -⟩, _, _, -, _, _, -, _, _, -, _, _, -, _, _, -, _, _, -, _, _, -, rfl,
    -⟩ := h
  exact (Option.some.inj hreply).symm

/-- **Creating a token succeeds** where no check stands against it and the address is new. -/
theorem Represents.createToken_returns (hw : Represents w m) (hp : p.Valid)
    (hmay : MayCreate (permissiveEnv sequence creator) m creator m.baseFee feePayment)
    (hsplit : m.split = none) (hroom : m.tokens.length < U32.MAX)
    (hfree : m.tokens.find? ⟨p.salt.toNat⟩ = none) :
    ∃ w', (Factory.createToken creator p feePayment).Returns (permissiveEnv sequence creator) w
      ⟨p.salt.toNat⟩ w' := by
  -- with nothing that fails the call returns, and then its address is the salt
  suffices hfailure : (Factory.createToken creator p feePayment).failure
      (permissiveEnv sequence creator) w = none by
    obtain ⟨a, w', hreturns⟩ := failure_eq_none.mp hfailure
    obtain ⟨st, s, w₁, w₂, -, -, -, -, hrecord, -⟩ := returns_createToken hreturns
    rw [← address_recordToken hrecord]
    exact ⟨w', hreturns⟩
  -- the gates, the whitelist, the count, the split and the creator's list, in the order they are read
  have hgates : Gates (permissiveEnv sequence creator) w creator p m.state :=
    ⟨Holds.state? hw, hmay.paused, hmay.authorized, rfl, hp⟩
  have hlisted : Listed w creator m.state := by
    intro henabled
    rw [Holds.lookup hw (k := .whitelist creator) rfl]
    show (if m.whitelist creator = true then some true else none).getD false = true
    rw [if_pos (hmay.whitelisted henabled)]
    rfl
  have hfull : U32.checkedAdd m.state.tokenCount 1 ≠ none := by
    have hsum : U32.checkedAdd m.state.tokenCount 1 = some (m.tokens.length + 1) := by
      rw [U32.checkedAdd_eq_some]
      exact ⟨rfl, hroom⟩
    rw [hsum]
    exact Option.some_ne_none _
  have hinst : w.storage.inst .split = none := by
    rw [Holds.inst hw]
    show m.split.map Subtype.val = none
    rw [hsplit, Option.map_none]
  have hcreator : (m.creatorTokens creator).length < U32.MAX := by
    have hle := length_creatorTokens_le m creator
    omega
  have hfee : ¬ feePayment < m.state.baseFee := not_lt.mpr hmay.fee_le
  rw [hgates.failure_createToken, if_neg hfee, if_pos hlisted, if_neg hfull,
    failure_eq_none.mpr ⟨(), distributeFee_returns hinst⟩,
    failure_eq_none.mpr (Holds.recordToken_returns hw hroom hcreator hfree)]
  rfl

/-! ### Any number of tokens -/

/-- The parameters of the sample run with another salt. -/
def growthParams (i : ℕ) : BatchTokenParams := { SampleRun.params with salt := BitVec.ofNat 256 i }

/-- All tokens are of one creator, and have small addresses. -/
structure Grown (m : FactoryModel) (n : ℕ) : Prop where
  paused : m.paused = false
  whitelistEnabled : m.whitelistEnabled = false
  baseFee : m.baseFee = 100
  split : m.split = none
  length : m.tokens.length = n
  addresses : ∀ t ∈ m.tokens.records, t.address.id < n
  listed : m.creatorTokens ⟨5⟩ = List.range' 1 n

theorem grown_initial : Grown SampleRun.constructorArgs.initialModel 0 where
  paused := rfl
  whitelistEnabled := rfl
  baseFee := rfl
  split := rfl
  length := rfl
  addresses := List.forall_mem_nil _
  listed := rfl

/-- One more token. -/
theorem Grown.step {n : ℕ} (h : Grown m n) (hn : n < U32.MAX) (hw : Represents w m) :
    ∃ i w' m', Step w i w' ∧ Represents w' m' ∧ Grown m' (n + 1) := by
  -- the salt is the number of the token, far below the size of the word
  have hsalt : (growthParams n).salt.toNat = n := by
    show (BitVec.ofNat 256 n).toNat = n
    rw [BitVec.toNat_ofNat]
    apply Nat.mod_eq_of_lt
    calc n < U32.MAX := hn
      _ < 2 ^ 256 := by norm_num [U32.MAX]
  have hvalid : (growthParams n).Valid := by
    have hsample : SampleRun.params.Valid := by decide
    exact ⟨hsample.1, hsample.2, hsample.3, hsample.4, hsample.5⟩
  have hmay : MayCreate (permissiveEnv 10 ⟨5⟩) m ⟨5⟩ m.baseFee 100 := by
    refine ⟨by decide, h.paused, ?_, fun henabled => ?_⟩
    · rw [h.baseFee]
      decide
    · rw [h.whitelistEnabled] at henabled
      cases henabled
  -- every address so far is below the new one
  have hfree : m.tokens.find? ⟨(growthParams n).salt.toNat⟩ = none := by
    rw [hsalt, Keyed.find?_eq_none]
    intro t ht haddress
    have hlt := h.addresses t ht
    rw [haddress] at hlt
    exact absurd hlt (Nat.lt_irrefl n)
  have hroom : m.tokens.length < U32.MAX := by
    rw [h.length]
    exact hn
  obtain ⟨w', hreturns⟩ := hw.createToken_returns hvalid hmay h.split hroom hfree
  rw [hsalt] at hreturns
  have hstep : Step w
      ⟨permissiveEnv 10 ⟨5⟩, .createToken ⟨5⟩ (growthParams n) 100, .address ⟨n⟩⟩ w' :=
    ⟨inferInstance, returns_wrap.mpr ⟨⟨n⟩, hreturns, rfl⟩⟩
  obtain ⟨m', hnext, hw'⟩ := hw.step hstep
  refine ⟨_, w', m', hstep, hw', ?_⟩
  -- the abstract step has one way to answer this call
  cases hnext with
  | createToken hc hm =>
    obtain ⟨hp, hnew, rfl⟩ := create_eq_some hm
    refine ⟨h.paused, h.whitelistEnabled, h.baseFee, h.split, ?_, ?_, ?_⟩
    · rw [length_create hm, h.length]
    · intro t ht
      rcases List.mem_append.mp ht with ht | ht
      · exact Nat.lt_succ_of_lt (h.addresses t ht)
      · rw [List.mem_singleton.mp ht]
        exact Nat.lt_succ_self n
    · refine (creatorTokens_push (h := hnew)).trans ?_
      have hcreator : (Token.new (permissiveEnv 10 ⟨5⟩) ⟨5⟩ (growthParams n) hp ⟨n⟩
        m.tokenWasmHash).creator = ⟨5⟩ := rfl
      rw [if_pos hcreator, h.listed, h.length, List.range'_concat, Nat.one_mul, Nat.add_comm 1]

/-- **A factory with any number of tokens of one creator can be reached.** -/
theorem reaches_created {n : ℕ} (hn : n ≤ U32.MAX) :
    ∃ h w m, Reaches SampleRun.constructorArgs h w ∧ Represents w m ∧ Grown m n := by
  induction n with
  | zero =>
    obtain ⟨env, w₀, hc, hrun⟩ := SampleRun.reaches₀
    have hw₀ : w₀ = SampleRun.world₀ := Run.nil_iff.mp hrun
    rw [hw₀] at hc
    exact ⟨[], SampleRun.world₀, _, SampleRun.reaches₀, hc.represents, grown_initial⟩
  | succ n ih =>
    obtain ⟨h, w, m, hreaches, hw, hgrown⟩ := ih (by omega)
    obtain ⟨i, w', m', hstep, hw', hgrown'⟩ := hgrown.step (by omega) hw
    exact ⟨i :: h, w', m', hreaches.step hstep, hw', hgrown'⟩

end StellarForge.Factory
