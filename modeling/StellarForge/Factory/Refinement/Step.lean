import StellarForge.Factory.Refinement.Tokens

/-!
# The code refines the abstract factory

* `Constructed.represents`: the constructor leaves a world that represents the initial factory;
* `Represents.step`: every successful call is a step of the abstract factory;
* `Represents.run` and `Reaches.represents`: so is every run.
-/

namespace StellarForge.Factory

open Soroban Contract Transition FactoryModel

variable {env : Env} {w w' : World} {m : FactoryModel}

/-! ### Views -/

theorem returns_creatorTokensFrom {creator : Address} {n i : ℕ} {out : List ℕ}
    (h : (creatorTokensFrom creator n i).Returns env w out w') : w = w' := by
  induction n generalizing i out with
  | zero =>
    rw [creatorTokensFrom, returns_pure] at h
    exact h.2
  | succ n ih =>
    simp only [creatorTokensFrom, returns_bind, returns_readAddrKeyed] at h
    obtain ⟨_, _, ⟨-, rfl⟩, h⟩ := h
    split at h
    · simp only [returns_bind, returns_pure] at h
      obtain ⟨_, _, hrest, -, rfl⟩ := h
      exact ih hrest
    · rw [returns_pure] at h
      exact h.2

/-- A view changes nothing. -/
theorem View.returns_exec {v : View} {ret : Ret} (h : v.exec.Returns env w ret w') : w = w' := by
  cases v with
  | getTokensByCreator creator offset limit =>
    simp only [View.exec, returns_wrap, Factory.getTokensByCreator, returns_ite, returns_bind, returns_pure,
      returns_readAddrKeyed] at h
    obtain ⟨_, ⟨-, -, rfl⟩ | ⟨-, _, _, ⟨-, rfl⟩, ⟨-, -, rfl⟩ | ⟨-, h⟩⟩, -⟩ := h
    · rfl
    · rfl
    · exact returns_creatorTokensFrom h
  | _ =>
    simp only [View.exec, returns_wrap, Factory.isWhitelisted, whitelistContains,
      Factory.isMetadataFrozen, Factory.getMetadataVersion, Factory.getFeeSplit, Factory.getState,
      Factory.getBaseFee, Factory.getMetadataFee, Factory.getTokenInfo, Factory.getTokenIndex,
      Factory.getTokenAddress, Factory.getTokenInfoByAddress, Factory.getMetadata, returns_bind,
      returns_readAddrKeyed, returns_pure, returns_getInst, returns_loadState, returns_okOr] at h
    grind

/-! ### Steps -/

/-- A successful invocation of the abstract factory. -/
def AbstractStep (m : FactoryModel) (i : Invocation) (m' : FactoryModel) : Prop :=
  Next i.env m i.call i.ret m'

/-- **Every successful call of the code is a step of the abstract factory.** -/
theorem Represents.step {i : Invocation} (hw : Represents w m) (h : Step w i w') :
    ∃ m', AbstractStep m i m' ∧ Represents w' m' := by
  obtain ⟨env, call, ret⟩ := i
  obtain ⟨hre, h⟩ := h
  have hre : env.NoReentry := hre
  unfold AbstractStep
  -- one refinement lemma a call
  cases call <;> simp only [Call.exec, returns_wrap] at h
  case view v =>
    obtain rfl := View.returns_exec h
    exact ⟨m, .view, hw⟩
  all_goals obtain ⟨_, h, rfl⟩ := h
  case addToWhitelist => exact hw.addToWhitelist h
  case removeFromWhitelist => exact hw.removeFromWhitelist h
  case setWhitelistEnabled => exact hw.setWhitelistEnabled h
  case createToken => exact hw.createToken h
  case createTokensBatch => exact hw.createTokensBatch h
  case setMetadata => exact hw.setMetadata h
  case freezeMetadata => exact hw.freezeMetadata h
  case mintTokens => exact hw.mintTokens h
  case burn => exact hw.burn h
  case setBurnEnabled => exact hw.setBurnEnabled h
  case pause => exact hw.pause h
  case unpause => exact hw.unpause h
  case setFeeSplit => exact hw.setFeeSplit h
  case updateFees => exact hw.updateFees h
  case proposeUpgrade => exact hw.proposeUpgrade h
  case executeUpgrade => exact hw.executeUpgrade h
  case cancelUpgrade => exact hw.cancelUpgrade h
  case migrate => exact hw.migrate h
  case backfillCappedSupply => exact hw.backfillCappedSupply h
  case proposeAdmin => exact hw.proposeAdmin h
  case acceptAdmin => exact hw.acceptAdmin h
  case cancelAdminProposal => exact hw.cancelAdminProposal h
  case backfillTokenAddress => exact hw.backfillTokenAddress h
  -- the two older names run the proposal under another call
  case transferAdmin =>
    obtain ⟨m', hnext, hw'⟩ := hw.proposeAdminViaLegacyAlias h
    cases hnext with
    | proposeAdmin ha hne => exact ⟨_, .transferAdmin ha hne, hw'⟩
  case updateAdmin =>
    obtain ⟨m', hnext, hw'⟩ := hw.proposeAdminViaLegacyAlias h
    cases hnext with
    | proposeAdmin ha hne => exact ⟨_, .updateAdmin ha hne, hw'⟩

/-! ### Runs -/

/-- **Every run of the code is a run of the abstract factory.** -/
theorem Represents.run {w₀ : World} {m₀ : FactoryModel} {h : List Invocation}
    (hw : Represents w₀ m₀) (hr : Run Step w₀ h w) :
    ∃ m, Run AbstractStep m₀ h m ∧ Represents w m :=
  hr.simulation (fun hw hs => hw.step hs) hw

/-- The abstract factory that the constructor installs. -/
def ConstructorArgs.initialModel (args : ConstructorArgs) : FactoryModel where
  admin := args.admin
  paused := false
  treasury := args.treasury
  feeToken := args.feeToken
  baseFee := args.baseFee.toNat
  metadataFee := args.metadataFee.toNat
  tokenWasmHash := args.tokenWasmHash
  whitelistEnabled := false
  pendingAdmin := none
  pendingUpgrade := none
  split := none
  whitelist _ := false
  tokens := .empty

/-- **The constructor installs the initial factory.** -/
theorem Constructed.represents {args : ConstructorArgs} (h : Constructed env args w) :
    Represents w args.initialModel := by
  simp only [Constructed, factoryConstructor, returns_bind, returns_requireAuth, returns_getInst,
    returns_throwIf, returns_setInst, returns_extendInstTtl, returns_publish] at h
  obtain ⟨_, _, ⟨-, rfl⟩, _, _, ⟨-, rfl⟩, _, _, ⟨-, rfl⟩, _, _, ⟨hfees, rfl⟩, h⟩ := h
  obtain ⟨_, _, rfl, _, _, rfl, _, _, rfl, rfl⟩ := h
  have hstate : args.initialState = args.initialModel.state := by
    have hbase : ((args.baseFee.toNat : ℕ) : ℤ) = args.baseFee := Int.toNat_of_nonneg (by omega)
    have hmeta : ((args.metadataFee.toNat : ℕ) : ℤ) = args.metadataFee :=
      Int.toNat_of_nonneg (by omega)
    simp only [ConstructorArgs.initialState, ConstructorArgs.initialModel, state, hbase, hmeta]
    rfl
  rw [Represents, World.content_publish, World.content_extendInstTtl, World.content_setInst,
    World.content_setInst, hstate]
  refine Content.ext (funext fun k => ?_) ?_ rfl
  · -- nothing is registered
    cases k <;> simp [FactoryModel.content, FactoryModel.persistent, FactoryModel.creatorTokens,
      ConstructorArgs.initialModel, Collections.page_nil] <;> rfl
  · refine Function.update_eq_iff.mpr ⟨rfl, fun k hsv => ?_⟩
    cases k <;> first | rfl | exact absurd rfl hsv

/-- **The world that a run reaches represents the factory that the abstract run reaches.** -/
theorem Reaches.represents {args : ConstructorArgs} {h : List Invocation}
    (hr : Reaches args h w) :
    ∃ m, Run AbstractStep args.initialModel h m ∧ Represents w m := by
  obtain ⟨env, w₀, hc, hr⟩ := hr
  exact hc.represents.run hr

end StellarForge.Factory
