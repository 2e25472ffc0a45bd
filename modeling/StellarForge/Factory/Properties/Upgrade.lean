import StellarForge.Factory.Properties.Calls
import StellarForge.Factory.Properties.Pending

/-!
# The upgrade timelock, and what an upgrade does to the code of new tokens

* `upgrade_timelock`: an upgrade is executed by the admin, after a full and undisturbed timelock
  since a proposal of exactly that hash by the admin of the time; no proposal is executed twice, and
  the factory's code is replaced by `execute_upgrade` alone.
* `tokenWasmHash_constant_iff`: the code deployed for new tokens is the one given to the constructor
  for as long as every upgrade is to that very hash, and no longer.
-/

namespace StellarForge.Factory

open Soroban Contract Collections Transition FactoryModel

variable {args : ConstructorArgs} {h later : List Invocation} {i : Invocation} {env : Env}
  {w w' w₁ w₂ : World} {m m' : FactoryModel} {admin : Address} {hash : BytesN32} {ret : Ret}

/-! ### Histories of upgrades -/

/-- The stored proposal of an upgrade. -/
def FactoryState.pendingUpgrade (st : FactoryState) : Option BytesN32 × Option ℕ :=
  (st.pendingUpgradeHash, st.pendingUpgradeReadyAt)

/-- The hash that a call proposes. -/
def Call.proposedHash? : Call → Option BytesN32
  | .proposeUpgrade _ hash => some hash
  | _ => none

/-- The hash that a call executes. -/
def Call.executedHash? : Call → Option BytesN32
  | .executeUpgrade _ hash => some hash
  | _ => none

/-- The hashes that the calls of a history have proposed, most recent first. -/
def proposedHashes (h : List Invocation) : List BytesN32 := h.filterMap fun i => i.call.proposedHash?

/-- The hashes that the calls of a history have executed, most recent first. -/
def executedHashes (h : List Invocation) : List BytesN32 := h.filterMap fun i => i.call.executedHash?

/-- The hash that a call to the host installs as the factory's own code. -/
def swappedHash? : ExtCall × Bool → Option BytesN32
  | (.updateCurrentContractWasm hash, true) => some hash
  | _ => none

/-- The code that the factory has been given, oldest first. -/
def World.swappedHashes (w : World) : List BytesN32 := w.calls.filterMap swappedHash?

/-- The upgrade to `hash`, about to be executed at ledger `sequence`, was proposed by the admin of
the time at least a full timelock ago, and neither a call nor a schema step has disturbed it since. -/
def UndisturbedProposal (args : ConstructorArgs) (h : List Invocation) (w : World)
    (hash : BytesN32) (sequence : ℕ) : Prop :=
  ∃ i later w₁ w₂ proposer, LastTouch args Call.TouchesUpgrade h w i later w₁ w₂ ∧
    i.call = .proposeUpgrade proposer hash ∧ w₁.admin? = some proposer ∧
    i.env.sequence + UPGRADE_TIMELOCK_LEDGERS ≤ sequence ∧
    ∀ w₃, Between w₂ later w w₃ → w₃.state?.map FactoryState.pendingUpgrade =
      some (some hash, some (i.env.sequence + UPGRADE_TIMELOCK_LEDGERS))

/-! ### The timelock -/

theorem FactoryModel.pendingUpgrade_state :
    m.state.pendingUpgrade =
      (m.pendingUpgrade.map Proposal.subject, m.pendingUpgrade.map Proposal.ledger) := rfl

/-- What a successful `execute_upgrade` has checked. -/
theorem AbstractStep.of_executeUpgrade
    (hs : AbstractStep m ⟨env, .executeUpgrade admin hash, ret⟩ m') :
    m.admin = admin ∧ ∃ readyAt, m.pendingUpgrade = some ⟨hash, readyAt⟩ ∧
      readyAt ≤ env.sequence ∧ m' = { m with pendingUpgrade := none, tokenWasmHash := hash } := by
  cases hs with
  | executeUpgrade ha hp hr => exact ⟨ha.2.symm, _, hp, hr, rfl⟩

/-- A call that leaves a proposal behind, when it may touch it at all, has made it. -/
theorem AbstractStep.of_pendingUpgrade {readyAt : ℕ} (hs : AbstractStep m i m')
    (ht : i.call.TouchesUpgrade) (hp : m'.pendingUpgrade = some ⟨hash, readyAt⟩) :
    i.call = .proposeUpgrade m.admin hash ∧
      readyAt = i.env.sequence + UPGRADE_TIMELOCK_LEDGERS := by
  obtain ⟨env, call, ret⟩ := i
  unfold AbstractStep at hs
  cases hs with
  | proposeUpgrade ha =>
    obtain ⟨rfl, rfl⟩ := Proposal.mk.inj (Option.some.inj hp)
    exact ⟨by rw [ha.2], rfl⟩
  | executeUpgrade | cancelUpgrade => simp at hp
  | _ => exact ht.elim

/-- An upgrade is executed after a full, undisturbed timelock. -/
theorem undisturbedProposal_of_step (hr : Reaches args h w)
    (hs : Step w ⟨env, .executeUpgrade admin hash, ret⟩ w') :
    w.admin? = some admin ∧ UndisturbedProposal args h w hash env.sequence := by
  obtain ⟨m, -, hw⟩ := hr.represents
  obtain ⟨m', hnext, -⟩ := hw.step hs
  obtain ⟨hadmin, readyAt, hp, hready, -⟩ := hnext.of_executeUpgrade
  obtain ⟨i, later, w₁, w₂, m₁, m₂, hl, ⟨hw₁, hnext₁, -⟩, hp₂, hbetween⟩ :=
    hr.lastProposal Call.TouchesUpgrade (fun _ => pendingUpgrade_state)
      (fun ht hs => hs.governanceFrame.pendingUpgrade ht) rfl hw hp
  obtain ⟨hcall, rfl⟩ := hnext₁.of_pendingUpgrade hl.touched hp₂
  exact ⟨hw.admin?.trans (congrArg some hadmin), i, later, w₁, w₂, m₁.admin, hl, hcall, hw₁.admin?,
    hready, hbetween⟩

/-! ### No proposal is executed twice -/

/-- The proposals of `hash` that are still pending: one or none. -/
def FactoryModel.pendingCount (m : FactoryModel) (hash : BytesN32) : ℕ :=
  (m.pendingUpgrade.map Proposal.subject).toList.count hash

theorem count_filterMap_cons {α β : Type} [DecidableEq β] {f : α → Option β} {a : α} {l : List α}
    {b : β} : ((a :: l).filterMap f).count b = (f a).toList.count b + (l.filterMap f).count b := by
  rcases hf : f a with _ | c <;> simp [hf, List.count_cons, Nat.add_comm]

/-- An execution of a hash uses up its pending proposal. -/
theorem AbstractStep.pendingCount_le (hs : AbstractStep m i m') (hash : BytesN32) :
    i.call.executedHash?.toList.count hash + m'.pendingCount hash
      ≤ i.call.proposedHash?.toList.count hash + m.pendingCount hash := by
  by_cases ht : i.call.TouchesUpgrade
  · obtain ⟨env, call, ret⟩ := i
    unfold AbstractStep at hs
    cases hs with
    | proposeUpgrade => simp [pendingCount, Call.proposedHash?, Call.executedHash?]
    | executeUpgrade _ hp => simp [pendingCount, Call.proposedHash?, Call.executedHash?, hp]
    | cancelUpgrade => simp [pendingCount, Call.proposedHash?, Call.executedHash?]
    | _ => exact ht.elim
  · have hnone : i.call.executedHash? = none := by
      rcases i with ⟨_, call, _⟩
      cases call <;> first | rfl | exact absurd trivial ht
    rw [hnone, pendingCount, hs.governanceFrame.pendingUpgrade ht]
    simp [pendingCount]

/-- Each execution of a hash, and each pending proposal of it, uses up a proposal. -/
theorem count_executedHashes_le (hr : Run AbstractStep args.initialModel h m) :
    (executedHashes h).count hash + m.pendingCount hash ≤ (proposedHashes h).count hash := by
  induction hr with
  | nil => exact le_refl _
  | @snoc h i m m' _ hs ih =>
    rw [executedHashes, proposedHashes, count_filterMap_cons, count_filterMap_cons]
    have hstep := hs.pendingCount_le hash
    rw [executedHashes, proposedHashes] at ih
    omega

/-! ### Only `execute_upgrade` replaces the factory's code -/

/-- Other calls replace no binary. -/
theorem swappedHashes_eq_of_callsOnly (hc : CallsOnly ExtCall.NotUpgrade w w') :
    w'.swappedHashes = w.swappedHashes := by
  obtain ⟨new, hnew, hno⟩ := hc
  have hnil : new.filterMap swappedHash? = [] := by
    refine List.filterMap_eq_nil_iff.mpr fun c hmem => ?_
    rcases c with ⟨c, ok⟩
    have hc := hno _ hmem
    cases c <;> first | rfl | exact hc.elim
  rw [World.swappedHashes, World.swappedHashes, hnew, List.filterMap_append, hnil, List.append_nil]

/-- A step replaces the binary when it is an `execute_upgrade`. -/
theorem Step.swappedHashes (hs : Step w i w') :
    w'.swappedHashes = w.swappedHashes ++ i.call.executedHash?.toList := by
  obtain ⟨env, call, ret⟩ := i
  obtain ⟨hre, hs⟩ := hs
  have hre : env.NoReentry := hre
  by_cases hc : ∃ admin hash, call = .executeUpgrade admin hash
  · obtain ⟨admin, hash, rfl⟩ := hc
    simp only [Call.exec, returns_wrap, executeUpgrade, returns_bind, returns_requireAuth,
      returns_loadState, returns_throwIf, returns_okOr, returns_getEnv, returns_saveState,
      returns_publish, returns_updateCurrentContractWasm] at hs
    obtain ⟨_, ⟨_, _, ⟨-, rfl⟩, _, _, ⟨-, rfl⟩, _, _, ⟨-, rfl⟩, hs⟩, -⟩ := hs
    obtain ⟨_, _, ⟨-, rfl⟩, _, _, ⟨-, rfl⟩, _, _, ⟨rfl, rfl⟩, _, _, ⟨-, rfl⟩, hs⟩ := hs
    obtain ⟨_, _, ⟨-, rfl⟩, _, _, rfl, _, _, rfl, -, rfl⟩ := hs
    rw [World.swappedHashes, World.calls_logCall, World.calls_publish, World.calls_saveState,
      List.filterMap_append]
    rfl
  · -- no other call swaps the code of the factory
    have := Call.moves_notUpgrade fun admin hash h => hc ⟨admin, hash, h⟩
    have hnone : call.executedHash? = none := by
      cases call <;> first | rfl | exact absurd ⟨_, _, rfl⟩ hc
    rw [hnone, swappedHashes_eq_of_callsOnly (CallsOnly.of_returns hs)]
    exact (List.append_nil _).symm

/-- **The binaries that have been put in place are those of the executed upgrades.** -/
theorem swappedHashes_of_run {w₀ : World} (hr : Run Step w₀ h w) :
    w.swappedHashes = w₀.swappedHashes ++ (executedHashes h).reverse := by
  induction hr with
  | nil => exact (List.append_nil _).symm
  | @snoc h i w w' _ hs ih =>
    rw [hs.swappedHashes, ih, List.append_assoc]
    congr 1
    rw [executedHashes, executedHashes]
    rcases he : i.call.executedHash? with _ | hash <;> simp [he]

/-- The constructor calls no other contract. -/
theorem Constructed.calls (hc : Constructed env args w) : w.calls = [] := by
  simp only [Constructed, factoryConstructor, returns_bind, returns_requireAuth, returns_getInst,
    returns_throwIf, returns_setInst, returns_extendInstTtl, returns_publish] at hc
  obtain ⟨_, _, ⟨-, rfl⟩, _, _, ⟨-, rfl⟩, _, _, ⟨-, rfl⟩, _, _, ⟨-, rfl⟩, hc⟩ := hc
  obtain ⟨_, _, rfl, _, _, rfl, _, _, rfl, rfl⟩ := hc
  rw [World.calls_publish, World.calls_extendInstTtl, World.calls_setInst, World.calls_setInst]
  rfl

/-- The code that the factory has been given is the code that the history has executed. -/
theorem Reaches.swappedHashes (hr : Reaches args h w) :
    w.swappedHashes = (executedHashes h).reverse := by
  obtain ⟨env, w₀, hc, hr⟩ := hr
  rw [swappedHashes_of_run hr, World.swappedHashes, hc.calls]
  rfl

/-- **The upgrade timelock over whole runs.** -/
theorem upgrade_timelock (hr : Reaches args h w) :
    (∀ env admin hash ret w', Step w ⟨env, .executeUpgrade admin hash, ret⟩ w' →
      w.admin? = some admin ∧ UndisturbedProposal args h w hash env.sequence) ∧
    (∀ hash, (executedHashes h).count hash ≤ (proposedHashes h).count hash) ∧
    w.swappedHashes = (executedHashes h).reverse := by
  refine ⟨fun env admin hash ret w' hs => undisturbedProposal_of_step hr hs, fun hash => ?_,
    hr.swappedHashes⟩
  obtain ⟨m, hm, -⟩ := hr.represents
  exact (Nat.le_add_right _ _).trans (count_executedHashes_le hm)

/-! ### A sample upgrade -/

namespace SampleUpgrade

/-- The admin `1` upgrades to `99`, and `5` creates the token `50` afterwards. -/
def history : List Invocation :=
  [⟨permissiveEnv 17300 ⟨5⟩, .createToken ⟨5⟩ SampleRun.params 100, .address ⟨50⟩⟩,
    ⟨permissiveEnv 17290 ⟨1⟩, .executeUpgrade ⟨1⟩ 99, .unit⟩,
    ⟨permissiveEnv 10 ⟨1⟩, .proposeUpgrade ⟨1⟩ 99, .unit⟩]

-- the worlds are written out, so that evaluating the next call does not run the earlier ones again

/-- The state with an announced binary. -/
def state₁ : FactoryState :=
  { SampleRun.constructorArgs.initialState with
    pendingUpgradeHash := some 99, pendingUpgradeReadyAt := some 17290 }

/-- The binary has been announced. -/
def world₁ : World :=
  (SampleRun.world₀.saveState (permissiveEnv 10 ⟨1⟩) state₁).publish (.upgProp ⟨1⟩ 99 17290)

/-- The state after the upgrade, with the hash of the factory's own binary. -/
def state₂ : FactoryState := { SampleRun.constructorArgs.initialState with tokenWasmHash := 99 }

/-- The upgrade has been executed. -/
def world₂ : World :=
  ((world₁.saveState (permissiveEnv 17290 ⟨1⟩) state₂).publish (.upgExec ⟨1⟩ 99)).logCall
    (.updateCurrentContractWasm 99) true

/-- A token has been created after the upgrade. -/
def world₃ : World :=
  (Call.createToken ⟨5⟩ SampleRun.params 100).exec.commit (permissiveEnv 17300 ⟨5⟩) world₂

theorem step₁ : Step SampleRun.world₀
    ⟨permissiveEnv 10 ⟨1⟩, .proposeUpgrade ⟨1⟩ 99, .unit⟩ world₁ :=
  ⟨inferInstance, rfl⟩

theorem step₂ : Step world₁ ⟨permissiveEnv 17290 ⟨1⟩, .executeUpgrade ⟨1⟩ 99, .unit⟩ world₂ :=
  ⟨inferInstance, rfl⟩

theorem step₃ : Step world₂
    ⟨permissiveEnv 17300 ⟨5⟩, .createToken ⟨5⟩ SampleRun.params 100, .address ⟨50⟩⟩ world₃ :=
  step_commit inferInstance rfl

theorem reaches₁ : Reaches SampleRun.constructorArgs
    [⟨permissiveEnv 10 ⟨1⟩, .proposeUpgrade ⟨1⟩ 99, .unit⟩] world₁ :=
  SampleRun.reaches₀.step step₁

theorem reaches : Reaches SampleRun.constructorArgs history world₃ :=
  (reaches₁.step step₂).step step₃

end SampleUpgrade

/-- The upgrade of the sample has waited for the timelock. -/
theorem upgrade_timelock_sampleUpgrade : UndisturbedProposal SampleRun.constructorArgs
    [⟨permissiveEnv 10 ⟨1⟩, .proposeUpgrade ⟨1⟩ 99, .unit⟩] SampleUpgrade.world₁ 99 17290 :=
  ((upgrade_timelock SampleUpgrade.reaches₁).1 _ _ _ _ _ SampleUpgrade.step₂).2

/-! ### The code of new tokens -/

/-- In every state of the run the hash of the token code is the one given to the constructor, and
every token has been deployed with that code. -/
def TokenCodeConstant (args : ConstructorArgs) (h : List Invocation) (w : World) : Prop :=
  (∀ h₁ h₂ w₁, h = h₂ ++ h₁ → Reaches args h₁ w₁ → Run Step w₁ h₂ w →
    w₁.tokenWasmHash? = some args.tokenWasmHash) ∧
  ∀ a p, (a, p) ∈ created h → w.contracts a = some args.tokenWasmHash

/-- What an upgrade to the constructor's own hash preserves. -/
theorem tokenWasmHash_of_run (hr : Run AbstractStep args.initialModel h m)
    (hh : ∀ hash ∈ executedHashes h, hash = args.tokenWasmHash) :
    m.tokenWasmHash = args.tokenWasmHash ∧
      ∀ t ∈ m.tokens.records, t.wasmHash = args.tokenWasmHash := by
  induction hr with
  | nil => exact ⟨rfl, fun t ht => by simp [ConstructorArgs.initialModel, Keyed.empty] at ht⟩
  | @snoc h i m m' _ hs ih =>
    obtain ⟨hm, htokens⟩ := ih fun hash hmem => hh hash (by
      rw [executedHashes, List.filterMap_cons]
      split
      · exact hmem
      · exact List.mem_cons_of_mem _ hmem)
    refine ⟨?_, ?_⟩
    · -- the hash of the state changes by one call only
      by_cases hc : ∃ admin hash, i.call = .executeUpgrade admin hash
      · obtain ⟨env, _, ret⟩ := i
        obtain ⟨admin, hash, rfl⟩ := hc
        obtain ⟨-, readyAt, -, -, rfl⟩ := hs.of_executeUpgrade
        exact hh hash (List.mem_cons_self ..)
      · exact (hs.governanceFrame.tokenWasmHash fun a x hx => hc ⟨a, x, hx⟩).trans hm
    · -- tokens: kept, one of them updated, or new ones with the hash of the state
      rcases hs.tokenChange with ⟨ht, -, -⟩ | @⟨t, t', hfind, ht, he, -, -, -⟩ | ⟨ht, -, -, hnew⟩
      · rw [ht]
        exact htokens
      · rw [ht]
        intro x hx
        obtain ⟨y, hy, rfl⟩ := List.mem_map.mp hx
        split_ifs
        · exact he.wasmHash.trans (htokens t (Keyed.find?_eq_some.mp hfind).1)
        · exact htokens y hy
      · rw [ht]
        intro t hmem
        rcases List.mem_append.mp hmem with hold | hmem
        · exact htokens t hold
        · exact (hnew t hmem).2.trans hm

/-- An upgrade in a history was executed in some world of the run. -/
theorem exists_of_mem_executedHashes {w₀ : World} (hr : Run Step w₀ h w)
    (hh : hash ∈ executedHashes h) : ∃ h₁ h₂ i w₁ w₂, h = h₂ ++ i :: h₁ ∧
      i.call.executedHash? = some hash ∧ Run Step w₀ h₁ w₁ ∧ Step w₁ i w₂ ∧ Run Step w₂ h₂ w := by
  obtain ⟨i, hi, hcall⟩ := List.mem_filterMap.mp hh
  obtain ⟨h₂, h₁, rfl⟩ := List.append_of_mem hi
  obtain ⟨w₂, hr₂, hrun⟩ := hr.split
  obtain ⟨w₁, hr₁, hstep⟩ := Run.cons_iff.mp hr₂
  exact ⟨h₁, h₂, i, w₁, w₂, rfl, hcall, hr₁, hstep, hrun⟩

/-- **The code of new tokens is constant exactly if every upgrade is to that code.** -/
theorem tokenWasmHash_constant_iff (hr : Reaches args h w) :
    TokenCodeConstant args h w ↔ ∀ hash ∈ executedHashes h, hash = args.tokenWasmHash := by
  constructor
  · -- a run that executed another hash is cut right after that call
    rintro ⟨hstates, -⟩ hash hh
    obtain ⟨env, w₀, hc, hr⟩ := hr
    obtain ⟨h₁, h₂, ⟨env', call, ret⟩, w₁, w₂, rfl, hcall, hr₁, hstep, hrun⟩ :=
      exists_of_mem_executedHashes hr hh
    have hr₁ : Reaches args h₁ w₁ := ⟨env, w₀, hc, hr₁⟩
    have hw₂ := hstates (_ :: h₁) h₂ w₂ rfl (hr₁.step hstep) hrun
    cases call <;> simp only [Call.executedHash?, Option.some.injEq, reduceCtorEq] at hcall
    case executeUpgrade admin hash' =>
      subst hcall
      obtain ⟨m₁, -, hm₁⟩ := hr₁.represents
      obtain ⟨m₂, hnext, hm₂⟩ := hm₁.step hstep
      obtain ⟨-, readyAt, -, -, rfl⟩ := hnext.of_executeUpgrade
      rw [hm₂.tokenWasmHash?] at hw₂
      exact Option.some.inj hw₂
  · intro hh
    refine ⟨?_, fun a p hp => ?_⟩
    · -- conversely every prefix of the run executes a part of the same hashes
      rintro h₁ h₂ w₁ rfl hr₁ -
      obtain ⟨m, hm, hw⟩ := hr₁.represents
      rw [hw.tokenWasmHash?, (tokenWasmHash_of_run hm fun hash hmem => hh hash ?_).1]
      rw [executedHashes, List.filterMap_append]
      exact List.mem_append_right _ hmem
    · obtain ⟨m, hm, hw⟩ := hr.represents
      obtain ⟨t, ht, -⟩ := find?_of_mem_created hm hp
      rw [hw.contracts ht, (tokenWasmHash_of_run hm hh).2 t (Keyed.find?_eq_some.mp ht).1]

/-- The sample run executes no upgrade. -/
theorem tokenWasmHash_constant_iff_sampleRun :
    TokenCodeConstant SampleRun.constructorArgs SampleRun.history SampleRun.world₂ :=
  (tokenWasmHash_constant_iff SampleRun.reaches).mpr fun _ hh => by
    simp [executedHashes, SampleRun.history, Call.executedHash?] at hh

/-- After the sample upgrade a token is deployed with the factory's own new code. -/
theorem not_tokenCodeConstant_sampleUpgrade :
    Reaches SampleRun.constructorArgs SampleUpgrade.history SampleUpgrade.world₃ ∧
      ¬ TokenCodeConstant SampleRun.constructorArgs SampleUpgrade.history SampleUpgrade.world₃ ∧
      ∃ hash ∈ SampleUpgrade.world₃.swappedHashes,
        SampleUpgrade.world₃.contracts ⟨50⟩ = some hash := by
  have hcode : SampleUpgrade.world₃.contracts ⟨50⟩ = some 99 := rfl
  refine ⟨SampleUpgrade.reaches, fun ⟨_, htokens⟩ => ?_, 99, ?_, hcode⟩
  · have := hcode.symm.trans (htokens ⟨50⟩ SampleRun.params (List.mem_singleton.mpr rfl))
    simp [SampleRun.constructorArgs] at this
  · rw [SampleUpgrade.reaches.swappedHashes]
    exact List.mem_singleton.mpr rfl

end StellarForge.Factory
