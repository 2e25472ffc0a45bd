import StellarForge.Factory.Properties.Pending

/-!
# Admin rotation

`admin_rotation`: the admin changes by `accept_admin` alone, and only to the address that the admin of
the time has proposed within the last `ADMIN_PROPOSAL_TTL_LEDGERS` ledgers by a proposal that is
neither cancelled nor spent.  Afterwards every entrypoint gated by the admin is closed to the old
admin, until it is proposed and accepts again.
-/

namespace StellarForge.Factory

open Soroban Contract Collections Transition FactoryModel

variable {args : ConstructorArgs} {h : List Invocation} {i : Invocation} {env : Env}
  {w w' : World} {m m' : FactoryModel} {a n : Address} {ret : Ret}

/-! ### Proposals and gates -/

/-- The stored proposal of a new admin. -/
def FactoryState.pendingRotation (st : FactoryState) : Option Address × Option ℕ :=
  (st.pendingAdmin, st.pendingAdminExpiry)

/-- The proposer and the proposed admin of a proposal, by the entrypoint or by a legacy alias. -/
def Call.rotation? : Call → Option (Address × Address)
  | .proposeAdmin admin newAdmin | .transferAdmin admin newAdmin | .updateAdmin admin newAdmin =>
    some (admin, newAdmin)
  | _ => none

/-- The caller of an entrypoint that is open to the admin alone. -/
def Call.gatedBy? : Call → Option Address
  | .addToWhitelist admin _ | .removeFromWhitelist admin _ | .setWhitelistEnabled admin _
  | .pause admin | .unpause admin | .setFeeSplit admin _ | .updateFees admin _ _
  | .proposeUpgrade admin _ | .executeUpgrade admin _ | .cancelUpgrade admin | .migrate admin
  | .backfillCappedSupply admin _ _ | .proposeAdmin admin _ | .cancelAdminProposal admin
  | .transferAdmin admin _ | .updateAdmin admin _ => some admin
  | _ => none

/-- The admin `n`, about to accept at ledger `sequence`, was proposed by the current admin by the
most recent proposal, which is not expired and has been neither cancelled nor accepted since. -/
def UnspentProposal (args : ConstructorArgs) (h : List Invocation) (w : World) (n : Address)
    (sequence : ℕ) : Prop :=
  ∃ i later w₁ w₂ proposer, LastTouch args Call.TouchesRotation h w i later w₁ w₂ ∧
    i.call.rotation? = some (proposer, n) ∧ w₁.admin? = some proposer ∧
    w.admin? = some proposer ∧ proposer ≠ n ∧
    sequence < i.env.sequence + ADMIN_PROPOSAL_TTL_LEDGERS

/-! ### What one call does -/

theorem FactoryModel.pendingRotation_state : m.state.pendingRotation =
    (m.pendingAdmin.map Proposal.subject, m.pendingAdmin.map Proposal.ledger) := rfl

/-- What a successful `accept_admin` has checked. -/
theorem AbstractStep.of_acceptAdmin (hs : AbstractStep m ⟨env, .acceptAdmin n, ret⟩ m') :
    m'.admin = n ∧ ∃ expiry, m.pendingAdmin = some ⟨n, expiry⟩ ∧ env.sequence < expiry := by
  cases hs with
  | acceptAdmin ha hp hexp => exact ⟨rfl, _, hp, hexp⟩

/-- A call that leaves a proposal behind, when it may touch it at all, has made it. -/
theorem AbstractStep.of_pendingAdmin {expiry : ℕ} (hs : AbstractStep m i m')
    (ht : i.call.TouchesRotation) (hp : m'.pendingAdmin = some ⟨n, expiry⟩) :
    i.call.rotation? = some (m.admin, n) ∧ m.admin ≠ n ∧
      expiry = i.env.sequence + ADMIN_PROPOSAL_TTL_LEDGERS := by
  obtain ⟨env, call, ret⟩ := i
  unfold AbstractStep at hs
  cases hs with
  | proposeAdmin ha hne | transferAdmin ha hne | updateAdmin ha hne =>
    obtain ⟨rfl, rfl⟩ := Proposal.mk.inj (Option.some.inj hp)
    exact ⟨by rw [← ha.2]; rfl, ha.2 ▸ hne, rfl⟩
  | acceptAdmin | cancelAdminProposal => simp at hp
  | _ => exact ht.elim

/-- The gated entrypoints are open to the admin alone. -/
theorem AbstractStep.admin_of_gatedBy (hs : AbstractStep m i m') (hg : i.call.gatedBy? = some a) :
    m.admin = a := by
  obtain ⟨env, call, ret⟩ := i
  unfold AbstractStep at hs
  cases hs <;> simp only [Call.gatedBy?, Option.some.injEq, reduceCtorEq] at hg
  all_goals exact hg ▸ (‹IsAdmin _ _ _›).2.symm

/-! ### What a run does -/

/-- An address that is not the admin does not become the admin without accepting. -/
theorem admin_ne_of_run {m₀ : FactoryModel} (hr : Run AbstractStep m₀ h m) (hne : m₀.admin ≠ a)
    (ha : ∀ i ∈ h, i.call ≠ .acceptAdmin a) : m.admin ≠ a := by
  induction hr with
  | nil => exact hne
  | @snoc h i m m' _ hs ih =>
    have hm : m.admin ≠ a := ih fun j hj => ha j (List.mem_cons_of_mem _ hj)
    by_cases hc : ∃ n, i.call = .acceptAdmin n
    · obtain ⟨env, _, ret⟩ := i
      obtain ⟨n, rfl⟩ := hc
      obtain ⟨rfl, -⟩ := hs.of_acceptAdmin
      rintro rfl
      exact ha _ (List.mem_cons_self ..) rfl
    · rw [hs.governanceFrame.admin fun n hn => hc ⟨n, hn⟩]
      exact hm

/-- `accept_admin` spends an unexpired proposal by the current admin. -/
theorem unspentProposal_of_step (hr : Reaches args h w) (hs : Step w ⟨env, .acceptAdmin n, ret⟩ w') :
    w'.admin? = some n ∧ UnspentProposal args h w n env.sequence := by
  obtain ⟨m, -, hw⟩ := hr.represents
  obtain ⟨m', hnext, hw'⟩ := hw.step hs
  obtain ⟨hadmin, expiry, hp, hexp⟩ := hnext.of_acceptAdmin
  obtain ⟨i, later, w₁, w₂, m₁, m₂, hl, ⟨hw₁, hnext₁, hw₂⟩, hp₂, -⟩ :=
    hr.lastProposal Call.TouchesRotation (fun _ => pendingRotation_state)
      (fun ht hs => hs.governanceFrame.pendingAdmin ht) rfl hw hp
  obtain ⟨hcall, hne, rfl⟩ := hnext₁.of_pendingAdmin hl.touched hp₂
  refine ⟨hw'.admin?.trans (congrArg some hadmin), i, later, w₁, w₂, m₁.admin, hl, hcall, hw₁.admin?,
    ?_, hne, hexp⟩
  -- no admin has accepted since the proposal
  have hframe : w.admin? = w₂.admin? := hw₂.frame hl.run fun hi hs =>
    hs.governanceFrame.admin fun n hn => hl.untouched _ hi (by rw [hn]; trivial)
  rw [hframe, hw₂.admin?, hnext₁.governanceFrame.admin fun n hn => ?_]
  rw [hn] at hcall
  simp [Call.rotation?] at hcall

/-- **Admin rotation over whole runs.** -/
theorem admin_rotation (hr : Reaches args h w) :
    (∃ st, w.state? = some st ∧ st.pendingAdmin.isSome = st.pendingAdminExpiry.isSome) ∧
    (∀ i w', Step w i w' → w'.admin? ≠ w.admin? → ∃ n, i.call = .acceptAdmin n) ∧
    ∀ env n ret w', Step w ⟨env, .acceptAdmin n, ret⟩ w' →
      w'.admin? = some n ∧ UnspentProposal args h w n env.sequence ∧
      ∀ old, w.admin? = some old → ∀ h' w₂, Run Step w' h' w₂ →
        (∀ i ∈ h', i.call ≠ .acceptAdmin old) →
        ∀ i w₃, Step w₂ i w₃ → i.call.gatedBy? ≠ some old := by
  obtain ⟨m, -, hw⟩ := hr.represents
  refine ⟨⟨m.state, hw.state?, ?_⟩, fun i w' hs hne => ?_, fun env n ret w' hs => ?_⟩
  · cases hp : m.pendingAdmin <;> simp [FactoryModel.state, hp]
  · -- every other call leaves the admin alone
    obtain ⟨m', hnext, hw'⟩ := hw.step hs
    by_contra hno
    refine hne ?_
    rw [hw'.admin?, hw.admin?, hnext.governanceFrame.admin fun n hn => hno ⟨n, hn⟩]
  · obtain ⟨hadmin, hproposal⟩ := unspentProposal_of_step hr hs
    refine ⟨hadmin, hproposal, fun old hold h' w₂ hr' hno i w₃ hs' hg => ?_⟩
    -- the proposer is the admin before the step, and not the one who accepts
    obtain ⟨-, -, -, -, proposer, -, -, -, hw_admin, hne, -⟩ := hproposal
    obtain rfl : proposer = old := Option.some.inj (hw_admin.symm.trans hold)
    -- in every later state the old admin is not the admin, so no call can be gated by it
    obtain ⟨m', -, hw'⟩ := hw.step hs
    obtain ⟨m₂, hm₂, hw₂⟩ := hw'.run hr'
    obtain ⟨m₃, hnext, -⟩ := hw₂.step hs'
    have hn : m'.admin = n := Option.some.inj (hw'.admin?.symm.trans hadmin)
    exact admin_ne_of_run hm₂ (hn ▸ hne.symm) hno (hnext.admin_of_gatedBy hg)

/-! ### A sample rotation -/

namespace SampleRotation

/-- The admin `1` proposes `4`. -/
def history : List Invocation := [⟨permissiveEnv 10 ⟨1⟩, .proposeAdmin ⟨1⟩ ⟨4⟩, .unit⟩]

/-- The admin has named a successor. -/
def world₁ : World :=
  (Call.proposeAdmin ⟨1⟩ ⟨4⟩).exec.commit (permissiveEnv 10 ⟨1⟩) SampleRun.world₀

/-- The successor has accepted, within the time. -/
def world₂ : World := (Call.acceptAdmin ⟨4⟩).exec.commit (permissiveEnv 17289 ⟨4⟩) world₁

theorem reaches : Reaches SampleRun.constructorArgs history world₁ :=
  SampleRun.reaches₀.step (step_commit inferInstance rfl)

theorem step : Step world₁ ⟨permissiveEnv 17289 ⟨4⟩, .acceptAdmin ⟨4⟩, .unit⟩ world₂ :=
  step_commit inferInstance rfl

end SampleRotation

/-- The successor of the sample has become the admin. -/
theorem admin_rotation_sampleRotation : SampleRotation.world₂.admin? = some ⟨4⟩ ∧
    UnspentProposal SampleRun.constructorArgs SampleRotation.history SampleRotation.world₁ ⟨4⟩
      17289 := by
  obtain ⟨hadmin, hproposal, -⟩ :=
    (admin_rotation SampleRotation.reaches).2.2 _ _ _ _ SampleRotation.step
  exact ⟨hadmin, hproposal⟩

end StellarForge.Factory
