import StellarForge.Factory.Properties.Histories

/-!
# Every committed state is well formed

`WellFormed w` says of the storage itself what the abstract factory makes unsayable: a held lock, a
negative fee, a split that does not add up, half a proposal, a schema version that disagrees with the
marker.

* `Represents.wellFormed`: a world that represents an abstract factory is well formed;
* `reachable_wellFormed`: every world that a run reaches is, and `token_count` never decreases.
-/

namespace StellarForge.Factory

open Collections Transition

variable {args : ConstructorArgs} {h : List Invocation} {w w' : World} {m m' : FactoryModel}

/-- The stored state `st` and the other keys of the instance entry agree with each other. -/
structure WellFormed (w : World) (st : FactoryState) : Prop where
  state : w.state? = some st
  unlocked : st.locked = false
  baseFee_nonneg : 0 ≤ st.baseFee
  metadataFee_nonneg : 0 ≤ st.metadataFee
  split : ∀ splits, w.storage.inst .split = some splits →
    1 ≤ splits.entries.length ∧ splits.entries.length ≤ 10 ∧
      (∀ e ∈ splits.entries, 1 ≤ e.2) ∧ (splits.entries.map Prod.snd).sum = 10000
  pendingAdmin : st.pendingAdmin.isSome = st.pendingAdminExpiry.isSome
  pendingUpgrade : st.pendingUpgradeHash.isSome = st.pendingUpgradeReadyAt.isSome
  marker : w.storage.inst .sv = some st.schemaVersion

/-- The well-formedness that the abstract factory has by construction. -/
theorem Represents.wellFormed (hw : Represents w m) : WellFormed w m.state where
  state := Holds.state? hw
  unlocked := rfl
  baseFee_nonneg := Int.natCast_nonneg m.baseFee
  metadataFee_nonneg := Int.natCast_nonneg m.metadataFee
  split splits hs := by
    have hinst : w.storage.inst .split = m.split.map Subtype.val := Holds.inst hw .split
    rw [hinst, Option.map_eq_some_iff] at hs
    obtain ⟨⟨_, hvalid⟩, -, rfl⟩ := hs
    exact ⟨hvalid.length_pos, hvalid.length_le, hvalid.one_le, hvalid.sum_eq⟩
  pendingAdmin := by
    show (m.pendingAdmin.map Proposal.subject).isSome = (m.pendingAdmin.map Proposal.ledger).isSome
    rw [Option.isSome_map, Option.isSome_map]
  pendingUpgrade := by
    show (m.pendingUpgrade.map Proposal.subject).isSome =
      (m.pendingUpgrade.map Proposal.ledger).isSome
    rw [Option.isSome_map, Option.isSome_map]
  marker := Holds.inst hw .sv

/-- The records of a run are those it started from, followed by those it has added. -/
theorem length_tokens_le_of_run (hr : Run AbstractStep m h m') :
    m.tokens.length ≤ m'.tokens.length := by
  have horigins := congrArg List.length (origins_of_run hr)
  simp only [List.length_append, List.length_map] at horigins
  show m.tokens.records.length ≤ m'.tokens.records.length
  omega

/-- **Factory well-formedness**: every world that a run reaches is well formed, and in every
continuation of the run each world is well formed and its token count has not decreased. -/
theorem reachable_wellFormed (hr : Reaches args h w) :
    ∃ st, WellFormed w st ∧
      ∀ h' w', Run Step w h' w' → ∃ st', WellFormed w' st' ∧ st.tokenCount ≤ st'.tokenCount := by
  obtain ⟨m, -, hw⟩ := hr.represents
  refine ⟨m.state, hw.wellFormed, fun h' w' hr' => ?_⟩
  obtain ⟨m', hm', hw'⟩ := hw.run hr'
  have hle : m.tokens.length ≤ m'.tokens.length := length_tokens_le_of_run hm'
  exact ⟨m'.state, hw'.wellFormed, hle⟩

/-- The sample run ends in a well-formed world. -/
theorem reachable_wellFormed_sampleRun : ∃ st, WellFormed SampleRun.world₁ st ∧
    ∃ st', WellFormed SampleRun.world₂ st' ∧ st.tokenCount ≤ st'.tokenCount := by
  obtain ⟨st, hst, hrun⟩ := reachable_wellFormed (SampleRun.reaches₀.step SampleRun.step₁)
  exact ⟨st, hst, hrun _ _ (.snoc .nil SampleRun.step₂)⟩

end StellarForge.Factory
