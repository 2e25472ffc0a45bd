import StellarForge.Factory.Properties.Histories

/-!
# The governance data along a run

`GovernanceFrame` says once what a call leaves alone: the pending upgrade, the pending admin, the
admin and the code of new tokens are each changed by a few calls only.

`LastTouch args touches h w i later w₁ w₂` splits the history `h` at its last call `i` of the kind
`touches`.  `Reaches.lastTouch` is the rule for a part of the stored state that only calls of that
kind change: wherever it differs from its initial value there has been such a call, and since the
last one it has been the same.  `Reaches.lastProposal` is its use for the two pending proposals.
-/

namespace StellarForge.Factory

open Soroban Contract Transition FactoryModel

/-! ### What a call leaves alone -/

/-- The calls that change the pending upgrade. -/
def Call.TouchesUpgrade : Call → Prop
  | .proposeUpgrade _ _ | .executeUpgrade _ _ | .cancelUpgrade _ => True
  | _ => False

/-- The calls that change the pending admin. -/
def Call.TouchesRotation : Call → Prop
  | .proposeAdmin _ _ | .transferAdmin _ _ | .updateAdmin _ _ | .cancelAdminProposal _
  | .acceptAdmin _ => True
  | _ => False

/-- What a call leaves alone. -/
structure GovernanceFrame (m : FactoryModel) (i : Invocation) (m' : FactoryModel) : Prop where
  pendingUpgrade : ¬ i.call.TouchesUpgrade → m'.pendingUpgrade = m.pendingUpgrade
  tokenWasmHash : (∀ admin hash, i.call ≠ .executeUpgrade admin hash) →
    m'.tokenWasmHash = m.tokenWasmHash
  pendingAdmin : ¬ i.call.TouchesRotation → m'.pendingAdmin = m.pendingAdmin
  admin : (∀ newAdmin, i.call ≠ .acceptAdmin newAdmin) → m'.admin = m.admin

/-- Every step of the abstract factory keeps the frame. -/
theorem AbstractStep.governanceFrame {m m' : FactoryModel} {i : Invocation}
    (h : AbstractStep m i m') : GovernanceFrame m i m' := by
  obtain ⟨env, call, ret⟩ := i
  unfold AbstractStep at h
  cases h with
  | createToken _ hm =>
    obtain ⟨_, _, rfl⟩ := create_eq_some hm
    exact ⟨fun _ => rfl, fun _ => rfl, fun _ => rfl, fun _ => rfl⟩
  | createTokensBatch _ hm =>
    obtain ⟨_, rfl⟩ := createAll_state hm
    exact ⟨fun _ => rfl, fun _ => rfl, fun _ => rfl, fun _ => rfl⟩
  | proposeUpgrade | cancelUpgrade =>
    exact ⟨fun h => absurd trivial h, fun _ => rfl, fun _ => rfl, fun _ => rfl⟩
  | executeUpgrade =>
    exact ⟨fun h => absurd trivial h, fun h => absurd rfl (h _ _), fun _ => rfl, fun _ => rfl⟩
  | proposeAdmin | transferAdmin | updateAdmin | cancelAdminProposal =>
    exact ⟨fun _ => rfl, fun _ => rfl, fun h => absurd trivial h, fun _ => rfl⟩
  | acceptAdmin =>
    exact ⟨fun _ => rfl, fun _ => rfl, fun h => absurd trivial h, fun h => absurd rfl (h _)⟩
  | _ => exact ⟨fun _ => rfl, fun _ => rfl, fun _ => rfl, fun _ => rfl⟩

/-! ### The last call of a kind -/

/-- The history `h`, which leads to `w`, has `i` as its last call of the kind `touches`: it was made
in `w₁` and left `w₂`, and `later` are the calls since. -/
structure LastTouch (args : ConstructorArgs) (touches : Call → Prop) (h : List Invocation)
    (w : World) (i : Invocation) (later : List Invocation) (w₁ w₂ : World) : Prop where
  earlier : ∃ h₁, h = later ++ i :: h₁ ∧ Reaches args h₁ w₁
  step : Step w₁ i w₂
  run : Run Step w₂ later w
  touched : touches i.call
  untouched : ∀ j ∈ later, ¬ touches j.call

/-- The run `later` from `w₂` to `w` passes through `w₃`. -/
def Between (w₂ : World) (later : List Invocation) (w w₃ : World) : Prop :=
  ∃ h₃ h₄, later = h₄ ++ h₃ ∧ Run Step w₂ h₃ w₃ ∧ Run Step w₃ h₄ w

/-- The stored admin. -/
def World.admin? (w : World) : Option Address := w.state?.map FactoryState.admin

/-- The stored hash of the code that is deployed for new tokens. -/
def World.tokenWasmHash? (w : World) : Option BytesN32 := w.state?.map FactoryState.tokenWasmHash

variable {args : ConstructorArgs} {touches : Call → Prop} {h later : List Invocation}
  {i : Invocation} {w w₀ w₁ w₂ w₃ : World} {m m₀ : FactoryModel}

theorem Represents.map_state? {τ : Type} (f : FactoryState → τ) (hw : Represents w m) :
    w.state?.map f = some (f m.state) := by
  rw [hw.state?, Option.map_some]

theorem Represents.admin? (hw : Represents w m) : w.admin? = some m.admin :=
  hw.map_state? FactoryState.admin

theorem Represents.tokenWasmHash? (hw : Represents w m) :
    w.tokenWasmHash? = some m.tokenWasmHash :=
  hw.map_state? FactoryState.tokenWasmHash

theorem Represents.contracts (hw : Represents w m) {a : Address} {t : Token}
    (ht : m.tokens.find? a = some t) : w.contracts a = some t.wasmHash := by
  have hcontent := congrFun (congrArg Content.contracts hw) a
  exact hcontent.trans (congrArg (Option.map Token.wasmHash) ht)

/-- What no call of the run changes is unchanged. -/
theorem Represents.frame {τ : Type} {f : FactoryState → τ} (hw : Represents w₀ m₀)
    (hr : Run Step w₀ h w) (hf : ∀ {m i m'}, i ∈ h → AbstractStep m i m' → f m'.state = f m.state) :
    w.state?.map f = w₀.state?.map f := by
  obtain ⟨m, hm, hw'⟩ := hw.run hr
  have hframe := hm.frame (f := fun m => f m.state) hf
  rw [hw.map_state?, hw'.map_state?]
  exact congrArg some hframe

/-- **Last-touch rule** for a part `f` of the stored state that only the calls `touches` change. -/
theorem Reaches.lastTouch {τ : Type} {f : FactoryState → τ} (touches : Call → Prop)
    (hf : ∀ {m i m'}, ¬ touches i.call → AbstractStep m i m' → f m'.state = f m.state)
    (hr : Reaches args h w) (hne : w.state?.map f ≠ some (f args.initialModel.state)) :
    ∃ i later w₁ w₂, LastTouch args touches h w i later w₁ w₂ ∧
      ∀ w₃, Between w₂ later w w₃ → w₃.state?.map f = w.state?.map f := by
  obtain ⟨env, w₀, hc, hr⟩ := hr
  rcases hr.lastTouch fun i => touches i.call with
    hno | ⟨h₁, i, later, w₁, w₂, rfl, htouch, hno, hr₁, hstep, hrun⟩
  · -- nothing has changed the part since the constructor
    refine absurd ?_ hne
    rw [hc.represents.frame hr fun hi hs => hf (hno _ hi) hs, hc.represents.map_state?]
  · have hr₁ : Reaches args h₁ w₁ := ⟨env, w₀, hc, hr₁⟩
    refine ⟨i, later, w₁, w₂, ⟨⟨h₁, rfl, hr₁⟩, hstep, hrun, htouch, hno⟩, ?_⟩
    rintro w₃ ⟨h₃, h₄, rfl, hr₃, hr₄⟩
    obtain ⟨m₁, -, hw₁⟩ := hr₁.represents
    obtain ⟨m₂, -, hw₂⟩ := hw₁.step hstep
    obtain ⟨m₃, -, hw₃⟩ := hw₂.run hr₃
    exact (hw₃.frame hr₄ fun hi hs => hf (hno _ (List.mem_append_left _ hi)) hs).symm

/-! ### Pending proposals -/

theorem Proposal.eq_some {α : Type} {o : Option (Proposal α)} {p : Proposal α}
    (h : (o.map Proposal.subject, o.map Proposal.ledger) = (some p.subject, some p.ledger)) :
    o = some p := by
  obtain ⟨hsubject, hledger⟩ := Prod.mk.inj h
  rcases o with _ | q
  · simp at hsubject
  · obtain ⟨hs, hl⟩ : q.subject = p.subject ∧ q.ledger = p.ledger :=
      ⟨Option.some.inj hsubject, Option.some.inj hledger⟩
    cases p
    subst hs hl
    rfl

/-- **A pending proposal is what the last call that touches it has left behind**, for a proposal that
is stored in the parts `part` of the state. -/
theorem Reaches.lastProposal {α : Type} {slot : FactoryModel → Option (Proposal α)}
    {part : FactoryState → Option α × Option ℕ} (touches : Call → Prop)
    (hpart : ∀ m, part m.state = ((slot m).map Proposal.subject, (slot m).map Proposal.ledger))
    (hslot : ∀ {m i m'}, ¬ touches i.call → AbstractStep m i m' → slot m' = slot m)
    (h₀ : slot args.initialModel = none) (hr : Reaches args h w) (hw : Represents w m)
    {p : Proposal α} (hp : slot m = some p) :
    ∃ i later w₁ w₂ m₁ m₂, LastTouch args touches h w i later w₁ w₂ ∧
      (Represents w₁ m₁ ∧ AbstractStep m₁ i m₂ ∧ Represents w₂ m₂) ∧ slot m₂ = some p ∧
      ∀ w₃, Between w₂ later w w₃ →
        w₃.state?.map part = some (some p.subject, some p.ledger) := by
  -- a proposal stands, and none did at the start, so some call must have made it
  have hstored : w.state?.map part = some (some p.subject, some p.ledger) := by
    rw [hw.map_state?, hpart, hp, Option.map_some, Option.map_some]
  have hne : w.state?.map part ≠ some (part args.initialModel.state) := by
    rw [hstored, hpart, h₀]
    simp
  obtain ⟨i, later, w₁, w₂, hl, hbetween⟩ := hr.lastTouch touches
    (fun ht hs => by rw [hpart, hpart, hslot ht hs]) hne
  obtain ⟨h₁, -, hr₁⟩ := hl.earlier
  -- the state around that call, in the model
  obtain ⟨m₁, -, hw₁⟩ := hr₁.represents
  obtain ⟨m₂, hnext, hw₂⟩ := hw₁.step hl.step
  refine ⟨i, later, w₁, w₂, m₁, m₂, hl, ⟨hw₁, hnext, hw₂⟩, Proposal.eq_some ?_,
    fun w₃ hw₃ => (hbetween w₃ hw₃).trans hstored⟩
  have hstored₂ := hbetween w₂ ⟨[], later, (List.append_nil _).symm, .nil, hl.run⟩
  rw [hstored, hw₂.map_state?, hpart] at hstored₂
  exact Option.some.inj hstored₂

end StellarForge.Factory
