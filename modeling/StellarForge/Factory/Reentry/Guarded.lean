import StellarForge.Factory.Reentry.Nested

/-!
# The guarded entrypoints, taken apart where they take and release the lock

`Explains` holds across every helper that calls other contracts, so between two writes of its own an
entrypoint changes the stored state through the nested calls alone.  `Guards nested env w w'` says
what follows for a guarded entrypoint: it takes the lock in a state `st`, keeps a copy of it, and
writes the copy back when it releases the lock.
-/

namespace StellarForge.Factory

open Soroban Contract Transition

variable {env : Env} {nested : CallLog → List NestedCall} {w w' : World}

/-! ### Calls to other contracts -/

/-- The environments whose host is explained by `nested`. -/
abbrev ReentersBy (nested : CallLog → List NestedCall) (env : Env) : Prop := env.Reenters nested

instance {c : ExtCall} : MayCall (ReentersBy nested) (Explains nested) c where
  tryCall := by
    refine ⟨fun {env w _ _} henv h => ?_⟩
    unfold tryCall at h
    split at h
    next r s hhost =>
      obtain ⟨-, rfl⟩ := Prod.mk.inj (Option.some.inj h)
      obtain ⟨w₁, hrun, rfl⟩ := henv _ _ _ _ hhost
      have hstate : Run StateStep w.state? (nested w.calls) w₁.state? := stateRun_of_run hrun
      exact ⟨[(c, true)], rfl, hstate⟩
    next =>
      obtain ⟨-, rfl⟩ := Prod.mk.inj (Option.some.inj h)
      exact ⟨[(c, false)], rfl, .nil⟩

instance : PaymentFrame (ReentersBy nested) (Explains nested) := ⟨inferInstance⟩

instance : CreationFrame (ReentersBy nested) (Explains nested) :=
  ⟨inferInstance, inferInstance, inferInstance⟩

instance : BurnFrame (ReentersBy nested) (Explains nested) := ⟨inferInstance, inferInstance⟩

/-! ### The guarded entrypoints -/

theorem Explains.of_returns {α : Type} {x : ContractM α} {a : α}
    [MovesIn (ReentersBy nested) (Explains nested) x] (henv : env.Reenters nested)
    (h : x.Returns env w a w') : Explains nested w w' :=
  h.relIn (E := ReentersBy nested) henv

/-- The copy of the state that `record_token` hands back counts the token and is otherwise the one
it was given. -/
theorem state_of_returns_recordToken {creator : Address} {p : BatchTokenParams} {st : FactoryState}
    {r : Address × FactoryState} (h : (recordToken creator p st).Returns env w r w') :
    ∃ count, r.2 = { st with tokenCount := count } := by
  simp only [recordToken, returns_bind, returns_pure] at h
  obtain ⟨_, _, -, _, _, -, _, _, -, _, _, -, index, _, -, _, _, -, _, _, -, _, _, -, rfl, -⟩ := h
  exact ⟨index, rfl⟩

theorem state_of_returns_recordTokens {creator : Address} {ps : List BatchTokenParams}
    {addresses : List Address} {st : FactoryState} {r : List Address × FactoryState}
    (h : (recordTokens creator ps addresses st).Returns env w r w') :
    ∃ count, r.2 = { st with tokenCount := count } := by
  induction ps generalizing addresses st w with
  | nil =>
    simp only [recordTokens, returns_pure] at h
    obtain ⟨rfl, -⟩ := h
    exact ⟨st.tokenCount, rfl⟩
  | cons p ps ih =>
    simp only [recordTokens, returns_bind] at h
    obtain ⟨recorded, _, hrec, hrest⟩ := h
    obtain ⟨count, hcount⟩ := state_of_returns_recordToken hrec
    obtain ⟨count', hcount'⟩ := ih hrest
    exact ⟨count', by rw [hcount', hcount]⟩

/-- The lock is taken in the state `st`; when it is released, the copy of `st` that was kept is
written back, with the token count `count`. -/
inductive Guards (nested : CallLog → List NestedCall) (w : World) (st : FactoryState) (count : ℕ)
    (w' : World) : Prop
  | intro {env : Env} {w₁ w₃ : World} (before : Explains nested w w₁)
    (state : w₁.state? = some st) (unlocked : st.locked = false)
    (held : Explains nested (w₁.saveState env { st with locked := true }) w₃)
    (released : Own (w₃.saveState env { st with locked := false, tokenCount := count }) w')
    (counted : count = st.tokenCount ∨ Own w w₁)

theorem Own.publish {ev : Event} : Own w (w.publish ev) := ⟨rfl, rfl⟩

/-- `create_token` is guarded. -/
theorem guards_createToken (henv : env.Reenters nested) {creator address : Address}
    {p : BatchTokenParams} {feePayment : ℤ}
    (h : (createToken creator p feePayment).Returns env w address w') :
    ∃ st count, Guards nested w st count w' := by
  simp only [createToken, returns_bind, returns_requireAuth, returns_loadUnlockedState,
    returns_throwIf, returns_setLocked, returns_attempt] at h
  obtain ⟨_, w₁, hpaused, _, _, ⟨-, rfl⟩, st, _, ⟨hst, hunlocked, rfl⟩, h⟩ := h
  obtain ⟨_, w₂, hvalid, _, _, ⟨-, rfl⟩, _, w₃, hlisted, _, _, ⟨-, rfl⟩, h⟩ := h
  obtain ⟨_, _, ⟨rfl, rfl⟩, o, w₄, hrun, h⟩ := h
  rcases o with e | ⟨address, st'⟩
  · simp at h
  have hrun : (createTokenInner creator p { st with locked := true }).Returns env _ _ w₄ := hrun
  -- what happens inside is explained by nested calls, all of them under the lock
  have hheld : Explains nested _ w₄ := .of_returns henv hrun
  simp only [createTokenInner, returns_bind] at hrun
  obtain ⟨_, _, -, hrec⟩ := hrun
  obtain ⟨count, rfl⟩ := state_of_returns_recordToken hrec
  simp only [returns_bind, returns_setLocked, returns_pure] at h
  obtain ⟨_, _, ⟨-, rfl⟩, -, rfl⟩ := h
  have hown : Own w₁ w₃ := .trans hvalid.rel hlisted.rel
  exact ⟨st, count, .intro (Own.trans hpaused.rel hown).explains (hown.2.trans hst) hunlocked hheld
    (.refl _) (.inr (.trans hpaused.rel hown))⟩

/-- `create_tokens_batch` is guarded. -/
theorem guards_createTokensBatch (henv : env.Reenters nested) {creator : Address}
    {tokens : List BatchTokenParams} {feePayment : ℤ} {addresses : List Address}
    (h : (createTokensBatch creator tokens feePayment).Returns env w addresses w') :
    ∃ st count, Guards nested w st count w' := by
  simp only [createTokensBatch, returns_bind, returns_requireAuth, returns_loadUnlockedState,
    returns_throwIf, returns_okOr, returns_setLocked, returns_pure] at h
  obtain ⟨_, w₁, hpaused, _, _, ⟨-, rfl⟩, st, _, ⟨hst, hunlocked, rfl⟩, h⟩ := h
  obtain ⟨_, _, ⟨-, rfl⟩, _, _, ⟨-, rfl⟩, _, w₂, hvalid, _, _, ⟨-, rfl⟩, h⟩ := h
  obtain ⟨_, _, ⟨-, rfl⟩, _, _, ⟨-, rfl⟩, _, w₃, hlisted, _, _, ⟨rfl, rfl⟩, h⟩ := h
  obtain ⟨r, w₄, hrec, _, w₅, hfees, _, _, ⟨-, rfl⟩, -, rfl⟩ := h
  obtain ⟨count, hcount⟩ := state_of_returns_recordTokens hrec
  have hheld : Explains nested _ w₅ := .trans (.of_returns henv hrec) (.of_returns henv hfees)
  have hown : Own w₁ w₃ := .trans hvalid.rel hlisted.rel
  refine ⟨st, count, .intro (Own.trans hpaused.rel hown).explains (hown.2.trans hst) hunlocked hheld
    ?_ (.inr (.trans hpaused.rel hown))⟩
  rw [hcount]
  exact .refl _

/-- `set_metadata` is guarded. -/
theorem guards_setMetadata (henv : env.Reenters nested) {token admin : Address} {uri : Bytes}
    {feePayment : ℤ} {u : Unit}
    (h : (setMetadata token admin uri feePayment).Returns env w u w') :
    ∃ st count, Guards nested w st count w' := by
  simp only [setMetadata, returns_bind, returns_requireAuth, returns_loadUnlockedState,
    returns_throwIf, returns_okOr, returns_setLocked, returns_publish] at h
  obtain ⟨_, w₁, hpaused, _, _, ⟨-, rfl⟩, st, _, ⟨hst, hunlocked, rfl⟩, h⟩ := h
  obtain ⟨_, _, ⟨-, rfl⟩, _, w₂, huri, _, w₃, hcreator, _, _, ⟨-, rfl⟩, h⟩ := h
  obtain ⟨_, w₄, hfrozen, _, _, ⟨-, rfl⟩, _, w₅, hversion, _, _, ⟨-, rfl⟩, h⟩ := h
  obtain ⟨_, _, ⟨rfl, rfl⟩, _, w₆, hfees, _, _, ⟨-, rfl⟩, h⟩ := h
  obtain ⟨_, w₇, huris, _, w₈, hversions, _, _, ⟨-, rfl⟩, rfl⟩ := h
  have hown : Own w₁ w₅ := .trans huri.rel (.trans hcreator.rel (.trans hfrozen.rel hversion.rel))
  have hheld : Explains nested _ w₈ :=
    .trans (.of_returns henv hfees) (Own.trans huris.rel hversions.rel).explains
  exact ⟨st, st.tokenCount, .intro (Own.trans hpaused.rel hown).explains (hown.2.trans hst)
    hunlocked hheld .publish (.inl rfl)⟩

/-- `mint_tokens` is guarded. -/
theorem guards_mintTokens (henv : env.Reenters nested) {token admin recipient : Address}
    {amount feePayment : ℤ} {u : Unit}
    (h : (mintTokens token admin recipient amount feePayment).Returns env w u w') :
    ∃ st count, Guards nested w st count w' := by
  simp only [mintTokens, returns_bind, returns_requireAuth, returns_loadUnlockedState,
    returns_throwIf, returns_setLocked, returns_publish] at h
  obtain ⟨_, w₁, hpaused, _, _, ⟨-, rfl⟩, _, _, ⟨-, rfl⟩, h⟩ := h
  obtain ⟨st, _, ⟨hst, hunlocked, rfl⟩, _, _, ⟨-, rfl⟩, _, w₂, hreg, h⟩ := h
  obtain ⟨_, w₃, hcreator, _, _, ⟨-, rfl⟩, _, w₄, htrack, h⟩ := h
  obtain ⟨_, _, ⟨rfl, rfl⟩, _, w₅, hfees, _, w₆, hmint, _, _, ⟨-, rfl⟩, rfl⟩ := h
  have hown : Own w₁ w₄ := .trans hreg.rel (.trans hcreator.rel htrack.rel)
  have hheld : Explains nested _ w₆ := .trans (.of_returns henv hfees) (.of_returns henv hmint)
  exact ⟨st, st.tokenCount, .intro (Own.trans hpaused.rel hown).explains (hown.2.trans hst)
    hunlocked hheld .publish (.inl rfl)⟩

/-- `burn` queries the balance before it takes the lock, and takes no lock where there is no state. -/
theorem guards_burn (henv : env.Reenters nested) {token holder : Address} {amount : ℤ} {u : Unit}
    (h : (burn token holder amount).Returns env w u w') :
    (∃ st count, Guards nested w st count w') ∨
      ∃ w₁, w₁.state? = none ∧ Explains nested w w₁ ∧ Explains nested w₁ w' := by
  simp only [burn, returns_bind, returns_requireAuth, returns_throwIf] at h
  obtain ⟨_, _, ⟨-, rfl⟩, _, _, ⟨-, rfl⟩, _, w₁, hreg, _, _, ⟨-, rfl⟩, h⟩ := h
  obtain ⟨_, w₂, hbalance, _, _, ⟨-, rfl⟩, o, w₃, hload, h⟩ := h
  have hbefore : Explains nested w w₂ := .trans (Own.explains hreg.rel) (.of_returns henv hbalance)
  rcases o with _ | st
  · simp only [returns_bind, returns_publish] at h
    obtain ⟨_, w₄, hburn, rfl⟩ := h
    obtain ⟨hnone, rfl⟩ := returns_loadState? hload
    exact .inr ⟨w₂, hnone, hbefore, .trans (.of_returns henv hburn) Own.publish.explains⟩
  · simp only [returns_bind, returns_throwIf, returns_setLocked, returns_publish,
      Bool.not_eq_true] at h
    obtain ⟨hsome, rfl⟩ := returns_loadState? hload
    obtain ⟨_, _, ⟨hunlocked, rfl⟩, _, _, ⟨rfl, rfl⟩, _, w₄, hburn, _, _, ⟨-, rfl⟩, rfl⟩ := h
    exact .inl ⟨st, st.tokenCount, .intro hbefore hsome hunlocked (.of_returns henv hburn) .publish
      (.inl rfl)⟩

end StellarForge.Factory
