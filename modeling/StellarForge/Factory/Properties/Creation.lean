import StellarForge.Factory.Properties.CreationOrder
import StellarForge.Factory.Properties.Histories

/-!
# Single and batch creation

`create_token` and `create_tokens_batch` make the same checks and take the same steps, but not in the
same order: the batch checks the token count before the fee and the whitelist and pays after it has
recorded the tokens, the single creation does both the other way round.

* `creation_agrees`: **a batch of one token agrees with a single creation if and only if no two faults
  meet that the two report in a different order** (`Diverges`), and a batch leaves what creating its
  tokens one after the other leaves;
* `creation_diverges_samples`: at both kinds of faults they disagree.
-/

namespace StellarForge.Factory

open Soroban Contract

/-! ### What is compared -/

/-- Creating `p` alone and in a batch of one fail alike, and leave the same address, the same state and
the same transfers. -/
structure CreationsAgree (env : Env) (w : World) (creator : Address) (p : BatchTokenParams)
    (feePayment : ℤ) : Prop where
  failure : (createToken creator p feePayment).failure env w =
    (createTokensBatch creator [p] feePayment).failure env w
  returns : ∀ a as v v', (createToken creator p feePayment).Returns env w a v →
    (createTokensBatch creator [p] feePayment).Returns env w as v' →
    as = [a] ∧ v.storage = v'.storage ∧ v.contracts = v'.contracts ∧ v.payments = v'.payments

/-- The tokens are created one after the other, each by a call with its own fee payment. -/
inductive CreatesEach (env : Env) (creator : Address) :
    World → List (BatchTokenParams × ℤ) → List Address → World → Prop
  | nil {w} : CreatesEach env creator w [] [] w
  | cons {w w₁ v p feePayment a qs as}
    (first : (createToken creator p feePayment).Returns env w a w₁)
    (rest : CreatesEach env creator w₁ qs as v) :
    CreatesEach env creator w ((p, feePayment) :: qs) (a :: as) v

/-- A batch that has made the tokens `as` and left `w'` agrees with creating the tokens one after the
other: this makes the same tokens and leaves the same state, and fails only where a fee cannot be
paid. -/
structure EachAgrees (env : Env) (w : World) (creator : Address) (ps : List BatchTokenParams)
    (as : List Address) (w' : World) : Prop where
  done : ∀ qs as' v, qs.map Prod.fst = ps → CreatesEach env creator w qs as' v →
    as' = as ∧ v.storage = w'.storage ∧ v.contracts = w'.contracts
  next : ∀ qs p rest as' v feePayment st, ps = qs.map Prod.fst ++ p :: rest →
    CreatesEach env creator w qs as' v → w.state? = some st → st.baseFee ≤ feePayment →
    (createToken creator p feePayment).failure env v =
      (distributeFee st creator st.baseFee).failure env v

/-! ### When they disagree -/

/-- The creator may create tokens as far as the whitelist goes. -/
def Listed (w : World) (creator : Address) (st : FactoryState) : Prop :=
  st.whitelistEnabled = true → (w.storage.lookup (.whitelist creator)).getD false = true

instance (w : World) (creator : Address) (st : FactoryState) : Decidable (Listed w creator st) :=
  inferInstanceAs (Decidable (_ → _))

/-- The checks that both entrypoints make first, in the same order. -/
structure Gates (env : Env) (w : World) (creator : Address) (p : BatchTokenParams)
    (st : FactoryState) : Prop where
  state : w.state? = some st
  paused : st.paused = false
  authorized : env.authorized creator = true
  unlocked : st.locked = false
  valid : p.Valid

/-- Two faults meet that the entrypoints report in a different order. -/
inductive Diverges (env : Env) (w : World) (creator : Address) (p : BatchTokenParams)
    (feePayment : ℤ) : Prop
  /-- The token count is full, and the fee is too low or the creator is not listed. -/
  | full {st : FactoryState} (gates : Gates env w creator p st)
    (full : U32.checkedAdd st.tokenCount 1 = none)
    (fault : feePayment < st.baseFee ∨ ¬ Listed w creator st)
  /-- Neither can the fee be paid nor the token be recorded, for different reasons. -/
  | order {st : FactoryState} {f f' : Option Error} (gates : Gates env w creator p st)
    (room : U32.checkedAdd st.tokenCount 1 ≠ none) (fee_le : st.baseFee ≤ feePayment)
    (listed : Listed w creator st)
    (fee : (distributeFee st creator st.baseFee).failure env w = some f)
    (record : (recordToken creator p st).failure env w = some f') (ne : f ≠ f')

variable {env : Env} {w w' v v' : World} {creator a : Address} {p : BatchTokenParams}
  {st s s' : FactoryState} {feePayment : ℤ} {as : List Address} {u : Unit}

/-! ### The checks -/

/-- The check lets those through who may create tokens. -/
theorem returns_requireWhitelisted_iff :
    (requireWhitelisted st creator).Returns env w u w' ↔ Listed w creator st ∧ w = w' := by
  simp only [requireWhitelisted, whitelistContains, returns_ite, returns_bind,
    returns_readAddrKeyed, returns_throwIf, returns_pure, Listed, Bool.not_eq_false]
  constructor
  · rintro (⟨-, _, _, ⟨_, _, ⟨rfl, rfl⟩, rfl, rfl⟩, h, rfl⟩ | ⟨h, -, rfl⟩)
    · exact ⟨fun _ => h, rfl⟩
    · exact ⟨fun h' => absurd h' h, rfl⟩
  · rintro ⟨h, rfl⟩
    by_cases hen : st.whitelistEnabled = true
    · exact Or.inl ⟨hen, _, w, ⟨_, w, ⟨rfl, rfl⟩, rfl, rfl⟩, h hen, rfl⟩
    · exact Or.inr ⟨hen, trivial, rfl⟩

/-- The others are refused. -/
theorem failure_requireWhitelisted (h : ¬ Listed w creator st) :
    (requireWhitelisted st creator).failure env w = some (some .notWhitelisted) := by
  obtain ⟨hen, hlisted⟩ := Classical.not_imp.mp h
  rw [Bool.not_eq_true] at hlisted
  have hread : (whitelistContains creator).Returns env w false w := by
    rw [whitelistContains, returns_bind]
    exact ⟨_, w, returns_readAddrKeyed.mpr ⟨rfl, rfl⟩, returns_pure.mpr ⟨hlisted, rfl⟩⟩
  rw [requireWhitelisted, if_pos hen, hread.failure_bind]
  rfl

/-! ### Paying and recording -/

/-- Of the state, paying a fee reads the fee token and the treasury. -/
theorem distributeFee_congr {payer : Address} {amount : ℤ} (htoken : s.feeToken = s'.feeToken)
    (htreasury : s.treasury = s'.treasury) :
    distributeFee s payer amount = distributeFee s' payer amount := by
  unfold distributeFee distributeSplit payTreasury
  rw [htoken, htreasury]

theorem returns_recordToken_snd {r : Address × FactoryState}
    (h : (recordToken creator p s).Returns env w r w') :
    r.2 = { s with tokenCount := s.tokenCount + 1 } := by
  simp only [recordToken, returns_bind, returns_okOr, returns_pure, U32.checkedAdd_eq_some] at h
  obtain ⟨_, _, -, _, _, -, _, _, -, _, _, -, index, _, ⟨⟨rfl, -⟩, rfl⟩, _, _, -, _, _, -, _, _, -, rfl,
    -⟩ := h
  rfl

/-- Whether and how recording a token fails does not depend on the lock. -/
theorem failure_recordToken_locked {locked : Bool} :
    (recordToken creator p { s with locked }).failure env w =
      (recordToken creator p s).failure env w := by
  unfold recordToken
  iterate 8 refine failure_bind_congr fun _ _ _ => ?_
  rfl

section

variable [env.NoReentry] [env.Separate]

section

variable {payer : Address} {amount : ℤ} {r : Address × FactoryState}

omit [env.Separate] in
theorem like_of_paid (h : (distributeFee s payer amount).Returns env w u w') : Like env w w' :=
  have he : env.NoReentry := inferInstance
  h.relIn (E := fun e => e.NoReentry) he

omit [env.Separate] in
theorem likeFee_of_recorded (h : (recordToken creator p s).Returns env w r w') : LikeFee w w' :=
  have he : env.NoReentry := inferInstance
  h.relIn (E := fun e => e.NoReentry) he

/-- Recording a token fails after a fee is paid as it does before. -/
theorem failure_recordToken_after (h : (distributeFee s' payer amount).Returns env w u w') :
    (recordToken creator p s).failure env w' = (recordToken creator p s).failure env w :=
  (Respects.failure_eq inferInstance (like_of_paid h)).symm

/-- So it returns the same. -/
theorem returns_recordToken_after (h : (distributeFee s' payer amount).Returns env w u w')
    (hret : (recordToken creator p s).Returns env w r v) :
    ∃ v', (recordToken creator p s).Returns env w' r v' ∧ Like env v v' :=
  Respects.returns inferInstance (like_of_paid h) hret

/-- And paying a fee fails after a token is recorded as it does before. -/
theorem failure_distributeFee_after (h : (recordToken creator p s).Returns env w r w') :
    (distributeFee s' payer amount).failure env w' =
      (distributeFee s' payer amount).failure env w :=
  (Respects.failure_eq inferInstance (likeFee_of_recorded h)).symm

theorem returns_distributeFee_after (h : (recordToken creator p s).Returns env w r w')
    (hret : (distributeFee s' payer amount).Returns env w u v) :
    ∃ v', (distributeFee s' payer amount).Returns env w' u v' ∧ LikeFee v v' :=
  Respects.returns inferInstance (likeFee_of_recorded h) hret

end

/-- The lock changes neither. -/
theorem failure_recordToken_saveState :
    (recordToken creator p s).failure env (w.saveState env st) =
      (recordToken creator p s).failure env w :=
  (Respects.failure_eq (R := Like env) inferInstance (Like.saveState w)).symm

theorem failure_distributeFee_saveState {payer : Address} {amount : ℤ} :
    (distributeFee s payer amount).failure env (w.saveState env st) =
      (distributeFee s payer amount).failure env w :=
  (Respects.failure_eq (R := LikeFee) inferInstance (LikeFee.saveState w)).symm

theorem failure_createTokenInner : (createTokenInner creator p s).failure env w =
    ((distributeFee s creator s.baseFee).failure env w <|>
      (recordToken creator p s).failure env w) := by
  rcases hfee : (distributeFee s creator s.baseFee).failure env w with _ | f
  · obtain ⟨_, w₁, hpaid⟩ := failure_eq_none.mp hfee
    rw [createTokenInner, hpaid.failure_bind, failure_recordToken_after hpaid]
    rfl
  · rw [createTokenInner, failure_bind_of_some hfee]
    rfl

/-! ### How each entrypoint fails -/

omit [env.NoReentry] [env.Separate] in
theorem returns_validateBatch_singleton (hp : p.Valid) :
    (validateBatch [p]).Returns env w () w :=
  returns_validateBatch.mpr ⟨List.forall_mem_singleton.mpr hp, rfl⟩

/-- How a single creation fails once the first checks have passed. -/
theorem Gates.failure_createToken (hg : Gates env w creator p st) :
    (createToken creator p feePayment).failure env w =
      if feePayment < st.baseFee then some (some .insufficientFee)
      else if Listed w creator st then
        if U32.checkedAdd st.tokenCount 1 = none then some (some .arithmeticOverflow)
        else ((distributeFee st creator st.baseFee).failure env w <|>
          (recordToken creator p st).failure env w)
      else some (some .notWhitelisted) := by
  -- the gates are open, so the call gets past its first four checks
  have hpaused : requireNotPaused.Returns env w () w :=
    returns_requireNotPaused.mpr ⟨⟨st, hg.state, hg.paused⟩, rfl⟩
  have hauth : (requireAuth creator).Returns env w () w :=
    returns_requireAuth.mpr ⟨hg.authorized, rfl⟩
  have hload : loadUnlockedState.Returns env w st w :=
    returns_loadUnlockedState.mpr ⟨hg.state, hg.unlocked, rfl⟩
  have hvalid : (validateTokenParams p).Returns env w () w :=
    returns_validateTokenParams.mpr ⟨hg.valid, rfl⟩
  rw [createToken, hpaused.failure_bind, hauth.failure_bind, hload.failure_bind, hvalid.failure_bind]
  split_ifs with hfee hlisted hfull
  · -- fee, whitelist and count stand in this order in a single creation
    exact failure_bind_of_some (Throws.failure_eq (throws_throwIf.mpr ⟨hfee, rfl, rfl⟩))
  · rw [(returns_throwIf.mpr ⟨hfee, rfl⟩ : Returns _ env w () w).failure_bind,
      (returns_requireWhitelisted_iff.mpr ⟨hlisted, rfl⟩ : Returns _ env w () w).failure_bind]
    exact failure_bind_of_some (Throws.failure_eq (throws_throwIf.mpr ⟨hfull, rfl, rfl⟩))
  · rw [(returns_throwIf.mpr ⟨hfee, rfl⟩ : Returns _ env w () w).failure_bind,
      (returns_requireWhitelisted_iff.mpr ⟨hlisted, rfl⟩ : Returns _ env w () w).failure_bind,
      (returns_throwIf.mpr ⟨hfull, rfl⟩ : Returns _ env w () w).failure_bind,
      (returns_setLocked.mpr ⟨rfl, rfl⟩ : Returns (setLocked st true) env w _ _).failure_bind,
      failure_attempt (fun _ _ _ => rfl) (fun _ _ _ => rfl), failure_createTokenInner,
      failure_distributeFee_saveState, failure_recordToken_saveState, failure_recordToken_locked]
    rfl
  · rw [(returns_throwIf.mpr ⟨hfee, rfl⟩ : Returns _ env w () w).failure_bind]
    exact failure_bind_of_some (failure_requireWhitelisted hlisted)

omit [env.NoReentry] [env.Separate] in
theorem returns_recordTokens_singleton {r : List Address × FactoryState} :
    (recordTokens creator [p] [] s).Returns env w r w' ↔
      ∃ t, (recordToken creator p s).Returns env w t w' ∧ r = ([t.1], t.2) := by
  simp only [recordTokens, returns_bind, returns_pure, List.nil_append]
  constructor
  · rintro ⟨t, _, h, rfl, rfl⟩
    exact ⟨t, h, rfl⟩
  · rintro ⟨t, h, rfl⟩
    exact ⟨t, w', h, rfl, rfl⟩

/-- The steps of a batch of one. -/
theorem failure_record_then_pay {α : Type} {f : List Address × FactoryState → ContractM α}
    (hf : ∀ r w, (f r).failure env w = none) :
    (recordTokens creator [p] [] s >>= fun recorded => do
        distributeFee recorded.2 creator s.baseFee
        f recorded).failure env w =
      ((recordToken creator p s).failure env w <|>
        (distributeFee s creator s.baseFee).failure env w) := by
  -- the record comes first, so its failure is the one seen
  rcases hrec : (recordToken creator p s).failure env w with _ | r
  · obtain ⟨t, w₁, hret⟩ := failure_eq_none.mp hrec
    rw [(returns_recordTokens_singleton.mpr ⟨t, hret, rfl⟩).failure_bind]
    -- the state after it has the fees of the state before
    have hsame : distributeFee t.2 creator s.baseFee = distributeFee s creator s.baseFee := by
      rw [returns_recordToken_snd hret]
      exact distributeFee_congr rfl rfl
    dsimp only
    rw [hsame]
    rcases hfee : (distributeFee s creator s.baseFee).failure env w₁ with _ | r'
    · obtain ⟨_, w₂, hpaid⟩ := failure_eq_none.mp hfee
      rw [hpaid.failure_bind, hf, ← failure_distributeFee_after hret, hfee]
      rfl
    · rw [failure_bind_of_some hfee, ← failure_distributeFee_after hret, hfee]
      rfl
  · refine failure_bind_of_some ?_
    exact failure_bind_of_some hrec

/-- How a batch of one fails once the first checks have passed. -/
theorem Gates.failure_createTokensBatch (hg : Gates env w creator p st)
    (hbase : I128.MIN ≤ st.baseFee ∧ st.baseFee ≤ I128.MAX) :
    (createTokensBatch creator [p] feePayment).failure env w =
      if U32.checkedAdd st.tokenCount 1 = none then some (some .arithmeticOverflow)
      else if feePayment < st.baseFee then some (some .insufficientFee)
      else if Listed w creator st then
        ((recordToken creator p st).failure env w <|>
          (distributeFee st creator st.baseFee).failure env w)
      else some (some .notWhitelisted) := by
  have hpaused : requireNotPaused.Returns env w () w :=
    returns_requireNotPaused.mpr ⟨⟨st, hg.state, hg.paused⟩, rfl⟩
  have hauth : (requireAuth creator).Returns env w () w :=
    returns_requireAuth.mpr ⟨hg.authorized, rfl⟩
  have hload : loadUnlockedState.Returns env w st w :=
    returns_loadUnlockedState.mpr ⟨hg.state, hg.unlocked, rfl⟩
  -- a batch of one passes the two checks on its size
  have hcount : ¬ (((([p] : List BatchTokenParams).length : ℕ) : ℤ) = 0) := by
    rw [List.length_singleton]
    decide
  have hsize : ¬ ([p] : List BatchTokenParams).length > MAX_BATCH_SIZE := by
    rw [List.length_singleton]
    decide
  have htotal : I128.checkedMul st.baseFee (([p] : List BatchTokenParams).length : ℕ) =
      some st.baseFee := by
    rw [List.length_singleton, Nat.cast_one, I128.checkedMul, mul_one, I128.checked_eq_some]
    exact ⟨rfl, hbase⟩
  rw [createTokensBatch, hpaused.failure_bind, hauth.failure_bind, hload.failure_bind,
    (returns_throwIf.mpr ⟨hcount, rfl⟩ : Returns _ env w () w).failure_bind,
    (returns_throwIf.mpr ⟨hsize, rfl⟩ : Returns _ env w () w).failure_bind,
    (returns_validateBatch_singleton hg.valid).failure_bind]
  -- a batch reserves its numbers before it looks at the fee
  by_cases hfull : U32.checkedAdd st.tokenCount 1 = none
  · rw [if_pos hfull]
    exact failure_bind_of_some (Throws.failure_eq (throws_okOr.mpr ⟨hfull, rfl, rfl⟩))
  rw [if_neg hfull]
  obtain ⟨n, hn⟩ := Option.ne_none_iff_exists'.mp hfull
  have hroom : U32.checkedAdd st.tokenCount ([p] : List BatchTokenParams).length = some n := hn
  rw [(returns_okOr.mpr ⟨hroom, rfl⟩ : Returns _ env w n w).failure_bind,
    (returns_okOr.mpr ⟨htotal, rfl⟩ : Returns _ env w st.baseFee w).failure_bind]
  split_ifs with hfee hlisted
  · exact failure_bind_of_some (Throws.failure_eq (throws_throwIf.mpr ⟨hfee, rfl, rfl⟩))
  · rw [(returns_throwIf.mpr ⟨hfee, rfl⟩ : Returns _ env w () w).failure_bind,
      (returns_requireWhitelisted_iff.mpr ⟨hlisted, rfl⟩ : Returns _ env w () w).failure_bind,
      (returns_setLocked.mpr ⟨rfl, rfl⟩ : Returns (setLocked st true) env w _ _).failure_bind]
    refine (failure_record_then_pay (s := { st with locked := true }) fun _ _ => rfl).trans ?_
    rw [failure_distributeFee_saveState, failure_recordToken_saveState, failure_recordToken_locked]
    rfl
  · rw [(returns_throwIf.mpr ⟨hfee, rfl⟩ : Returns _ env w () w).failure_bind]
    exact failure_bind_of_some (failure_requireWhitelisted hlisted)

omit [env.NoReentry] [env.Separate] in
/-- Where a first check fails, both fail alike. -/
theorem failure_eq_of_not_gates (h : ∀ st, ¬ Gates env w creator p st) :
    (createToken creator p feePayment).failure env w =
      (createTokensBatch creator [p] feePayment).failure env w := by
  unfold createToken createTokensBatch
  refine failure_bind_congr fun _ w₁ hpaused => failure_bind_congr fun _ w₂ hauth =>
    failure_bind_congr fun st w₃ hload => ?_
  obtain ⟨⟨st', hst', hopen⟩, rfl⟩ := returns_requireNotPaused.mp hpaused
  obtain ⟨hcarried, rfl⟩ := returns_requireAuth.mp hauth
  obtain ⟨hst, hunlocked, rfl⟩ := returns_loadUnlockedState.mp hload
  obtain rfl := Option.some.inj (hst'.symm.trans hst)
  have hcount : ¬ (((([p] : List BatchTokenParams).length : ℕ) : ℤ) = 0) := by
    rw [List.length_singleton]
    decide
  have hsize : ¬ ([p] : List BatchTokenParams).length > MAX_BATCH_SIZE := by
    rw [List.length_singleton]
    decide
  rw [(returns_throwIf.mpr ⟨hcount, rfl⟩ : Returns _ env w () w).failure_bind,
    (returns_throwIf.mpr ⟨hsize, rfl⟩ : Returns _ env w () w).failure_bind]
  -- so the parameters are what is refused
  rcases hvalid : (validateTokenParams p).failure env w with _ | f
  · obtain ⟨_, _, hret⟩ := failure_eq_none.mp hvalid
    exact absurd ⟨hst, hopen, hcarried, hunlocked, (returns_validateTokenParams.mp hret).1⟩ (h st')
  · rw [failure_bind_of_some hvalid]
    exact (failure_bind_of_some (failure_bind_of_some hvalid)).symm

/-- **A batch of one fails as a single creation does if and only if the faults do not diverge.** -/
theorem failure_eq_iff
    (hbase : ∀ st, w.state? = some st → I128.MIN ≤ st.baseFee ∧ st.baseFee ≤ I128.MAX) :
    (createToken creator p feePayment).failure env w =
        (createTokensBatch creator [p] feePayment).failure env w ↔
      ¬ Diverges env w creator p feePayment := by
  -- past the gates both calls are known in full; before them they fail alike
  by_cases hgates : ∃ st, Gates env w creator p st
  · obtain ⟨st, hg⟩ := hgates
    have hst {st' : FactoryState} (hg' : Gates env w creator p st') : st' = st :=
      Option.some.inj (hg'.state.symm.trans hg.state)
    rw [hg.failure_createToken, hg.failure_createTokensBatch (hbase st hg.state)]
    constructor
    · intro heq hdiv
      cases hdiv with
      | full hg' hfull hfault =>
        obtain rfl := hst hg'
        rw [if_pos hfull, if_pos hfull] at heq
        rcases hfault with hfee | hlisted
        · rw [if_pos hfee] at heq
          cases heq
        · rw [if_neg hlisted] at heq
          split_ifs at heq <;> cases heq
      | order hg' hroom hfee hlisted hpay hrec hne =>
        obtain rfl := hst hg'
        rw [if_neg (not_lt.mpr hfee), if_pos hlisted, if_neg hroom, if_neg hroom,
          if_neg (not_lt.mpr hfee), if_pos hlisted, hpay, hrec] at heq
        exact hne (Option.some.inj heq)
    · intro hno
      by_cases hfull : U32.checkedAdd st.tokenCount 1 = none
      · have hfee : ¬ feePayment < st.baseFee := fun h => hno (.full hg hfull (Or.inl h))
        have hlisted : Listed w creator st := by
          by_contra h
          exact hno (.full hg hfull (Or.inr h))
        rw [if_neg hfee, if_pos hlisted, if_pos hfull, if_pos hfull]
      · rw [if_neg hfull, if_neg hfull]
        split_ifs with hfee hlisted
        · rfl
        · -- the two parts come in different orders, so two different failures tell the calls apart
          rcases hpay : (distributeFee st creator st.baseFee).failure env w with _ | f <;>
            rcases hrec : (recordToken creator p st).failure env w with _ | f'
          · rfl
          · rfl
          · rfl
          · have hsame : f = f' := by
              by_contra hne
              exact hno (.order hg hfull (not_lt.mp hfee) hlisted hpay hrec hne)
            rw [hsame]
        · rfl
  · refine ⟨fun _ hdiv => hgates ?_, fun _ => failure_eq_of_not_gates fun st hg => hgates ⟨st, hg⟩⟩
    cases hdiv with
    | full hg _ _ => exact ⟨_, hg⟩
    | order hg _ _ _ _ _ _ => exact ⟨_, hg⟩

/-! ### What each entrypoint returns -/

omit [env.NoReentry] [env.Separate] in
/-- A single creation that returns has passed the checks, paid the fee and then recorded the
token. -/
theorem returns_createToken (h : (createToken creator p feePayment).Returns env w a v) :
    ∃ st s w₁ w₂, Gates env w creator p st ∧ st.baseFee ≤ feePayment ∧ Listed w creator st ∧
      (distributeFee st creator st.baseFee).Returns env
        (w.saveState env { st with locked := true }) () w₁ ∧
      (recordToken creator p { st with locked := true }).Returns env w₁ (a, s) w₂ ∧
      v = w₂.saveState env { s with locked := false } := by
  -- the gates one by one, then fee and whitelist
  simp only [createToken, returns_bind, returns_requireNotPaused, returns_requireAuth,
    returns_loadUnlockedState, returns_validateTokenParams, returns_throwIf,
    returns_requireWhitelisted_iff, returns_setLocked, returns_attempt] at h
  obtain ⟨_, _, ⟨⟨st', hst', hpaused⟩, rfl⟩, _, _, ⟨hauth, rfl⟩, st, _, ⟨hst, hunlocked, rfl⟩, h⟩ := h
  obtain ⟨_, _, ⟨hvalid, rfl⟩, _, _, ⟨hfee, rfl⟩, _, _, ⟨hlisted, rfl⟩, _, _, ⟨-, rfl⟩, h⟩ := h
  obtain ⟨_, _, ⟨rfl, rfl⟩, o, w₂, hinner, h⟩ := h
  obtain rfl := Option.some.inj (hst'.symm.trans hst)
  -- a failed attempt is handed on as a failure of the call
  rcases o with r | ⟨a', s⟩
  · simp only [returns_bind, returns_fail, and_false, exists_false] at h
  · simp only [returns_bind, returns_setLocked, returns_pure] at h
    obtain ⟨_, _, ⟨rfl, rfl⟩, rfl, rfl⟩ := h
    have hret : (createTokenInner creator p { st' with locked := true }).Returns env _ (a', s) w₂ :=
      hinner
    rw [createTokenInner, returns_bind] at hret
    obtain ⟨_, w₁, hpaid, hrecord⟩ := hret
    exact ⟨st', s, w₁, w₂, ⟨hst, hpaused, hauth, hunlocked, hvalid⟩, not_lt.mp hfee, hlisted, hpaid,
      hrecord, rfl⟩

omit [env.NoReentry] [env.Separate] in
/-- A batch that returns has passed the checks, recorded the tokens and then paid the fee. -/
theorem returns_createTokensBatch {ps : List BatchTokenParams}
    (h : (createTokensBatch creator ps feePayment).Returns env w as v) :
    ∃ st s w₁ w₂ fee, w.state? = some st ∧ st.paused = false ∧ env.authorized creator = true ∧
      st.locked = false ∧ (∀ p ∈ ps, p.Valid) ∧ ps ≠ [] ∧ Listed w creator st ∧
      I128.checkedMul st.baseFee ps.length = some fee ∧
      (recordTokens creator ps [] { st with locked := true }).Returns env
        (w.saveState env { st with locked := true }) (as, s) w₁ ∧
      (distributeFee s creator fee).Returns env w₁ () w₂ ∧
      v = w₂.saveState env { s with locked := false } := by
  -- the gates of the batch, its two counts, its total, fee and whitelist
  simp only [createTokensBatch, returns_bind, returns_requireNotPaused, returns_requireAuth,
    returns_loadUnlockedState, returns_validateBatch, returns_throwIf, returns_okOr,
    returns_requireWhitelisted_iff, returns_setLocked, returns_pure] at h
  obtain ⟨_, _, ⟨⟨st', hst', hpaused⟩, rfl⟩, _, _, ⟨hauth, rfl⟩, st, _, ⟨hst, hunlocked, rfl⟩, h⟩ := h
  obtain ⟨_, _, ⟨hne, rfl⟩, _, _, ⟨-, rfl⟩, _, _, ⟨hvalid, rfl⟩, _, _, ⟨-, rfl⟩, h⟩ := h
  obtain ⟨fee, _, ⟨htotal, rfl⟩, _, _, ⟨-, rfl⟩, _, _, ⟨hlisted, rfl⟩, _, _, ⟨rfl, rfl⟩, h⟩ := h
  obtain ⟨⟨as', s⟩, w₁, hrecord, _, w₂, hpaid, _, _, ⟨-, rfl⟩, rfl, rfl⟩ := h
  obtain rfl := Option.some.inj (hst'.symm.trans hst)
  have hps : ps ≠ [] := by
    rintro rfl
    exact hne rfl
  exact ⟨st', s, w₁, w₂, fee, hst, hpaused, hauth, hunlocked, hvalid, hps, hlisted, htotal, hrecord,
    hpaid, rfl⟩

/-- What a single creation and a batch of one return and leave is the same. -/
theorem returns_agree (h : (createToken creator p feePayment).Returns env w a v)
    (h' : (createTokensBatch creator [p] feePayment).Returns env w as v') :
    as = [a] ∧ v.storage = v'.storage ∧ v.contracts = v'.contracts ∧ v.payments = v'.payments := by
  obtain ⟨st, s, w₁, w₂, hg, -, -, hpaid, hrecord, rfl⟩ := returns_createToken h
  obtain ⟨st', s', v₁, v₂, fee, hst', -, -, -, -, -, -, htotal, hrecords, hpaid', rfl⟩ :=
    returns_createTokensBatch h'
  obtain rfl := Option.some.inj (hg.state.symm.trans hst')
  have hfee : fee = st.baseFee := by
    rw [List.length_singleton, Nat.cast_one, I128.checkedMul, mul_one, I128.checked_eq_some]
      at htotal
    exact htotal.1.symm
  obtain ⟨⟨a', t⟩, hrecord', heq⟩ := returns_recordTokens_singleton.mp hrecords
  obtain ⟨rfl, rfl⟩ := Prod.mk.inj heq
  -- recording the token, before the fee is paid and afterwards
  obtain ⟨w₂', hrecord₁, hlike⟩ := returns_recordToken_after hpaid hrecord'
  obtain ⟨hpair, rfl⟩ := hrecord.unique hrecord₁
  obtain ⟨rfl, rfl⟩ := Prod.mk.inj hpair
  -- paying it, before and after the token is recorded
  have hsame : distributeFee s creator fee = distributeFee st creator st.baseFee := by
    have hs : s = _ := returns_recordToken_snd hrecord
    rw [hs, hfee]
    exact distributeFee_congr rfl rfl
  rw [hsame] at hpaid'
  obtain ⟨v₂', hpaid₁, hlikeFee⟩ := returns_distributeFee_after hrecord' hpaid
  obtain ⟨-, rfl⟩ := hpaid'.unique hpaid₁
  have hend : Like env w₂ v₂ := hlike.symm.trans (like_of_paid hpaid')
  exact ⟨rfl, hend.storage_saveState, hend.contracts,
    (likeFee_of_recorded hrecord).payments.symm.trans hlikeFee.payments⟩

/-! ### A batch and single creations -/

/-- Where a batch stands in `w` with the state `s`, the single creations stand in `v`. -/
structure Stage (env : Env) (creator : Address) (w : World) (s : FactoryState) (v : World) :
    Prop where
  state : v.state? = some { s with locked := false }
  like : Like env w v
  locked : s.locked = true
  paused : s.paused = false
  authorized : env.authorized creator = true
  listed : Listed w creator s

omit [env.NoReentry] [env.Separate] in
theorem Listed.of_lookup (h : Listed w creator s)
    (heq : w.storage.lookup (.whitelist creator) = v.storage.lookup (.whitelist creator)) :
    Listed v creator s := fun hen => heq ▸ h hen

omit [env.NoReentry] [env.Separate] in
theorem Like.lookup {k : DataKey} (h : Like env w v) (hk : .state ≠ k) :
    w.storage.lookup k = v.storage.lookup k := by
  unfold Storage.lookup
  rw [h.persistent, h.inst k hk]

omit [env.NoReentry] [env.Separate] in
theorem Stage.gates (hs : Stage env creator w s v) (hp : p.Valid) :
    Gates env v creator p { s with locked := false } :=
  ⟨hs.state, hs.paused, hs.authorized, rfl, hp⟩

/-- The next single creation fails only where its fee cannot be paid. -/
theorem Stage.failure_createToken (hs : Stage env creator w s v) (hp : p.Valid)
    (hrecord : (recordToken creator p s).Returns env w (a, s') w') (hfee : s.baseFee ≤ feePayment) :
    (createToken creator p feePayment).failure env v =
      (distributeFee s creator s.baseFee).failure env v := by
  have hlisted : Listed v creator { s with locked := false } :=
    hs.listed.of_lookup (hs.like.lookup (by simp))
  have hroom : U32.checkedAdd s.tokenCount 1 ≠ none := by
    intro hfull
    simp only [recordToken, returns_bind, returns_okOr, hfull] at hrecord
    obtain ⟨_, _, -, _, _, -, _, _, -, _, _, -, _, _, ⟨hnone, -⟩, -⟩ := hrecord
    cases hnone
  have hrecorded : (recordToken creator p s).failure env v = none := by
    rw [← hrecord.failure_eq]
    exact (Respects.failure_eq inferInstance hs.like).symm
  rw [(hs.gates hp).failure_createToken, if_neg (not_lt.mpr hfee), if_pos hlisted, if_neg hroom,
    failure_recordToken_locked, hrecorded]
  change ((distributeFee s creator s.baseFee).failure env v <|> none) = _
  rcases (distributeFee s creator s.baseFee).failure env v with _ | f <;> rfl

/-- And where it returns, it makes the token that the batch makes next. -/
theorem Stage.returns_createToken {a' : Address} (hs : Stage env creator w s v)
    (hrecord : (recordToken creator p s).Returns env w (a, s') w')
    (h : (createToken creator p feePayment).Returns env v a' v') :
    a' = a ∧ ∃ x, Like env w' x ∧ v' = x.saveState env { s' with locked := false } := by
  obtain ⟨st, t, w₁, w₂, hg, -, -, hpaid, hrecord', rfl⟩ := Factory.returns_createToken h
  obtain rfl := Option.some.inj (hs.state.symm.trans hg.state)
  have hsame : ({ ({ s with locked := false } : FactoryState) with locked := true } : FactoryState) =
      s := by
    rw [← hs.locked]
  rw [hsame] at hrecord' hpaid
  have hlike : Like env w w₁ := (hs.like.trans (Like.saveState v)).trans (like_of_paid hpaid)
  obtain ⟨x, hx, hlike'⟩ := Respects.returns inferInstance hlike hrecord
  obtain ⟨hpair, rfl⟩ := hrecord'.unique hx
  obtain ⟨rfl, rfl⟩ := Prod.mk.inj hpair
  exact ⟨rfl, w₂, hlike', rfl⟩

omit [env.Separate] in
/-- Then both stand at the token after it. -/
theorem Stage.step {x : World} (hs : Stage env creator w s v)
    (hrecord : (recordToken creator p s).Returns env w (a, s') w') (hx : Like env w' x) :
    Stage env creator w' s' (x.saveState env { s' with locked := false }) := by
  have hs' : s' = _ := returns_recordToken_snd hrecord
  refine ⟨World.state?_saveState, hx.trans (Like.saveState x), ?_, ?_, hs.authorized, ?_⟩
  · rw [hs']
    exact hs.locked
  · rw [hs']
    exact hs.paused
  · rw [hs']
    exact hs.listed.of_lookup ((likeFee_of_recorded hrecord).whitelist creator)

/-- After any number of single creations both stand at the same token. -/
theorem Stage.run {ps rest : List BatchTokenParams} {qs : List (BatchTokenParams × ℤ)}
    {as₀ as as' : List Address} {sₙ : FactoryState} {wₙ : World} (hs : Stage env creator w s v)
    (heach : CreatesEach env creator v qs as' v') (hps : ps = qs.map Prod.fst ++ rest)
    (hrecords : (recordTokens creator ps as₀ s).Returns env w (as, sₙ) wₙ) :
    ∃ w' s', Stage env creator w' s' v' ∧ s' = { s with tokenCount := s'.tokenCount } ∧
      (recordTokens creator rest (as₀ ++ as') s').Returns env w' (as, sₙ) wₙ ∧
      (qs ≠ [] → ∃ x, Like env w' x ∧ v' = x.saveState env { s' with locked := false }) ∧
      (qs = [] → w' = w ∧ s' = s ∧ v' = v) := by
  -- along the creations one by one, with the batch held at the same stage
  induction heach generalizing w s ps as₀ with
  | nil =>
    rw [List.map_nil, List.nil_append] at hps
    refine ⟨w, s, hs, rfl, ?_, fun h => absurd rfl h, fun _ => ⟨rfl, rfl, rfl⟩⟩
    rw [List.append_nil, ← hps]
    exact hrecords
  | @cons v v₁ v' p fee a qs as' first _ ih =>
    rw [List.map_cons, List.cons_append] at hps
    rw [hps, recordTokens, returns_bind] at hrecords
    obtain ⟨⟨b, s₁⟩, w₁, hrecord, hrecords⟩ := hrecords
    obtain ⟨rfl, x, hx, rfl⟩ := hs.returns_createToken hrecord first
    have hs₁ : s₁ = { s with tokenCount := s.tokenCount + 1 } := returns_recordToken_snd hrecord
    obtain ⟨w', s', hstage, hs', hrest, hsaved, hnone⟩ :=
      ih (hs.step hrecord hx) rfl hrecords
    refine ⟨w', s', hstage, ?_, ?_, fun _ => ?_, fun h => absurd h (List.cons_ne_nil _ _)⟩
    · rw [hs', hs₁]
    · rw [List.append_assoc, List.singleton_append] at hrest
      -- only the last creation of all is read off `x`, hence the two cases
      exact hrest
    · by_cases hqs : qs = []
      · obtain ⟨rfl, rfl, rfl⟩ := hnone hqs
        exact ⟨x, hx, rfl⟩
      · exact hsaved hqs

/-- **A batch leaves what creating its tokens one after the other leaves.** -/
theorem each_agrees {ps : List BatchTokenParams}
    (h : (createTokensBatch creator ps feePayment).Returns env w as w') :
    EachAgrees env w creator ps as w' := by
  obtain ⟨st, s, w₁, w₂, fee, hst, hpaused, hauth, hunlocked, hvalid, hne, hlisted, -, hrecords, hpaid,
    rfl⟩ := returns_createTokensBatch h
  -- the batch differs from the single creations by its lock, taken once
  have hstart : Stage env creator (w.saveState env { st with locked := true })
      { st with locked := true } w := by
    refine ⟨?_, (Like.saveState w).symm, rfl, hpaused, hauth, ?_⟩
    · rw [hst]
      rw [← hunlocked]
    · exact Listed.of_lookup (s := { st with locked := true }) hlisted
        ((Like.saveState w).lookup (by simp))
  constructor
  case done =>
    intro qs as' v hqs heach
    have hps : ps = qs.map Prod.fst ++ [] := by rw [hqs, List.append_nil]
    obtain ⟨w', s', hstage, -, hrest, hsaved, -⟩ := hstart.run heach hps hrecords
    rw [recordTokens, returns_pure] at hrest
    obtain ⟨hpair, rfl⟩ := hrest
    obtain ⟨rfl, rfl⟩ := Prod.mk.inj hpair
    have hqs' : qs ≠ [] := by
      rintro rfl
      exact hne hqs.symm
    obtain ⟨x, hx, rfl⟩ := hsaved hqs'
    have hend : Like env x w₂ := hx.symm.trans (like_of_paid hpaid)
    exact ⟨rfl, hend.storage_saveState, hend.contracts⟩
  case next =>
    intro qs p rest as' v fee' st' hps heach hst' hfee
    obtain rfl := Option.some.inj (hst.symm.trans hst')
    obtain ⟨w', s', hstage, hs', hrest, -, -⟩ := hstart.run heach hps hrecords
    rw [recordTokens, returns_bind] at hrest
    obtain ⟨⟨b, s₁⟩, w₁', hrecord, -⟩ := hrest
    have hp : p.Valid := hvalid p (by rw [hps]; exact List.mem_append_right _ List.mem_cons_self)
    have hbase : s'.baseFee = st.baseFee := by rw [hs']
    have hsame : distributeFee s' creator st.baseFee = distributeFee st creator st.baseFee := by
      rw [hs']
      exact distributeFee_congr rfl rfl
    rw [hstage.failure_createToken hp hrecord (hbase ▸ hfee), hbase, hsame]

/-- **Single and batch creation**: in every state, creating one token alone and in a batch agree if and
only if no two faults diverge, and every successful batch leaves what creating its tokens one after the
other leaves. -/
theorem creation_agrees
    (hbase : ∀ st, w.state? = some st → I128.MIN ≤ st.baseFee ∧ st.baseFee ≤ I128.MAX) :
    (CreationsAgree env w creator p feePayment ↔ ¬ Diverges env w creator p feePayment) ∧
      ∀ ps as w', (createTokensBatch creator ps feePayment).Returns env w as w' →
        EachAgrees env w creator ps as w' := by
  refine ⟨⟨fun hagree => (failure_eq_iff hbase).mp hagree.failure, fun hno => ?_⟩,
    fun ps as w' h => each_agrees h⟩
  exact ⟨(failure_eq_iff hbase).mpr hno, fun a as v v' h h' => returns_agree h h'⟩

end

/-! ### Samples -/

namespace SampleCreation

/-- The parameters of another token, of which nothing is minted. -/
def second : BatchTokenParams := { SampleRun.params with salt := 51, initialSupply := 0 }

/-- The world of the sample run with a full token count. -/
def full : World := SampleRun.world₀.saveState (permissiveEnv 1 ⟨1⟩)
  { SampleRun.constructorArgs.initialState with tokenCount := U32.MAX }

/-- Nobody holds the fee token. -/
def poorEnv : Env where
  sequence := 30
  timestamp := 0
  minPersistentTtl := 4096
  authorized a := a = ⟨5⟩
  host w c := if c.isTransfer then none else some (permissiveReply c, w.storage)

instance : poorEnv.NoReentry where
  storage_eq {w c r s} h := by
    unfold poorEnv at h
    dsimp only at h
    split_ifs at h
    exact (congrArg Prod.snd (Option.some.inj h)).symm

end SampleCreation

/-- A creation alone, and two in a batch of which the second is the cheaper one. -/
theorem creation_agrees_sampleRun :
    CreationsAgree (permissiveEnv 10 ⟨5⟩) SampleRun.world₀ ⟨5⟩ SampleRun.params 200 ∧
      EachAgrees (permissiveEnv 10 ⟨5⟩) SampleRun.world₀ ⟨5⟩
        [SampleRun.params, SampleCreation.second] [⟨50⟩, ⟨51⟩]
        ((createTokensBatch ⟨5⟩ [SampleRun.params, SampleCreation.second] 200).commit
          (permissiveEnv 10 ⟨5⟩) SampleRun.world₀) := by
  have hstate {st : FactoryState} (h : SampleRun.world₀.state? = some st) :
      st = SampleRun.constructorArgs.initialState := (Option.some.inj h).symm
  have hbase (st : FactoryState) (h : SampleRun.world₀.state? = some st) :
      I128.MIN ≤ st.baseFee ∧ st.baseFee ≤ I128.MAX := by
    rw [hstate h]
    decide
  obtain ⟨hiff, hbatch⟩ := @creation_agrees (permissiveEnv 10 ⟨5⟩) SampleRun.world₀ ⟨5⟩
    SampleRun.params 200 inferInstance inferInstance hbase
  -- neither kind of divergence is possible: there is room, and the fee is paid
  refine ⟨hiff.mpr fun hdiv => ?_, hbatch _ _ _ (returns_commit rfl)⟩
  cases hdiv with
  | full hg hfull _ =>
    obtain rfl := hstate hg.state
    revert hfull
    decide
  | order hg _ _ _ hfee _ _ =>
    obtain rfl := hstate hg.state
    cases hfee

/-- With a full token count a single creation reports the low fee and a batch the overflow; after the
token `50` has been created, a caller who cannot pay the fee learns that from a single creation with the
same salt, and a batch traps. -/
theorem creation_diverges_samples :
    ((createToken ⟨5⟩ SampleRun.params 0).failure (permissiveEnv 10 ⟨5⟩) SampleCreation.full =
        some (some .insufficientFee) ∧
      (createTokensBatch ⟨5⟩ [SampleRun.params] 0).failure (permissiveEnv 10 ⟨5⟩)
        SampleCreation.full = some (some .arithmeticOverflow)) ∧
    ((createToken ⟨5⟩ SampleRun.params 100).failure SampleCreation.poorEnv SampleRun.world₁ =
        some (some .treasuryTransferFailed) ∧
      (createTokensBatch ⟨5⟩ [SampleRun.params] 100).failure SampleCreation.poorEnv
        SampleRun.world₁ = some none) ∧
    ¬ CreationsAgree (permissiveEnv 10 ⟨5⟩) SampleCreation.full ⟨5⟩ SampleRun.params 0 ∧
    ¬ CreationsAgree SampleCreation.poorEnv SampleRun.world₁ ⟨5⟩ SampleRun.params 100 := by
  -- each of the four calls is evaluated once
  have hfull : (createToken ⟨5⟩ SampleRun.params 0).failure (permissiveEnv 10 ⟨5⟩)
      SampleCreation.full = some (some .insufficientFee) := rfl
  have hfull' : (createTokensBatch ⟨5⟩ [SampleRun.params] 0).failure (permissiveEnv 10 ⟨5⟩)
      SampleCreation.full = some (some .arithmeticOverflow) := rfl
  have hpoor : (createToken ⟨5⟩ SampleRun.params 100).failure SampleCreation.poorEnv
      SampleRun.world₁ = some (some .treasuryTransferFailed) := rfl
  have hpoor' : (createTokensBatch ⟨5⟩ [SampleRun.params] 100).failure SampleCreation.poorEnv
      SampleRun.world₁ = some none := rfl
  refine ⟨⟨hfull, hfull'⟩, ⟨hpoor, hpoor'⟩, fun hagree => ?_, fun hagree => ?_⟩
  · have hsame := hagree.failure
    rw [hfull, hfull'] at hsame
    cases hsame
  · have hsame := hagree.failure
    rw [hpoor, hpoor'] at hsame
    cases hsame

end StellarForge.Factory
