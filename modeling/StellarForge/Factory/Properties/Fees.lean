import StellarForge.Factory.Properties.Allocation
import StellarForge.Factory.Properties.Calls

/-!
# Fees are conserved

`fee_conservation`: when `distribute_fee` returns, the successful transfers from the payer add up to
the fee; under a split every recipient has been offered its share of the largest-remainder allocation,
and the shares of the failed transfers have gone to the treasury.  So each of the four entrypoints
that charge a fee takes exactly that fee from its caller.
-/

namespace StellarForge.Factory

open Soroban Contract Collections Transition FactoryModel Apportionment

variable {env : Env} {w w' : World} {st : FactoryState} {m : FactoryModel}
  {token feeToken payer : Address} {a : ℤ} {u : Unit} {e : Error}

/-! ### What a list of calls takes from a payer -/

/-- What a call takes of the token `token` from `payer`. -/
def transferred (token payer : Address) : ExtCall × Bool → ℤ
  | (.tryTransfer t p _ amount, true) => if t = token ∧ p = payer then amount else 0
  | _ => 0

/-- The sum of the successful transfers of `token` from `payer`. -/
def debited (token payer : Address) (calls : List (ExtCall × Bool)) : ℤ :=
  (calls.map (transferred token payer)).sum

@[simp] theorem debited_append {cs cs' : List (ExtCall × Bool)} :
    debited token payer (cs ++ cs') = debited token payer cs + debited token payer cs' := by
  simp [debited]

@[simp] theorem debited_singleton {recipient : Address} {ok : Bool} :
    debited token payer [(.tryTransfer token payer recipient a, ok)] = if ok then a else 0 := by
  cases ok <;> simp [debited, transferred]

theorem debited_eq_zero {cs : List (ExtCall × Bool)} (h : ∀ c ∈ cs, c.1.NotTransfer) :
    debited token payer cs = 0 := by
  refine List.sum_eq_zero fun x hx => ?_
  obtain ⟨⟨c, ok⟩, hc, rfl⟩ := List.mem_map.mp hx
  have := h _ hc
  cases c <;> first | rfl | exact this.elim

/-! ### Pass 3 -/

/-- A share that was offered to a recipient, with the success of its transfer, as a call. -/
def offerCall (feeToken payer : Address) (o : (Address × ℤ) × Bool) : ExtCall × Bool :=
  (.tryTransfer feeToken payer o.1.1 o.1.2, o.2)

/-- The sum of the offers whose transfer succeeded, or failed. -/
def offered (ok : Bool) (offers : List ((Address × ℤ) × Bool)) : ℤ :=
  ((offers.filter fun o => o.2 = ok).map fun o => o.1.2).sum

theorem offered_cons {ok : Bool} {o : (Address × ℤ) × Bool}
    {offers : List ((Address × ℤ) × Bool)} :
    offered ok (o :: offers) = (if o.2 = ok then o.1.2 else 0) + offered ok offers := by
  unfold offered
  rw [List.filter_cons]
  split_ifs <;> simp_all

theorem offered_add_offered {offers : List ((Address × ℤ) × Bool)} :
    offered true offers + offered false offers = ((offers.map Prod.fst).map Prod.snd).sum := by
  induction offers with
  | nil => rfl
  | cons o offers ih =>
    rw [offered_cons, offered_cons, List.map_cons, List.map_cons, List.sum_cons, ← ih]
    cases o.2 <;> simp <;> omega

theorem offered_nonneg {ok : Bool} {offers : List ((Address × ℤ) × Bool)}
    (h : ∀ s ∈ offers.map Prod.fst, 0 < s.2) : 0 ≤ offered ok offers := by
  refine List.sum_nonneg fun x hx => ?_
  obtain ⟨o, ho, rfl⟩ := List.mem_map.mp hx
  exact (h _ (List.mem_map_of_mem (List.mem_filter.mp ho).1)).le

theorem debited_offers {offers : List ((Address × ℤ) × Bool)} :
    debited feeToken payer (offers.map (offerCall feeToken payer)) = offered true offers := by
  induction offers with
  | nil => rfl
  | cons o offers ih =>
    rw [List.map_cons, ← List.singleton_append, debited_append, ih, offered_cons, offerCall,
      debited_singleton]

section

variable [env.NoReentry]

/-- Every positive share is offered, and what fails is added up. -/
theorem returns_payShares {shares : List (Address × ℤ)} {extra out : ℤ}
    (h : (payShares feeToken payer shares extra).Returns env w out w') :
    ∃ offers, offers.map Prod.fst = shares.filter (fun s => 0 < s.2) ∧
      w'.calls = w.calls ++ offers.map (offerCall feeToken payer) ∧
      out = extra + offered false offers := by
  induction shares generalizing w extra with
  | nil =>
    rw [payShares, returns_pure] at h
    obtain ⟨rfl, rfl⟩ := h
    exact ⟨[], rfl, (List.append_nil _).symm, (Int.add_zero _).symm⟩
  | cons s shares ih =>
    simp only [payShares, returns_ite, returns_bind, returns_tryTransfer, returns_okOr,
      returns_publish] at h
    -- a share is paid, refused by the token, or skipped because it is not positive
    rcases h with ⟨hpos, ok, w₁, ⟨hok, rfl⟩, ⟨htrue, h⟩ | ⟨hfalse, extra', _, ⟨hextra, rfl⟩, _, _, rfl, h⟩⟩ |
      ⟨hpos, h⟩
    · obtain ⟨offers, hfst, hcalls, rfl⟩ := ih h
      refine ⟨(s, true) :: offers, ?_, ?_, ?_⟩
      · simp [hfst, hpos]
      · rw [hcalls, htrue]
        simp [offerCall]
      · simp [offered_cons]
    · obtain ⟨offers, hfst, hcalls, rfl⟩ := ih h
      obtain ⟨rfl, -⟩ := I128.checked_eq_some.mp hextra
      refine ⟨(s, false) :: offers, ?_, ?_, ?_⟩
      · simp [hfst, hpos]
      · rw [hcalls, Bool.eq_false_iff.mpr hfalse]
        simp [offerCall]
      · simp [offered_cons, Int.add_assoc]
    · obtain ⟨offers, hfst, hcalls, rfl⟩ := ih h
      exact ⟨offers, by simp [hfst, hpos], hcalls, rfl⟩

/-- The sum of the failed shares does not overflow. -/
theorem not_throws_payShares {shares : List (Address × ℤ)} {extra : ℤ} (hextra : 0 ≤ extra)
    (hmax : extra + ((shares.filter (fun s => 0 < s.2)).map Prod.snd).sum ≤ I128.MAX) :
    ¬ (payShares feeToken payer shares extra).Throws env w e w' := by
  induction shares generalizing w extra with
  | nil => simp [payShares]
  | cons s shares ih =>
    -- the shares still to come only add to the extra, so the bound passes on to them
    have hrest : 0 ≤ ((shares.filter (fun s => 0 < s.2)).map Prod.snd).sum := by
      refine List.sum_nonneg fun x hx => ?_
      obtain ⟨s', hs', rfl⟩ := List.mem_map.mp hx
      have := (List.mem_filter.mp hs').2
      simp only [decide_eq_true_eq] at this
      exact this.le
    intro h
    simp only [payShares, throws_ite, throws_bind, throws_tryTransfer, returns_tryTransfer,
      throws_okOr, returns_okOr, throws_publish, returns_publish, false_or] at h
    rcases h with ⟨hpos, ok, _, ⟨-, rfl⟩, ⟨-, h⟩ |
      ⟨-, ⟨hnone, -⟩ | ⟨extra', _, ⟨hextra', rfl⟩, _, _, rfl, h⟩⟩⟩ | ⟨hpos, h⟩
    all_goals simp only [List.filter_cons, hpos, decide_true, decide_false, if_true, List.map_cons,
      List.sum_cons] at hmax
    · exact ih hextra (by omega) h
    · -- a failed addition would be past one of the two ends
      rcases I128.checked_eq_none.mp hnone with hlt | hgt
      · have := I128.MIN_lt_zero
        omega
      · omega
    · obtain ⟨rfl, -⟩ := I128.checked_eq_some.mp hextra'
      exact ih (by omega) (by omega) h
    · exact ih hextra (by simpa using hmax) h

theorem returns_payTreasury (h : (payTreasury st payer a).Returns env w u w') :
    w'.calls = w.calls ++ [(.tryTransfer st.feeToken payer st.treasury a, true)] := by
  simp only [payTreasury, returns_bind, returns_tryTransfer, returns_throwIf] at h
  obtain ⟨ok, _, ⟨-, rfl⟩, hok, rfl⟩ := h
  rw [World.calls_logCall, Bool.not_eq_false _ |>.mp hok]

theorem throws_payTreasury (h : (payTreasury st payer a).Throws env w e w') :
    e = .treasuryTransferFailed ∧
      w'.calls = w.calls ++ [(.tryTransfer st.feeToken payer st.treasury a, false)] := by
  simp only [payTreasury, throws_bind, throws_tryTransfer, returns_tryTransfer, throws_throwIf,
    false_or] at h
  obtain ⟨ok, _, ⟨-, rfl⟩, rfl, rfl, rfl⟩ := h
  exact ⟨rfl, World.calls_logCall⟩

/-! ### The fee as a whole -/

/-- The fee `a` has been divided among the recipients of a split: each is offered its share of an
apportionment by basis points, and the failed shares go to the treasury. -/
def PaidBySplit (st : FactoryState) (payer : Address) (a : ℤ) (splits : FeeSplit)
    (new : List (ExtCall × Bool)) : Prop :=
  ∃ shares offers, IsApportionment 10000 a (splits.entries.map Prod.snd) shares ∧
    offers.map Prod.fst = ((splits.entries.map Prod.fst).zip shares).filter (fun s => 0 < s.2) ∧
    new = offers.map (offerCall st.feeToken payer) ++
      if offered false offers = 0 then []
      else [(.tryTransfer st.feeToken payer st.treasury (offered false offers), true)]

/-- The transfers that have been made for the fee `a`, given the stored split. -/
def Paid (st : FactoryState) (payer : Address) (a : ℤ) (new : List (ExtCall × Bool)) :
    Option FeeSplit → Prop
  | some splits => PaidBySplit st payer a splits new
  | none => new = [(.tryTransfer st.feeToken payer st.treasury a, true)]

/-- The sum of the positive shares is the sum of the shares. -/
theorem sum_filter_pos {shares : List (Address × ℤ)} (h : ∀ s ∈ shares, 0 ≤ s.2) :
    ((shares.filter (fun s => 0 < s.2)).map Prod.snd).sum = (shares.map Prod.snd).sum := by
  induction shares with
  | nil => rfl
  | cons s shares ih =>
    have ih := ih fun x hx => h x (List.mem_cons_of_mem _ hx)
    have hs := h s (List.mem_cons_self ..)
    rw [List.filter_cons, List.map_cons, List.sum_cons]
    split_ifs with hpos
    · rw [List.map_cons, List.sum_cons, ih]
    · simp only [decide_eq_true_eq] at hpos
      omega

/-- The offers of an apportionment add up to the amount. -/
theorem sum_offers {shares : List ℤ} {splits : FeeSplit} (ha : 0 ≤ a)
    (h : IsApportionment 10000 a (splits.entries.map Prod.snd) shares) :
    ((((splits.entries.map Prod.fst).zip shares).filter (fun s => 0 < s.2)).map Prod.snd).sum = a := by
  have hlen : shares.length ≤ (splits.entries.map Prod.fst).length := by
    rw [← h.quota.length_eq, List.length_map, List.length_map]
  rw [sum_filter_pos, List.map_snd_zip hlen, h.sum_eq]
  intro s hs
  exact h.nonneg (by decide) ha s.2 (List.of_mem_zip (show (s.1, s.2) ∈ _ from hs)).2

/-- **A fee that a split has distributed.** -/
theorem returns_distributeSplit {splits : FeeSplit} (hs : splits.Valid) (ha : 0 ≤ a)
    (h : (distributeSplit st payer a splits).Returns env w u w') : ∃ new,
    w'.calls = w.calls ++ new ∧ debited st.feeToken payer new = a ∧ PaidBySplit st payer a splits new := by
  simp only [distributeSplit, returns_bind, returns_okOr, returns_ite, returns_pure] at h
  obtain ⟨alloc, _, ⟨halloc, rfl⟩, remainder, _, ⟨hremainder, rfl⟩, extra, w₁, hpay, h⟩ := h
  obtain ⟨rfl, hentries⟩ := allocate_eq_some ha halloc
  obtain ⟨rfl, -, hmax⟩ := I128.checked_eq_some.mp hremainder
  -- the shares are floors plus the remainder, and add up to the amount
  obtain ⟨shares, happ, haward⟩ := awardRemainder_allocation ha hs.sum_eq hmax hentries
  rw [haward] at hpay
  obtain ⟨offers, hfst, hcalls, rfl⟩ := returns_payShares hpay
  have hsum : offered true offers + offered false offers = a := by
    rw [offered_add_offered, hfst, ← sum_offers ha happ]
    rfl
  rw [Int.zero_add] at h
  rcases h with ⟨hpos, h⟩ | ⟨hzero, -, rfl⟩
  · refine ⟨_, ?_, ?_, shares, offers, happ, hfst, rfl⟩
    · rw [returns_payTreasury h, hcalls, List.append_assoc, if_neg hpos.ne']
    · rw [if_neg hpos.ne', debited_append, debited_offers, debited_singleton, if_pos rfl, hsum]
  · -- nothing was refused, so nothing is left for the treasury
    have hnonneg : 0 ≤ offered false offers := offered_nonneg fun s hs => by
      rw [hfst] at hs
      exact of_decide_eq_true (List.mem_filter.mp hs).2
    have hzero : offered false offers = 0 := by omega
    refine ⟨_, ?_, ?_, shares, offers, happ, hfst, rfl⟩
    · rw [hcalls, if_pos hzero, List.append_nil]
    · rw [if_pos hzero, List.append_nil, debited_offers]
      omega

/-- A split fails only when a product overflows or the treasury cannot be paid. -/
theorem throws_distributeSplit {splits : FeeSplit} (hs : splits.Valid) (ha : 0 ≤ a)
    (hamax : a ≤ I128.MAX) (h : (distributeSplit st payer a splits).Throws env w e w') :
    (e = .arithmeticOverflow ∧ ∃ x ∈ splits.entries, I128.checkedMul a x.2 = none) ∨
    e = .treasuryTransferFailed ∧ ∃ amount new,
      w'.calls = w.calls ++ new ++ [(.tryTransfer st.feeToken payer st.treasury amount, false)] := by
  simp only [distributeSplit, throws_bind, throws_okOr, returns_okOr, throws_ite, throws_pure,
    and_false, or_false] at h
  rcases h with ⟨halloc, rfl, rfl⟩ | ⟨alloc, _, ⟨halloc, rfl⟩, h⟩
  · exact .inl ⟨rfl, allocate_eq_none ha hs.sum_eq hamax halloc⟩
  obtain ⟨rfl, hentries⟩ := allocate_eq_some ha halloc
  have hws : (((splits.entries.map Prod.snd).sum : ℕ) : ℤ) = 10000 := by rw [hs.sum_eq]; rfl
  have hfloors : 0 ≤ (Allocation.of a splits.entries).totalFloor := List.sum_nonneg fun x hx => by
    obtain ⟨_, -, rfl⟩ := List.mem_map.mp hx
    exact share_nonneg (by decide) ha
  -- floors do not exceed the amount, so the subtraction cannot fail
  have hremnonneg : 0 ≤ a - (Allocation.of a splits.entries).totalFloor := by
    have := remainder_nonneg (a := a) (by decide) hws
    rw [List.map_map] at this
    exact this
  have hmin := I128.MIN_lt_zero
  rcases h with ⟨hnone, -⟩ | ⟨remainder, _, ⟨hremainder, rfl⟩, h⟩
  · rcases I128.checked_eq_none.mp hnone with hlt | hgt <;> omega
  obtain ⟨rfl, -, hmax⟩ := I128.checked_eq_some.mp hremainder
  obtain ⟨shares, happ, haward⟩ := awardRemainder_allocation ha hs.sum_eq hmax hentries
  rw [haward] at h
  rcases h with hpay | ⟨extra, w₁, hpay, ⟨-, h⟩⟩
  · -- paying the shares cannot overflow, since together they are the amount
    refine absurd hpay (not_throws_payShares (le_refl 0) ?_)
    have hsum := sum_offers ha happ
    rw [Int.zero_add]
    exact hsum.trans_le hamax
  · obtain ⟨offers, -, hcalls, -⟩ := returns_payShares hpay
    obtain ⟨rfl, hcalls'⟩ := throws_payTreasury h
    exact .inr ⟨rfl, _, _, hcalls'.trans (by rw [hcalls])⟩

/-- **`distribute_fee` is exact**, and fails only on overflow or when the treasury cannot be paid. -/
theorem distributeFee_spec (hs : ∀ splits, w.storage.inst .split = some splits → splits.Valid)
    (ha : 0 ≤ a) :
    (∀ u w', (distributeFee st payer a).Returns env w u w' → ∃ new,
      w'.calls = w.calls ++ new ∧ debited st.feeToken payer new = a ∧
        Paid st payer a new (w.storage.inst .split)) ∧
    (a ≤ I128.MAX → ∀ e w', (distributeFee st payer a).Throws env w e w' →
      (e = .arithmeticOverflow ∧ ∃ splits, w.storage.inst .split = some splits ∧
        ∃ x ∈ splits.entries, I128.checkedMul a x.2 = none) ∨
      e = .treasuryTransferFailed ∧ ∃ amount new, w'.calls =
        w.calls ++ new ++ [(.tryTransfer st.feeToken payer st.treasury amount, false)]) := by
  -- without a split the whole amount goes to the treasury
  rcases hsplit : w.storage.inst .split with _ | splits
  · refine ⟨fun u w' h => ?_, fun _ e w' h => ?_⟩
    · simp only [distributeFee, returns_bind, returns_getInst] at h
      obtain ⟨_, _, ⟨rfl, rfl⟩, h⟩ := h
      rw [hsplit] at h
      exact ⟨_, returns_payTreasury h, by rw [debited_singleton, if_pos rfl], rfl⟩
    · simp only [distributeFee, throws_bind, throws_getInst, returns_getInst, false_or] at h
      obtain ⟨_, _, ⟨rfl, rfl⟩, h⟩ := h
      rw [hsplit] at h
      obtain ⟨rfl, hcalls⟩ := throws_payTreasury h
      exact .inr ⟨rfl, a, [], by rw [hcalls, List.append_nil]⟩
  · -- with one, the shares are paid first and the treasury takes what is left
    have hvalid := hs splits hsplit
    refine ⟨fun u w' h => ?_, fun hamax e w' h => ?_⟩
    · simp only [distributeFee, returns_bind, returns_getInst] at h
      obtain ⟨_, _, ⟨rfl, rfl⟩, h⟩ := h
      rw [hsplit] at h
      exact returns_distributeSplit hvalid ha h
    · simp only [distributeFee, throws_bind, throws_getInst, returns_getInst, false_or] at h
      obtain ⟨_, _, ⟨rfl, rfl⟩, h⟩ := h
      rw [hsplit] at h
      rcases throws_distributeSplit hvalid ha hamax h with ⟨he, hx⟩ | h
      · exact .inl ⟨he, splits, rfl, hx⟩
      · exact .inr h

end

/-! ### The entrypoints that charge a fee -/

/-- Between `w` and `w'` the fee `due` has been distributed once, from `payer`, and nothing else has
been transferred. -/
def Charges (env : Env) (w : World) (m : FactoryModel) (payer : Address) (due : ℤ) (w' : World) :
    Prop :=
  ∃ w₁ w₂ st u, CallsOnly ExtCall.NotTransfer w w₁ ∧
    w₁.storage.inst .split = m.split.map Subtype.val ∧ st.feeToken = m.feeToken ∧
    (distributeFee st payer due).Returns env w₁ u w₂ ∧ CallsOnly ExtCall.NotTransfer w₂ w'

/-- A fee that is charged is debited exactly. -/
theorem Charges.debited [env.NoReentry] {due : ℤ} (h : Charges env w m payer due w') (hdue : 0 ≤ due) :
    ∃ new, w'.calls = w.calls ++ new ∧ Factory.debited m.feeToken payer new = due := by
  obtain ⟨w₁, w₂, st, u, ⟨before, hbefore, hb⟩, hsplit, htoken, hfee, ⟨after, hafter, ha⟩⟩ := h
  have hvalid : ∀ splits, w₁.storage.inst .split = some splits → splits.Valid := by
    intro splits hs
    obtain ⟨splits', -, rfl⟩ := Option.map_eq_some_iff.mp (hsplit.symm.trans hs)
    exact splits'.property
  obtain ⟨new, hnew, hdebit, -⟩ := (distributeFee_spec hvalid hdue).1 u w₂ hfee
  refine ⟨before ++ new ++ after, ?_, ?_⟩
  · simp only [hafter, hnew, hbefore, List.append_assoc]
  · rw [debited_append, debited_append, debited_eq_zero hb, debited_eq_zero ha, ← htoken, hdebit,
      Int.zero_add, Int.add_zero]

namespace Represents

/-- What `create_token` charges. -/
theorem charges_createToken {creator address : Address} {p : BatchTokenParams} {feePayment : ℤ}
    (hw : Represents w m)
    (h : (Factory.createToken creator p feePayment).Returns env w address w') :
    Charges env w m creator m.baseFee w' := by
  simp only [Factory.createToken, returns_bind, returns_requireNotPaused, returns_requireAuth,
    returns_loadUnlockedState, returns_validateTokenParams, returns_throwIf, returns_setLocked,
    returns_attempt] at h
  obtain ⟨_, _, ⟨-, rfl⟩, _, _, ⟨-, rfl⟩, st, _, ⟨hst, -, rfl⟩, h⟩ := h
  obtain ⟨_, _, ⟨-, rfl⟩, _, _, ⟨-, rfl⟩, _, _, hwl, _, _, ⟨-, rfl⟩, h⟩ := h
  obtain ⟨_, _, ⟨rfl, rfl⟩, o, w₁, hrun, h⟩ := h
  obtain rfl := hw.state_eq hst
  obtain ⟨rfl, -⟩ := Holds.requireWhitelisted hw hwl
  -- a failed attempt would have failed the call
  rcases o with e | ⟨address, s⟩
  · simp at h
  have hrun : (createTokenInner creator p { m.state with locked := true }).Returns env _ _ w₁ := hrun
  simp only [createTokenInner, returns_bind] at hrun
  obtain ⟨_, w₂, hfees, hrec⟩ := hrun
  simp only [returns_bind, returns_setLocked, returns_pure] at h
  obtain ⟨_, _, ⟨rfl, rfl⟩, rfl, rfl⟩ := h
  exact ⟨_, _, _, _, .of_eq World.calls_saveState, (Holds.saveState hw).inst .split, rfl, hfees,
    .trans (CallsOnly.of_returns hrec) (.of_eq World.calls_saveState)⟩

/-- What `create_tokens_batch` charges: the fee for each of its tokens. -/
theorem charges_createTokensBatch [env.NoReentry] {creator : Address}
    {tokens : List BatchTokenParams} {feePayment : ℤ} {addresses : List Address} (hw : Represents w m)
    (h : (Factory.createTokensBatch creator tokens feePayment).Returns env w addresses w') :
    Charges env w m creator (m.baseFee * tokens.length) w' := by
  simp only [Factory.createTokensBatch, returns_bind, returns_requireNotPaused,
    returns_requireAuth, returns_loadUnlockedState, returns_validateBatch, returns_throwIf,
    returns_setLocked, returns_okOr, I128.checkedMul, I128.checked_eq_some, returns_pure] at h
  obtain ⟨_, _, ⟨-, rfl⟩, _, _, ⟨-, rfl⟩, st, _, ⟨hst, -, rfl⟩, h⟩ := h
  obtain ⟨_, _, ⟨-, rfl⟩, _, _, ⟨-, rfl⟩, _, _, ⟨hps, rfl⟩, _, _, ⟨-, rfl⟩, h⟩ := h
  obtain ⟨totalFee, _, ⟨⟨rfl, -⟩, rfl⟩, _, _, ⟨-, rfl⟩, _, _, hwl, h⟩ := h
  obtain ⟨_, _, ⟨rfl, rfl⟩, r, w₁, hrec, _, w₂, hfees, _, _, ⟨rfl, rfl⟩, -, rfl⟩ := h
  obtain rfl := hw.state_eq hst
  obtain ⟨rfl, -⟩ := Holds.requireWhitelisted hw hwl
  have hlocked : Holds (w.saveState env { m.state with locked := true }) m
    { m.state with locked := true } := Holds.saveState hw
  obtain ⟨new, m', -, hm', hw₁, hs⟩ := hlocked.recordTokens hps rfl rfl hrec
  obtain ⟨_, rfl⟩ := createAll_state hm'
  exact ⟨_, _, _, _, .trans (.of_eq World.calls_saveState) (CallsOnly.of_returns hrec),
    hw₁.inst .split, congrArg FactoryState.feeToken hs, hfees, .of_eq World.calls_saveState⟩

/-- What `set_metadata` charges. -/
theorem charges_setMetadata {address admin : Address} {uri : Bytes} {feePayment : ℤ}
    (hw : Represents w m)
    (h : (Factory.setMetadata address admin uri feePayment).Returns env w u w') :
    Charges env w m admin m.metadataFee w' := by
  simp only [Factory.setMetadata, returns_bind, returns_requireNotPaused, returns_requireAuth,
    returns_loadUnlockedState, returns_throwIf, returns_setLocked, returns_okOr,
    U32.checkedAdd_eq_some, returns_migrateAddrKeyed, returns_setPersistent, returns_publish] at h
  obtain ⟨_, _, ⟨-, rfl⟩, _, _, ⟨-, rfl⟩, st, _, ⟨hst, -, rfl⟩, h⟩ := h
  obtain ⟨_, _, ⟨-, rfl⟩, _, _, huri, creator, w₁, hcreator, _, _, ⟨-, rfl⟩, h⟩ := h
  obtain ⟨frozen, w₂, hfrozen, _, _, ⟨-, rfl⟩, version, _, ⟨-, rfl⟩, h⟩ := h
  obtain ⟨_, _, ⟨-, rfl⟩, _, _, ⟨rfl, rfl⟩, _, w₃, hfees, h⟩ := h
  obtain ⟨_, _, ⟨-, rfl⟩, _, _, rfl, _, _, rfl, _, _, ⟨rfl, rfl⟩, rfl⟩ := h
  -- the state and the URI are known, so the calls before the fee can be told apart
  obtain rfl := hw.state_eq hst
  obtain rfl := returns_validateMetadataUri huri
  obtain ⟨hw₁, t, ht, -⟩ := Holds.tokenCreator hw hcreator
  obtain ⟨hw₂, -⟩ := hw₁.metadataFrozen ht hfrozen
  have hw₃ : Holds (w₂.migrateAddrKeyed env (.metadataVersion address)) m m.state :=
    hw₂.migrateAddrKeyed rfl
  refine ⟨_, _, _, _, ?_, hw₃.saveState.inst .split, rfl, hfees, .of_eq ?_⟩
  · -- reading the creator and the flag may move entries, but it calls no contract
    refine .trans hcreator.rel (.trans hfrozen.rel (.of_eq ?_))
    have hne : DataKey.state ≠ .metadataVersion address := DataKey.Other.ne
    rw [World.calls_saveState, (Own.migrateAddrKeyed hne).1]
  · rw [World.calls_publish, World.calls_saveState, World.calls_setPersistent,
      World.calls_setPersistent]

/-- What `mint_tokens` charges. -/
theorem charges_mintTokens {address admin recipient : Address} {amount feePayment : ℤ}
    (hw : Represents w m)
    (h : (Factory.mintTokens address admin recipient amount feePayment).Returns env w u w') :
    Charges env w m admin m.baseFee w' := by
  simp only [Factory.mintTokens, returns_bind, returns_requireNotPaused, returns_requireAuth,
    returns_loadUnlockedState, returns_throwIf, returns_setLocked, returns_publish] at h
  obtain ⟨_, _, ⟨-, rfl⟩, _, _, ⟨-, rfl⟩, _, _, ⟨-, rfl⟩, h⟩ := h
  obtain ⟨st, _, ⟨hst, -, rfl⟩, _, _, ⟨-, rfl⟩, ⟨i, info⟩, w₁, hreg, h⟩ := h
  obtain ⟨creator, w₂, hcreator, _, _, ⟨-, rfl⟩, _, w₃, htrack, h⟩ := h
  obtain ⟨_, _, ⟨rfl, rfl⟩, _, w₄, hfees, _, w₅, hmint, _, _, ⟨rfl, rfl⟩, rfl⟩ := h
  obtain rfl := hw.state_eq hst
  obtain ⟨hw₁, t, ht, -, rfl⟩ := Holds.registeredToken hw hreg
  obtain ⟨hw₂, -⟩ := hw₁.tokenCreator hcreator
  obtain ⟨t', -, hw₃⟩ := hw₂.trackMint ht htrack
  exact ⟨_, _, _, _, .trans hreg.rel (.trans hcreator.rel (.trans htrack.rel
    (.of_eq World.calls_saveState))), hw₃.saveState.inst .split, rfl, hfees,
    .trans (CallsOnly.of_returns hmint) (.of_eq (World.calls_publish.trans World.calls_saveState))⟩

end Represents

/-- The split map is one that `set_fee_split` accepts and stores. -/
def FeeSplit.Accepted (splits : FeeSplit) : Prop :=
  splits.entries ≠ [] ∧
    ∃ env w admin u w', (Factory.setFeeSplit admin splits).Returns env w u w'

/-- A split that `set_fee_split` accepts is valid. -/
theorem FeeSplit.Accepted.valid {splits : FeeSplit} (h : splits.Accepted) : splits.Valid := by
  obtain ⟨hne, env, w, admin, u, w', h⟩ := h
  simp only [Factory.setFeeSplit, returns_bind, returns_requireAuth, returns_loadState,
    returns_throwIf, returns_ite, hne, false_and, not_false_eq_true, true_and, false_or] at h
  obtain ⟨_, _, ⟨-, rfl⟩, _, _, ⟨-, rfl⟩, _, _, ⟨-, rfl⟩, _, _, ⟨hlen, rfl⟩, h⟩ := h
  obtain ⟨total, _, hsum, _, _, ⟨htotal, rfl⟩, -⟩ := h
  obtain ⟨rfl, hpos, rfl⟩ := returns_sumBps hsum
  exact ⟨List.length_pos_iff.mpr hne, not_lt.mp hlen, hpos, by simpa using htotal⟩

/-- The payer of an entrypoint that charges a fee, the fee that is due and the offered payment. -/
def Call.fee? (st : FactoryState) : Call → Option (Address × ℤ × ℤ)
  | .createToken creator _ feePayment => some (creator, st.baseFee, feePayment)
  | .createTokensBatch creator tokens feePayment =>
    some (creator, st.baseFee * tokens.length, feePayment)
  | .mintTokens _ admin _ _ feePayment => some (admin, st.baseFee, feePayment)
  | .setMetadata _ admin _ feePayment => some (admin, st.metadataFee, feePayment)
  | _ => none

/-- An entrypoint takes the fee that is due, which is not more than the payment offered. -/
theorem Represents.debited_of_step {i : Invocation} {due payment : ℤ} (hw : Represents w m)
    (hs : Step w i w') (hfee : i.call.fee? m.state = some (payer, due, payment)) :
    due ≤ payment ∧
      ∃ new, w'.calls = w.calls ++ new ∧ debited m.feeToken payer new = due := by
  obtain ⟨m', hnext, -⟩ := hw.step hs
  obtain ⟨env, call, ret⟩ := i
  obtain ⟨hre, hs⟩ := hs
  have hre : env.NoReentry := hre
  unfold AbstractStep at hnext
  -- four calls have a fee; the others are gone after this
  cases call <;> simp only [Call.fee?, Option.some.injEq, Prod.mk.injEq, reduceCtorEq] at hfee
  all_goals
    obtain ⟨rfl, rfl, rfl⟩ := hfee
    simp only [Call.exec, returns_wrap] at hs
    obtain ⟨_, hs, -⟩ := hs
  case createToken =>
    cases hnext with
    | createToken hc => exact ⟨hc.fee_le, (hw.charges_createToken hs).debited (Int.natCast_nonneg _)⟩
  case createTokensBatch =>
    cases hnext with
    | createTokensBatch hc =>
      exact ⟨hc.fee_le, (hw.charges_createTokensBatch hs).debited
        (Int.mul_nonneg (Int.natCast_nonneg _) (Int.natCast_nonneg _))⟩
  case mintTokens =>
    cases hnext with
    | mintTokens _ _ hf => exact ⟨hf, (hw.charges_mintTokens hs).debited (Int.natCast_nonneg _)⟩
  case setMetadata =>
    cases hnext with
    | setMetadata _ _ hf => exact ⟨hf, (hw.charges_setMetadata hs).debited (Int.natCast_nonneg _)⟩

/-- **Fees are conserved.** -/
theorem fee_conservation :
    (∀ (env : Env) (w : World) (st : FactoryState) (payer : Address) (a : ℤ), env.NoReentry →
      (∀ splits, w.storage.inst .split = some splits → FeeSplit.Accepted splits) →
      0 ≤ a → a ≤ I128.MAX →
      (∀ u w', (distributeFee st payer a).Returns env w u w' → ∃ new,
        w'.calls = w.calls ++ new ∧ debited st.feeToken payer new = a ∧
          Paid st payer a new (w.storage.inst .split)) ∧
      ∀ e w', (distributeFee st payer a).Throws env w e w' →
        (e = .arithmeticOverflow ∧ ∃ splits, w.storage.inst .split = some splits ∧
          ∃ x ∈ splits.entries, I128.checkedMul a x.2 = none) ∨
        e = .treasuryTransferFailed ∧ ∃ amount new, w'.calls =
          w.calls ++ new ++ [(.tryTransfer st.feeToken payer st.treasury amount, false)]) ∧
    ∀ (args : ConstructorArgs) (h : List Invocation) (w : World) (i : Invocation) (w' : World)
      (st : FactoryState) (payer : Address) (due payment : ℤ), Reaches args h w → Step w i w' →
      w.state? = some st → i.call.fee? st = some (payer, due, payment) → due ≤ payment ∧
        ∃ new, w'.calls = w.calls ++ new ∧ debited st.feeToken payer new = due := by
  refine ⟨fun env w st payer a hre hs ha hmax => ?_,
    fun args h w i w' st payer due payment hr hstep hst hfee => ?_⟩
  · -- one distribution, whatever it is for
    exact (distributeFee_spec (fun splits h => (hs splits h).valid) ha).imp_right fun h => h hmax
  · -- then the call that pays it, in a reachable state
    obtain ⟨m, -, hw⟩ := hr.represents
    obtain rfl := hw.state_eq hst
    exact hw.debited_of_step hstep hfee

/-! ### A sample split -/

namespace SampleSplit

/-- A third for `10` and two thirds for `11`, in basis points. -/
def splits : FeeSplit where
  entries := [(⟨10⟩, 3333), (⟨11⟩, 6667)]
  sorted := List.pairwise_pair.mpr (by decide)

/-- The world after the admin has installed the split. -/
def world₀ : World := (setFeeSplit ⟨1⟩ splits).commit (permissiveEnv 10 ⟨1⟩) SampleRun.world₀

/-- The world after a fee of `100` has been distributed. -/
def world₁ : World :=
  (distributeFee SampleRun.constructorArgs.initialState ⟨5⟩ 100).commit (permissiveEnv 20 ⟨5⟩) world₀

theorem accepted : splits.Accepted :=
  ⟨by decide, _, SampleRun.world₀, ⟨1⟩, (), _, returns_commit (e := permissiveEnv 10 ⟨1⟩) rfl⟩

theorem returns : (distributeFee SampleRun.constructorArgs.initialState ⟨5⟩ 100).Returns
    (permissiveEnv 20 ⟨5⟩) world₀ () world₁ :=
  returns_commit rfl

end SampleSplit

/-- A fee that is split, and one that goes to the treasury. -/
theorem fee_conservation_samples :
    (∃ new, SampleSplit.world₁.calls = SampleSplit.world₀.calls ++ new ∧ debited ⟨3⟩ ⟨5⟩ new = 100 ∧
      PaidBySplit SampleRun.constructorArgs.initialState ⟨5⟩ 100 SampleSplit.splits new) ∧
    ∃ new, SampleRun.world₁.calls = SampleRun.world₀.calls ++ new ∧ debited ⟨3⟩ ⟨5⟩ new = 100 := by
  have hsplit : SampleSplit.world₀.storage.inst .split = some SampleSplit.splits := rfl
  constructor
  · obtain ⟨hreturns, -⟩ := fee_conservation.1 (permissiveEnv 20 ⟨5⟩) SampleSplit.world₀
      SampleRun.constructorArgs.initialState ⟨5⟩ 100 inferInstance
      (fun splits hs => Option.some.inj (hsplit.symm.trans hs) ▸ SampleSplit.accepted)
      (by decide) (by decide)
    obtain ⟨new, hcalls, hdebited, hpaid⟩ := hreturns () _ SampleSplit.returns
    rw [hsplit] at hpaid
    exact ⟨new, hcalls, hdebited, hpaid⟩
  · exact (fee_conservation.2 _ _ _ _ _ SampleRun.constructorArgs.initialState _ _ _
      SampleRun.reaches₀ SampleRun.step₁ rfl rfl).2

end StellarForge.Factory
