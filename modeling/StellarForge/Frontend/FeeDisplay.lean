import StellarForge.Factory.Properties.Fees
import StellarForge.Frontend.Events

/-!
# The displayed fee split

The recipient rows of `FeeDisplay` beside the shares that `distribute_fee` offers.  The display rounds
each share down, and the contract awards the stroops that this loses: the rows are the shares exactly
when no share has to be rounded.

* `splitRows`: the rows;
* `distributeFee_offers`: the shares are what `distribute_fee` offers;
* `displayedAsPaid_iff`: **when the rows are the shares**.
-/

namespace StellarForge.Frontend.FeeDisplay

open Soroban Contract Factory Apportionment

/-! ### The split as the frontend reads it -/

/-- `xdr.ScAddress` -/
inductive ScAddress
  | account (ed25519 : List UInt8)
  | contract (contractId : List UInt8)
  deriving DecidableEq, Repr

/-- `xdr.ScVal`, as far as `decodeFeeSplit` tells the kinds apart. -/
inductive ScVal
  | map (entries : List (ScAddress × ℕ))
  | other
  deriving DecidableEq, Repr

/-- A recipient, with a share in basis points. -/
structure FeeSplitRecipient where
  address : String
  bps : ℕ
  deriving DecidableEq, Repr

/-- What the frontend takes from the SDK, and how the host encodes an address. -/
structure AddressCodec where
  encodeEd25519PublicKey : List UInt8 → String
  scAddress : Address → ScAddress

variable (codec : AddressCodec)

/-- An address as a text: a `StrKey`, or the hexadecimal digits of a contract id. -/
def addressText : ScAddress → String
  | .account ed25519 => codec.encodeEd25519PublicKey ed25519
  | .contract contractId => bytesToHex contractId

/-- The recipients that `get_fee_split` has returned. -/
def decodeFeeSplit : ScVal → Except String (List FeeSplitRecipient)
  | .map pairs => .ok (pairs.map fun entry => ⟨addressText codec entry.1, entry.2⟩)
  | .other => .error "Unexpected ScVal type for fee split"

/-- `get_fee_split()`, as the host returns it: the map in the order of its keys, or an empty one. -/
def feeSplitVal (split : Option FeeSplit) : ScVal :=
  .map ((split.getD FeeSplit.empty).entries.map fun entry => (codec.scAddress entry.1, entry.2))

/-- What the hook returns, once it has loaded. -/
structure UseFeeSplitResult where
  recipients : Option (List FeeSplitRecipient)
  error : Option String
  deriving DecidableEq, Repr

/-- The hook after its first fetch. -/
def useFeeSplit (split : Option FeeSplit) : UseFeeSplitResult :=
  match decodeFeeSplit codec (feeSplitVal codec split) with
  | .ok decoded => ⟨some decoded, none⟩
  | .error err => ⟨none, some err⟩

/-! ### The rows -/

/-- The fee of a creation, or of an update of the metadata. -/
inductive FeeType
  | base
  | metadata
  deriving DecidableEq, Repr

/-- What `FeeDisplay` reads of the factory. -/
structure FactoryView where
  treasury : String
  baseFee : ℤ
  metadataFee : ℤ
  deriving DecidableEq, Repr

/-- The state of the factory, as the page decodes it. -/
def factoryView (st : FactoryState) : FactoryView where
  treasury := addressText codec (codec.scAddress st.treasury)
  baseFee := st.baseFee
  metadataFee := st.metadataFee

/-- The fee of one item. -/
def FactoryView.stroops (state : FactoryView) : FeeType → ℤ
  | .base => state.baseFee
  | .metadata => state.metadataFee

/-- A row of the split, in stroops. -/
structure SplitRow where
  address : String
  stroops : ℤ
  deriving DecidableEq, Repr

/-- `stroopsBig * BigInt(Math.max(1, count))` -/
def totalStroops (state : FactoryView) (feeType : FeeType) (count : ℕ) : ℤ :=
  state.stroops feeType * (max 1 count : ℕ)

/-- A split is shown when it is there, has a recipient and was read without an error. -/
def showSplit (split : UseFeeSplitResult) : Bool :=
  split.recipients.any (fun recipients => recipients.length > 0) && split.error.isNone

/-- The rows: one for each recipient, or one for the treasury. -/
def splitRows (state : FactoryView) (feeType : FeeType) (count : ℕ) (split : UseFeeSplitResult) :
    List SplitRow :=
  if showSplit split then
    (split.recipients.getD []).map fun r =>
      ⟨r.address, (totalStroops state feeType count * r.bps).tdiv 10000⟩
  else [⟨state.treasury, totalStroops state feeType count⟩]

/-! ### The shares -/

/-- The first two passes of `distribute_fee` over a split: what each recipient is offered. -/
def splitShares (amount : ℤ) (splits : FeeSplit) : Option (List (Address × ℤ)) := do
  let alloc ← allocate amount splits.entries
  let remainder ← I128.checkedSub amount alloc.totalFloor
  return alloc.addrs.zip (awardRemainder remainder.toNat alloc.floors alloc.fracs remainder).1

/-- What `distribute_fee` offers for an amount. -/
def offeredShares (treasury : Address) (amount : ℤ) : Option FeeSplit → Option (List (Address × ℤ))
  | some splits => splitShares amount splits
  | none => some [(treasury, amount)]

/-- What is offered for `n` items: `none` when the total or a share overflows. -/
def offeredFor (st : FactoryState) (feeType : FeeType) (n : ℕ) (split : Option FeeSplit) :
    Option (List (Address × ℤ)) := do
  let amount ← I128.checkedMul ((factoryView codec st).stroops feeType) n
  offeredShares st.treasury amount split

/-- **The rows are the shares**, in their order, and add up to the total. -/
def DisplayedAsPaid (st : FactoryState) (feeType : FeeType) (n : ℕ) (split : Option FeeSplit) :
    Prop :=
  let rows := splitRows (factoryView codec st) feeType n (useFeeSplit codec split)
  (∃ shares, offeredFor codec st feeType n split = some shares ∧
    rows = shares.map fun s => ⟨addressText codec (codec.scAddress s.1), s.2⟩) ∧
  (rows.map SplitRow.stroops).sum = (factoryView codec st).stroops feeType * n

/-- No share has to be rounded, and no product overflows. -/
def Exact (total : ℤ) (split : Option FeeSplit) : Prop :=
  total ≤ I128.MAX ∧ ∀ splits, split = some splits → ∀ entry ∈ splits.entries,
    total * entry.2 ≤ I128.MAX ∧ (10000 : ℤ) ∣ total * entry.2

variable {codec} {st : FactoryState} {payer : Address} {env : Env} {w w' : World} {a : ℤ}
  {splits : FeeSplit}

/-- The calls begin with the offers of the positive shares, in their order. -/
def Offers (st : FactoryState) (payer : Address) (shares : List (Address × ℤ))
    (calls : List (ExtCall × Bool)) : Prop :=
  ∃ offers : List ((Address × ℤ) × Bool), offers.map Prod.fst = shares.filter (fun s => 0 < s.2) ∧
    offers.map (offerCall st.feeToken payer) <+: calls

/-- The calls that a split makes offer the shares to the recipients. -/
theorem distributeSplit_offers [env.NoReentry] {u : Unit}
    (h : (distributeSplit st payer a splits).Returns env w u w') :
    ∃ shares calls, splitShares a splits = some shares ∧ w'.calls = w.calls ++ calls ∧
      Offers st payer shares calls := by
  simp only [distributeSplit, returns_bind, returns_okOr, returns_ite, returns_pure] at h
  obtain ⟨alloc, _, ⟨halloc, rfl⟩, remainder, _, ⟨hremainder, rfl⟩, extra, w₁, hpay, h⟩ := h
  obtain ⟨offers, hfst, hcalls, -⟩ := returns_payShares hpay
  have hshares : splitShares a splits = some (alloc.addrs.zip
      (awardRemainder remainder.toNat alloc.floors alloc.fracs remainder).1) := by
    simp only [splitShares, halloc, hremainder, Option.bind_eq_bind, Option.bind_some,
      Option.pure_def]
  rcases h with ⟨-, h⟩ | ⟨-, -, rfl⟩
  · have hall := returns_payTreasury h
    rw [hcalls, List.append_assoc] at hall
    exact ⟨_, _, hshares, hall, offers, hfst, List.prefix_append _ _⟩
  · exact ⟨_, _, hshares, hcalls, offers, hfst, List.prefix_refl _⟩

/-- **The shares are what `distribute_fee` offers.** -/
theorem distributeFee_offers [env.NoReentry] {u : Unit}
    (h : (distributeFee st payer a).Returns env w u w') :
    (w.storage.inst .split = none →
      w'.calls = w.calls ++ [(.tryTransfer st.feeToken payer st.treasury a, true)]) ∧
    ∀ splits, w.storage.inst .split = some splits →
      ∃ shares calls, splitShares a splits = some shares ∧ w'.calls = w.calls ++ calls ∧
        Offers st payer shares calls := by
  simp only [distributeFee, returns_bind, returns_getInst] at h
  obtain ⟨_, _, ⟨rfl, rfl⟩, h⟩ := h
  refine ⟨fun hnone => ?_, fun splits hsome => ?_⟩
  · rw [hnone] at h
    exact returns_payTreasury h
  · rw [hsome] at h
    exact distributeSplit_offers h

/-! ### When the rows are the shares -/

theorem splitRows_none {feeType : FeeType} {n : ℕ} (hn : 1 ≤ n) :
    splitRows (factoryView codec st) feeType n (useFeeSplit codec none) =
      [⟨addressText codec (codec.scAddress st.treasury),
        (factoryView codec st).stroops feeType * n⟩] := by
  show [SplitRow.mk _ (totalStroops _ _ _)] = _
  rw [totalStroops, max_eq_right hn]
  rfl

/-- The rows of a split: each share rounded down. -/
theorem splitRows_some {feeType : FeeType} {n : ℕ} (hn : 1 ≤ n)
    (hfee : 0 ≤ (factoryView codec st).stroops feeType) (hne : splits.entries ≠ []) :
    splitRows (factoryView codec st) feeType n (useFeeSplit codec (some splits)) =
      splits.entries.map fun entry => ⟨addressText codec (codec.scAddress entry.1),
        share 10000 ((factoryView codec st).stroops feeType * n) entry.2⟩ := by
  have hshow : showSplit (useFeeSplit codec (some splits)) = true := by
    rcases hentries : splits.entries with _ | ⟨entry, entries⟩
    · exact absurd hentries hne
    · simp [showSplit, useFeeSplit, decodeFeeSplit, feeSplitVal, hentries]
  have htotal : totalStroops (factoryView codec st) feeType n =
      (factoryView codec st).stroops feeType * n := by
    rw [totalStroops, max_eq_right hn]
  have hnonneg : 0 ≤ (factoryView codec st).stroops feeType * n :=
    Int.mul_nonneg hfee (Int.natCast_nonneg n)
  rw [splitRows, if_pos hshow, htotal]
  simp only [useFeeSplit, decodeFeeSplit, feeSplitVal, Option.getD_some, List.map_map]
  refine List.map_congr_left fun entry _ => ?_
  rw [← tdiv_eq_share hnonneg]
  rfl

/-- The rows of a split add up to the total exactly when none of them is rounded. -/
theorem sum_share_entries_iff (hvalid : splits.Valid) :
    (splits.entries.map fun entry => share 10000 a entry.2).sum = a ↔
      ∀ entry ∈ splits.entries, (10000 : ℤ) ∣ a * entry.2 := by
  have hws : (((splits.entries.map Prod.snd).sum : ℕ) : ℤ) = 10000 := by rw [hvalid.sum_eq]; rfl
  have hiff := sum_share_eq_iff (a := a) (by decide) hws
  rw [List.map_map] at hiff
  rw [show (fun entry : Address × ℕ => share 10000 a entry.2) = share 10000 a ∘ Prod.snd from rfl,
    hiff]
  exact ⟨fun h entry hentry => h _ (List.mem_map_of_mem hentry), fun h w hw => by
    obtain ⟨entry, hentry, rfl⟩ := List.mem_map.mp hw
    exact h entry hentry⟩

/-- Pass 1 overflows in a product only. -/
theorem allocate_isSome_iff (ha : 0 ≤ a) (hmax : a ≤ I128.MAX) (hvalid : splits.Valid) :
    allocate a splits.entries = some (.of a splits.entries) ↔
      ∀ entry ∈ splits.entries, a * entry.2 ≤ I128.MAX := by
  have hmin := I128.MIN_lt_zero
  constructor
  · intro halloc entry hentry
    have hfits := (allocate_eq_some ha halloc).2 entry hentry
    by_contra hlt
    exact hfits (I128.checked_eq_none.mpr (.inr (by omega)))
  · intro hfits
    rcases halloc : allocate a splits.entries with _ | alloc
    · obtain ⟨entry, hentry, hnone⟩ := allocate_eq_none ha hvalid.sum_eq hmax halloc
      have hproduct : 0 ≤ a * entry.2 := Int.mul_nonneg ha (Int.natCast_nonneg _)
      have hle := hfits entry hentry
      rcases I128.checked_eq_none.mp hnone with hlt | hgt <;> omega
    · rw [(allocate_eq_some ha halloc).1]

/-- Where nothing is rounded the shares are the floors. -/
theorem splitShares_of_exact (ha : 0 ≤ a) (hmax : a ≤ I128.MAX) (hvalid : splits.Valid)
    (hfits : ∀ entry ∈ splits.entries, a * entry.2 ≤ I128.MAX)
    (hdvd : ∀ entry ∈ splits.entries, (10000 : ℤ) ∣ a * entry.2) :
    splitShares a splits =
      some (splits.entries.map fun entry => (entry.1, share 10000 a entry.2)) := by
  have hmin := I128.MIN_lt_zero
  have htotal : (Allocation.of a splits.entries).totalFloor = a :=
    (sum_share_entries_iff hvalid).mpr hdvd
  have hremainder : I128.checkedSub a (Allocation.of a splits.entries).totalFloor = some 0 := by
    rw [htotal]
    exact I128.checked_eq_some.mpr ⟨by omega, by omega, by unfold I128.MAX; omega⟩
  rw [splitShares, (allocate_isSome_iff ha hmax hvalid).mpr hfits]
  simp only [Option.bind_eq_bind, Option.bind_some, hremainder, Option.pure_def]
  show some (((splits.entries.map Prod.fst).zip
    (splits.entries.map fun entry => share 10000 a entry.2))) = _
  rw [List.zip_map']

/-- **When the displayed split is the paid one.** -/
theorem displayedAsPaid_iff {feeType : FeeType} {n : ℕ} {split : Option FeeSplit}
    (hfee : 0 ≤ (factoryView codec st).stroops feeType) (hn : 1 ≤ n)
    (hsplit : ∀ splits, split = some splits → splits.Accepted) :
    DisplayedAsPaid codec st feeType n split ↔
      Exact ((factoryView codec st).stroops feeType * n) split := by
  have hmin := I128.MIN_lt_zero
  have htotal : 0 ≤ (factoryView codec st).stroops feeType * n :=
    Int.mul_nonneg hfee (Int.natCast_nonneg n)
  -- the total has to fit for anything to be offered
  by_cases hmax : (factoryView codec st).stroops feeType * n ≤ I128.MAX
  · have hamount : I128.checkedMul ((factoryView codec st).stroops feeType) n =
        some ((factoryView codec st).stroops feeType * n) :=
      I128.checked_eq_some.mpr ⟨rfl, by omega, hmax⟩
    have hoffered : offeredFor codec st feeType n split = offeredShares st.treasury
        ((factoryView codec st).stroops feeType * n) split := by
      rw [offeredFor, hamount]
      rfl
    unfold DisplayedAsPaid Exact
    rw [hoffered]
    cases split with
    | none =>
      refine iff_of_true ?_ ⟨hmax, fun splits h => by cases h⟩
      rw [splitRows_none hn]
      exact ⟨⟨_, rfl, rfl⟩, List.sum_singleton⟩
    | some splits =>
      have hvalid := (hsplit splits rfl).valid
      rw [splitRows_some hn hfee (hsplit splits rfl).1]
      constructor
      · rintro ⟨⟨shares, hshares, -⟩, hsum⟩
        refine ⟨hmax, ?_⟩
        rintro _ ⟨⟩ entry hentry
        obtain ⟨alloc, halloc, -⟩ := Option.bind_eq_some_iff.mp hshares
        rw [(allocate_eq_some htotal halloc).1] at halloc
        rw [List.map_map] at hsum
        exact ⟨(allocate_isSome_iff htotal hmax hvalid).mp halloc entry hentry,
          (sum_share_entries_iff hvalid).mp hsum entry hentry⟩
      · rintro ⟨-, hexact⟩
        have hfits := fun entry hentry => (hexact splits rfl entry hentry).1
        have hdvd := fun entry hentry => (hexact splits rfl entry hentry).2
        refine ⟨⟨_, splitShares_of_exact htotal hmax hvalid hfits hdvd, ?_⟩, ?_⟩
        · rw [List.map_map]
          rfl
        · rw [List.map_map]
          exact (sum_share_entries_iff hvalid).mpr hdvd
  · refine iff_of_false ?_ fun h => hmax h.1
    rintro ⟨⟨shares, hshares, -⟩, -⟩
    obtain ⟨amount, hamount, -⟩ := Option.bind_eq_some_iff.mp hshares
    obtain ⟨rfl, -, hle⟩ := I128.checked_eq_some.mp hamount
    exact hmax hle

/-! ### A split in thirds -/

/-- Every address is that of a contract. -/
def sampleCodec : AddressCodec where
  encodeEd25519PublicKey _ := "G"
  scAddress address := .contract [UInt8.ofNat address.id]

/-- A fee of `100`, and a third of it in basis points: the display loses a stroop. -/
theorem not_displayedAsPaid_thirds :
    (factoryView sampleCodec SampleRun.constructorArgs.initialState).stroops .base = 100 ∧
      SampleSplit.splits.Accepted ∧
      ¬ DisplayedAsPaid sampleCodec SampleRun.constructorArgs.initialState .base 1
        (some SampleSplit.splits) := by
  refine ⟨rfl, SampleSplit.accepted, ?_⟩
  rintro ⟨-, hsum⟩
  revert hsum
  decide

/-- A batch of a hundred tokens is shown as it is paid. -/
theorem displayedAsPaid_batch :
    DisplayedAsPaid sampleCodec SampleRun.constructorArgs.initialState .base 100
      (some SampleSplit.splits) := by
  refine (displayedAsPaid_iff (by decide) (by decide) ?_).mpr ⟨by decide, ?_⟩
  · rintro _ ⟨⟩
    exact SampleSplit.accepted
  · rintro _ ⟨⟩
    decide

end StellarForge.Frontend.FeeDisplay
