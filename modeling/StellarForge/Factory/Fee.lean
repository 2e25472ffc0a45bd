import StellarForge.Factory.Helpers

/-!
# Fee distribution

`distribute_fee` pays a fee from the payer to the treasury or, when a split is configured, to the
split recipients by the largest-remainder method: each recipient gets the floor of its exact share,
and the stroops left over go, one each, to the recipients with the largest fractional numerators.
A recipient whose transfer fails has its share redirected to the treasury.
-/

namespace StellarForge.Factory

open Soroban Contract

/-- The three parallel vectors of the allocation and the sum of the floors. -/
structure Allocation where
  addrs : List Address
  floors : List ℤ
  fracs : List ℤ
  totalFloor : ℤ

/-- One pass of the allocation loop; `none` is `ArithmeticOverflow`. -/
def allocateOne (amount : ℤ) (acc : Allocation) (entry : Address × ℕ) : Option Allocation := do
  let bps : ℤ := entry.2
  let product ← I128.checkedMul amount bps
  let floor := product.tdiv 10000
  let fracNum ← I128.checkedSub product (← I128.checkedMul floor 10000)
  let totalFloor ← I128.checkedAdd acc.totalFloor floor
  pure ⟨acc.addrs ++ [entry.1], acc.floors ++ [floor], acc.fracs ++ [fracNum], totalFloor⟩

/-- Pass 1: the floor and the fractional numerator of every recipient's share. -/
def allocate (amount : ℤ) (entries : List (Address × ℕ)) : Option Allocation :=
  entries.foldlM (allocateOne amount) ⟨[], [], [], 0⟩

/-- The scan for the largest fractional numerator, from index `i` on, the first one winning. -/
def bestFrac : List ℤ → (i bestIdx : ℕ) → (best : ℤ) → ℕ × ℤ
  | [], _, bestIdx, best => (bestIdx, best)
  | f :: fracs, i, bestIdx, best =>
    if f > best then bestFrac fracs (i + 1) i f else bestFrac fracs (i + 1) bestIdx best

/-- Pass 2: award the remainder one stroop at a time.  Each round takes one from `remainder`, so
the loop ends within `remainder` rounds. -/
def awardRemainder : ℕ → (floors fracs : List ℤ) → (remainder : ℤ) → List ℤ × ℤ
  | 0, floors, _, remainder => (floors, remainder)
  | rounds + 1, floors, fracs, remainder =>
    let (bestIdx, best) := bestFrac fracs 0 0 (-1)
    -- no fractional part is left to award a stroop for
    if best ≤ 0 then (floors, remainder)
    else
      awardRemainder rounds (floors.modify bestIdx fun f => I128.saturatingAdd f 1)
        (fracs.set bestIdx 0) (I128.saturatingSub remainder 1)

/-- Pass 3: pay each recipient its share and add the shares of the failed transfers to
`treasuryExtra`. -/
def payShares (feeToken payer : Address) : List (Address × ℤ) → ℤ → ContractM ℤ
  | [], treasuryExtra => pure treasuryExtra
  | (addr, share) :: rest, treasuryExtra => do
    if share > 0 then
      let ok ← tryTransfer feeToken payer addr share
      if ok then
        payShares feeToken payer rest treasuryExtra
      else
        -- the share goes to the treasury instead
        let treasuryExtra ← okOr (I128.checkedAdd treasuryExtra share) .arithmeticOverflow
        publish (.feeRedir addr share)
        payShares feeToken payer rest treasuryExtra
    else
      payShares feeToken payer rest treasuryExtra

/-- A transfer to the treasury, which has no further fallback. -/
def payTreasury (state : FactoryState) (payer : Address) (amount : ℤ) : ContractM Unit := do
  let ok ← tryTransfer state.feeToken payer state.treasury amount
  throwIf (ok = false) .treasuryTransferFailed

/-- The split branch of `distribute_fee`. -/
def distributeSplit (state : FactoryState) (payer : Address) (amount : ℤ) (splits : FeeSplit) :
    ContractM Unit := do
  let alloc ← okOr (allocate amount splits.entries) .arithmeticOverflow
  let remainder ← okOr (I128.checkedSub amount alloc.totalFloor) .arithmeticOverflow
  let awarded := awardRemainder remainder.toNat alloc.floors alloc.fracs remainder
  let treasuryExtra ← payShares state.feeToken payer (alloc.addrs.zip awarded.1) awarded.2
  -- what no recipient got: refused shares, and a remainder that was not awarded
  if treasuryExtra > 0 then payTreasury state payer treasuryExtra else pure ()

/-- Transfer `amount` of the fee token from `payer` to the treasury or to the split recipients. -/
def distributeFee (state : FactoryState) (payer : Address) (amount : ℤ) : ContractM Unit := do
  match ← getInst .split with
  | some splits => distributeSplit state payer amount splits
  | none => payTreasury state payer amount

/-- The sum of the basis points, rejecting an entry that is zero. -/
def sumBps : List (Address × ℕ) → ℕ → ContractM ℕ
  | [], total => pure total
  | (_, bps) :: rest, total => do
    throwIf (bps = 0) .zeroFeeSplitEntry
    let total ← okOr (U32.checkedAdd total bps) .arithmeticOverflow
    sumBps rest total

/-- The admin replaces the recipients of the fees; their shares have to add up to 10000. -/
def setFeeSplit (admin : Address) (splits : FeeSplit) : ContractM Unit := do
  requireAuth admin
  let state ← loadState
  throwIf (state.admin ≠ admin) .unauthorized
  -- an empty split clears the setting
  if splits.entries = [] then
    removeInst .split
    publish (.splitClr admin)
  else
    throwIf (splits.entries.length > MAX_FEE_SPLIT_RECIPIENTS) .tooManyFeeSplitRecipients
    let total ← sumBps splits.entries 0
    throwIf (total ≠ 10000) .invalidFeeSplit
    setInst .split splits
    extendInstTtl
    publish (.splitSet admin splits.entries)

/-- The recipients, none while no split is set. -/
def getFeeSplit : ContractM FeeSplit := do
  let splits ← getInst .split
  pure (splits.getD FeeSplit.empty)

end StellarForge.Factory
