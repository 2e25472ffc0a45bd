import StellarForge.Collections.Text
import StellarForge.Encoding.Double

/-!
# Pin reconciliation

The scheduled job that compares the pins of the Pinata account with the metadata URIs on chain and
unpins what is not referenced.  What a run awaits (the readiness gate, the account, the reference
query, the answers of Pinata) is an argument of `runReconciliation`.

* `listAllPins_eq`: the paginated listing returns the whole account.
-/

namespace StellarForge.Pinning

open Encoding Text

/-! ### Data -/

/-- Pins younger than this are in flight. -/
def GRACE_WINDOW_MS : ℤ := 24 * 60 * 60 * 1000

/-- The fraction of the account that a run may unpin before the circuit breaker trips. -/
def MAX_UNPIN_RATIO : Number := .ofRat (1 / 10)

/-- The breaker only applies above this many candidates. -/
def UNPIN_RATIO_FLOOR : ℕ := 5

/-- A row of the pin list; `date_pinned` is an ISO-8601 text. -/
structure PinataPin where
  ipfsPinHash : String
  datePinned : String
  deriving DecidableEq, Repr

/-- One page of the pin list, and how many rows all pages have. -/
structure PinListResponse where
  count : ℕ
  rows : List PinataPin

/-- Why a run classified pins but did not unpin anything. -/
inductive SkipReason
  | not_ready
  | dry_run
  | circuit_breaker
  deriving DecidableEq, Repr

/-- The answer of the readiness check, with the reason of a refusal. -/
structure ReconciliationGate where
  ready : Bool
  detail : Option String

/-- The knobs of a run. -/
structure ReconciliationOptions where
  /-- What the gate answers when it is asked, or the error it throws. -/
  checkReadiness : Option (Except String ReconciliationGate) := none
  dryRun : Bool := false
  /-- Any number, `NaN` included, in place of `MAX_UNPIN_RATIO`. -/
  maxUnpinRatio : Option Number := none
  overrideCircuitBreaker : Bool := false

/-- What a run reports. -/
structure ReconciliationResult where
  checked : ℕ := 0
  preserved : ℕ := 0
  cleaned : ℕ := 0
  errors : ℕ := 0
  errorMessage : Option String := none
  graceMs : ℤ := GRACE_WINDOW_MS
  skipped : Bool := false
  skipReason : Option SkipReason := none
  dryRun : Bool := false
  wouldUnpin : List String := []
  circuitBreakerTripped : Bool := false
  deriving DecidableEq, Repr

/-! ### Listing the account -/

/-- The pins of a page. -/
def PAGE_LIMIT : ℕ := 1000

/-- One page of the account. -/
def pinList (account : List PinataPin) (pageOffset : ℕ) : PinListResponse where
  count := account.length
  rows := (account.drop pageOffset).take PAGE_LIMIT

/-- The `do … while` loop of `listAllPins` from an offset on. -/
def listPinsFrom (account : List PinataPin) (pageOffset : ℕ) : List PinataPin :=
  let data := pinList account pageOffset
  if pageOffset + PAGE_LIMIT < data.count then
    data.rows ++ listPinsFrom account (pageOffset + PAGE_LIMIT)
  else
    data.rows
termination_by account.length - pageOffset
decreasing_by
  have hlt : pageOffset + PAGE_LIMIT < account.length := ‹_›
  simp only [PAGE_LIMIT] at *
  omega

/-- The pins of an account, page by page. -/
def listAllPins (account : List PinataPin) : List PinataPin :=
  listPinsFrom account 0

/-- The pages together are the pins of the account. -/
theorem listPinsFrom_eq (account : List PinataPin) (pageOffset : ℕ) :
    listPinsFrom account pageOffset = account.drop pageOffset := by
  fun_induction listPinsFrom account pageOffset with
  | case1 pageOffset data hmore ih =>
    rw [ih, ← List.drop_drop]
    exact List.take_append_drop PAGE_LIMIT (account.drop pageOffset)
  | case2 pageOffset data hlast =>
    have hle : (account.drop pageOffset).length ≤ PAGE_LIMIT := by
      rw [List.length_drop]
      have hcount : data.count = account.length := rfl
      omega
    exact List.take_of_length_le hle

/-- The pages together are the account. -/
theorem listAllPins_eq (account : List PinataPin) : listAllPins account = account :=
  listPinsFrom_eq account 0

/-! ### The reference set -/

/-- What `.` of a regular expression does not match. -/
def isLineTerminator (c : Char) : Bool :=
  c == '\n' || c == '\r' || c == '\u2028' || c == '\u2029'

/-- `/^ipfs:\/\/(.+)$/`: the group, if the text matches. -/
def matchIpfsUri (uri : String) : Option String :=
  (afterPrefix "ipfs://".toList uri.toList).bind fun cid =>
    if cid.isEmpty || cid.any isLineTerminator then none else some (String.ofList cid)

/-- `/^[a-zA-Z0-9]{44,59}$/`. -/
def looksLikeCid (uri : String) : Bool :=
  44 ≤ uri.toList.length && uri.toList.length ≤ 59 && uri.toList.all Char.isAlphanum

/-- What one URI adds to the set. -/
def extractCid (uri : String) : Option String :=
  match matchIpfsUri uri with
  | some cid => some cid
  | none => if looksLikeCid uri then some uri else none

/-- The set as the list of its elements. -/
def extractCidsFromMetadataUris (uris : List String) : List String :=
  uris.filterMap extractCid

/-! ### Classification -/

/-- `new Date(text).getTime()`, with `none` for `NaN`. -/
abbrev DateParser := String → Option ℤ

/-- A row that is older than the grace window. -/
def isStale (getTime : DateParser) (now graceMs : ℤ) (pin : PinataPin) : Bool :=
  match getTime pin.datePinned with
  | none => false
  | some pinnedAt => ¬ now - pinnedAt ≤ graceMs

/-- The loop of `classifyPins`: what to unpin, and how many rows are preserved. -/
def classifyPins (getTime : DateParser) (cidInUse : List String) (now graceMs : ℤ) :
    List PinataPin → List String × ℕ
  | [] => ([], 0)
  | pin :: pins =>
    let (toUnpin, preserved) := classifyPins getTime cidInUse now graceMs pins
    if cidInUse.contains pin.ipfsPinHash then (toUnpin, preserved + 1)
    else if isStale getTime now graceMs pin then (pin.ipfsPinHash :: toUnpin, preserved)
    else (toUnpin, preserved + 1)

/-! ### Unpinning -/

/-- The counters of `unpinCids`. -/
structure UnpinTally where
  cleaned : ℕ := 0
  errors : ℕ := 0
  errorMessage : Option String := none

/-- One DELETE: the HTTP status of its answer, or `none` if the request threw. -/
def UnpinTally.count (tally : UnpinTally) (cid : String) : Option ℕ → UnpinTally
  | some status =>
    if (200 ≤ status ∧ status < 300) ∨ status = 404 then
      { tally with cleaned := tally.cleaned + 1 }
    else
      { tally with
        errors := tally.errors + 1
        errorMessage := some ("Unpin " ++ cid ++ " failed (HTTP " ++ toString status ++ ")") }
  | none =>
    { tally with
      errors := tally.errors + 1
      errorMessage := some ("Unpin " ++ cid ++ " threw a network error") }

/-- One DELETE for every CID of the list, in order; `answer i` answers the `i`-th. -/
def unpinCids (answer : ℕ → Option ℕ) (cids : List String) : UnpinTally :=
  (cids.zipIdx).foldl (fun tally (cid, i) => tally.count cid (answer i)) {}

/-! ### The run -/

/-- Everything a run awaits besides its options. -/
structure Surroundings where
  getTime : DateParser
  /-- The account, or the error of the listing. -/
  account : Except String (List PinataPin)
  /-- What the reference query returns, or its error. -/
  metadataUris : Except String (List String)
  /-- The answers to the DELETE requests. -/
  unpinAnswer : ℕ → Option ℕ

/-- The gate as the run sees it: an error of the check refuses. -/
def ReconciliationOptions.gate (options : ReconciliationOptions) : Option ReconciliationGate :=
  options.checkReadiness.map fun
    | .ok gate => gate
    | .error err => { ready := false, detail := some ("readiness check failed: " ++ err) }

/-- `options.maxUnpinRatio ?? MAX_UNPIN_RATIO` -/
def ReconciliationOptions.unpinLimit (options : ReconciliationOptions) : Number :=
  options.maxUnpinRatio.getD MAX_UNPIN_RATIO

/-- The part of the account that the run would unpin, as the quotient of two doubles. -/
def unpinRatio (pins : List PinataPin) (toUnpin : List String) : Number :=
  if pins.length > 0 then .ofRat (toUnpin.length / pins.length) else .finite 0

/-- The circuit breaker refuses the run.  No ratio is above a limit that is `NaN`. -/
def circuitBreakerTrips (options : ReconciliationOptions) (pins : List PinataPin)
    (toUnpin : List String) : Prop :=
  toUnpin.length > UNPIN_RATIO_FLOOR ∧
    options.unpinLimit.lt (unpinRatio pins toUnpin) = true ∧
    options.overrideCircuitBreaker ≠ true

instance (options : ReconciliationOptions) (pins : List PinataPin) (toUnpin : List String) :
    Decidable (circuitBreakerTrips options pins toUnpin) :=
  inferInstanceAs (Decidable (_ ∧ _ ∧ _))

/-- A run: its result and the CIDs of the DELETE requests it sends. -/
def runReconciliation (around : Surroundings) (now : ℤ) (options : ReconciliationOptions) :
    ReconciliationResult × List String :=
  let base : ReconciliationResult := { dryRun := options.dryRun }
  -- the gate is optional: without one the run goes on
  match options.gate with
  | some ⟨false, detail⟩ =>
    ({ base with
        skipped := true
        skipReason := some .not_ready
        errorMessage := some ("Reconciliation skipped: " ++
          detail.getD "indexer is not in a trustworthy state") }, [])
  | _ =>
    match around.account with
    | .error err => ({ base with errorMessage := some ("Failed to list pins: " ++ err) }, [])
    | .ok account =>
      let pins := listAllPins account
      -- no list of URIs, no unpinning: every pin might be in use
      match around.metadataUris with
      | .error err =>
        ({ base with
            checked := pins.length
            preserved := pins.length
            skipped := true
            skipReason := some .not_ready
            errorMessage := some ("Failed to query on-chain metadata: " ++ err) }, [])
      | .ok metadataUris =>
        let cidInUse := extractCidsFromMetadataUris metadataUris
        let (toUnpin, preserved) := classifyPins around.getTime cidInUse now GRACE_WINDOW_MS pins
        let base := { base with checked := pins.length, preserved }
        -- the breaker looks at the selection before the dry run does
        if circuitBreakerTrips options pins toUnpin then
          let pct := ((unpinRatio pins toUnpin).mul (.finite 100)).toFixed1
          let limitPct := (options.unpinLimit.mul (.finite 100)).toFixed1
          ({ base with
              skipped := true
              skipReason := some .circuit_breaker
              circuitBreakerTripped := true
              wouldUnpin := toUnpin
              errorMessage := some ("Circuit breaker: " ++ toString toUnpin.length ++ "/" ++
                toString pins.length ++ " pins (" ++ pct ++ "%) exceed the " ++ limitPct ++
                "% per-run unpin limit") }, [])
        else if options.dryRun then
          ({ base with
              skipped := true
              skipReason := some .dry_run
              wouldUnpin := toUnpin }, [])
        else
          let tally := unpinCids around.unpinAnswer toUnpin
          ({ base with
              cleaned := tally.cleaned
              errors := tally.errors
              errorMessage := tally.errorMessage }, toUnpin)

end StellarForge.Pinning
