import StellarForge.Indexer.Ingest

/-!
# Readiness

The gate of the destructive reconciliation: whether the token set of the indexer is complete and
current.
-/

namespace StellarForge.Indexer

/-- Warning threshold. -/
def LAG_WARNING_SECONDS : ℤ := 15 * 60

/-- Lag in seconds, rounded, between now and the newest ledger the indexer has seen. -/
def lagSeconds (state : IndexerState) (now : ℤ) : Option ℤ :=
  state.lastLedgerCloseTime.map fun closeTime => max 0 ((now - closeTime + 500) / 1000)

/-- Health signal of the store selection. -/
structure StoreHealth where
  durableConfigured : Bool
  usingDurableStore : Bool
  lastDurableError : Option String
  deriving DecidableEq, Repr

/-- Why the reconciliation may not run. -/
inductive ReadinessBlocker
  | store_degraded
  | store_unreachable
  | backfill_incomplete
  | never_ingested
  | indexer_lagging
  deriving DecidableEq, Repr

/-- Whether it may run. -/
structure ReconciliationReadiness where
  ready : Bool
  blocker : Option ReadinessBlocker
  detail : Option String
  lagSeconds : Option ℤ
  backfillComplete : Option Bool
  deriving DecidableEq, Repr

/-- Refuse, and say why. -/
def refuse (blocker : ReadinessBlocker) (detail : String) (lag : Option ℤ)
    (backfillComplete : Option Bool) : ReconciliationReadiness :=
  ⟨false, some blocker, some detail, lag, backfillComplete⟩

/-- `state` is the checkpoint of the resolved store, or the error of reading it. -/
def checkReconciliationReadiness (health : StoreHealth) (state : Except String IndexerState)
    (now : ℤ) : ReconciliationReadiness :=
  -- the in-memory fallback forgets between runs, so its token set proves nothing
  if health.durableConfigured && !health.usingDurableStore then
    refuse .store_degraded
      ("durable store configured but unreachable" ++
        (health.lastDurableError.elim "" fun err => ": " ++ err)) none none
  else match state with
    | .error err => refuse .store_unreachable ("store query failed: " ++ err) none none
    | .ok state =>
      let lag := lagSeconds state now
      if state.lastRunAt = none then
        refuse .never_ingested "indexer has never completed a run" lag state.backfillComplete
      else if state.backfillComplete = false then
        refuse .backfill_incomplete "indexer backfill has not finished; token set is partial" lag
          state.backfillComplete
      -- no ledger close time: the lag cannot be bounded either
      else match lag with
        | none =>
          refuse .never_ingested "indexer has no ledger close time; lag is unknown" none
            state.backfillComplete
        | some seconds =>
          if seconds > LAG_WARNING_SECONDS then
            refuse .indexer_lagging
              ("indexer is " ++ toString seconds ++ "s behind (limit " ++
                toString LAG_WARNING_SECONDS ++ "s)") lag state.backfillComplete
          else
            ⟨true, none, none, lag, some state.backfillComplete⟩

/-- What readiness looks at: a finished run, the counts, and the lag. -/
theorem ready_iff {health : StoreHealth} {state : IndexerState} {now : ℤ} :
    (checkReconciliationReadiness health (.ok state) now).ready = true ↔
      (health.durableConfigured = true → health.usingDurableStore = true) ∧
        state.lastRunAt ≠ none ∧ state.backfillComplete = true ∧
        ∃ seconds ∈ lagSeconds state now, seconds ≤ LAG_WARNING_SECONDS := by
  rw [checkReconciliationReadiness]
  split
  · next hdegraded =>
      simp only [Bool.and_eq_true, Bool.not_eq_true'] at hdegraded
      simp [refuse, hdegraded]
  · next hhealthy =>
      have hdurable : health.durableConfigured = true → health.usingDurableStore = true := by
        simpa using hhealthy
      -- the remaining conditions one by one
      by_cases hrun : state.lastRunAt = none
      · simp [hrun, refuse]
      · rcases hback : state.backfillComplete
        · simp [hrun, refuse]
        · rcases hlag : lagSeconds state now with _ | seconds
          · simp [hrun, refuse]
          · by_cases hle : seconds ≤ LAG_WARNING_SECONDS
            · simpa [hrun, hle, Int.not_lt.mpr hle] using hdurable
            · simp [hrun, hle, Int.not_le.mp hle, refuse]

end StellarForge.Indexer
