import StellarForge.Collections.Text
import StellarForge.Indexer.Readiness

/-!
# The health of the indexer, as it is published

`GET /api/health/indexer` reads the store that `getStore` selects and answers with a report, in which an
error of the indexer stands by its category.  An error text reaches the handler in three ways: it is stored
in the checkpoint, kept by the store selection, or thrown by a call of a store.

* `getStore_same`, `checkReconciliationReadiness_same`: what is selected, and whether it may be trusted,
  does not depend on error texts;
* `handler_eq_iff`: **two runs whose error texts differ within their categories answer alike exactly if no
  call of the handler's own store throws, or the same text is thrown.**
-/

namespace StellarForge.Indexer.Health

open Text

/-! ### Store selection -/

/-- Minimum gap between durable-connect attempts after a failure. -/
def DURABLE_RETRY_BACKOFF_MS : ℤ := 30000

/-- The stores. -/
inductive Backend
  | memory
  | postgres
  deriving DecidableEq, Repr

/-- The variables that a durable store is configured by. -/
structure ProcessEnv where
  POSTGRES_URL : Option String
  DATABASE_URL : Option String

/-- The variables of the process that `getStore` keeps. -/
structure Selection where
  cached : Option Backend
  cachedIsDurable : Bool
  lastDurableError : Option String
  lastDurableAttemptAt : ℤ

/-- A call of `getStore`: its time, and what connecting to the durable store would come to. -/
structure Attempt where
  now : ℤ
  connect : Except String Unit

/-- The address of the database. -/
def connectionString (env : ProcessEnv) : Option String := env.POSTGRES_URL <|> env.DATABASE_URL

/-- There is such an address. -/
def isDurableStoreConfigured (env : ProcessEnv) : Bool :=
  (connectionString env).any fun url => url != ""

/-- The state of the store that has been selected. -/
def getStoreHealth (env : ProcessEnv) (selection : Selection) : StoreHealth where
  durableConfigured := isDurableStoreConfigured env
  usingDurableStore := selection.cachedIsDurable
  lastDurableError := selection.lastDurableError

/-- `getStore`, as it leaves the variables; it returns what is then `cached`. -/
def getStore (env : ProcessEnv) (attempt : Attempt) (selection : Selection) : Selection :=
  if selection.cached.isSome && selection.cachedIsDurable then selection
  else if !isDurableStoreConfigured env then
    { selection with
      cached := some (selection.cached.getD .memory)
      cachedIsDurable := false
      lastDurableError := none }
  else if selection.cached.isSome &&
      decide (attempt.now - selection.lastDurableAttemptAt < DURABLE_RETRY_BACKOFF_MS) then selection
  else match attempt.connect with
    | .ok _ => ⟨some .postgres, true, none, attempt.now⟩
    | .error reason => ⟨some (selection.cached.getD .memory), false, some reason, attempt.now⟩

/-! ### Categories of errors -/

/-- What the public endpoint may say of an error. -/
inductive ErrorCategory
  | connection_failed
  | query_timeout
  | unknown
  deriving DecidableEq, Repr

/-- `connect\s+(etimedout|failed)`, at the head of a text. -/
def connectFailureAt (text : List Char) : Bool :=
  (afterPrefix "connect".toList text).any fun rest =>
    rest.head?.any isSpace &&
      ["etimedout", "failed"].any fun word => word.toList.isPrefixOf (rest.dropWhile isSpace)

/-- The category of a recorded error. -/
def sanitizeIndexerError (raw : Option String) : Option ErrorCategory :=
  raw.map fun raw =>
    let lower := toLowerCase raw
    -- the text is in lower case, so that the pattern need not ignore case
    if includesAny lower ["econnrefused", "econnreset", "enotfound", "enetunreach"] ||
        lower.toList.tails.any connectFailureAt ||
        includesAny lower ["connection refused", "connection failed", "could not connect",
          "no hosts available", "getaddrinfo"] then .connection_failed
    else if includesAny lower ["timeout", "timed out", "query timeout"] then .query_timeout
    else .unknown

/-! ### Instants -/

/-- The year, month and day of the day `days` after the first of January 1970. -/
def civilFromDays (days : ℤ) : ℤ × ℤ × ℤ :=
  let z := days + 719468
  let doe := z % 146097
  let yoe := (doe - doe / 1460 + doe / 36524 - doe / 146096) / 365
  let doy := doe - (365 * yoe + yoe / 4 - yoe / 100)
  let mp := (5 * doy + 2) / 153
  let month := if mp < 10 then mp + 3 else mp - 9
  (yoe + z / 146097 * 400 + (if month ≤ 2 then 1 else 0), month, doy - (153 * mp + 2) / 5 + 1)

/-- A number with leading zeros. -/
def padded (width : ℕ) (n : ℤ) : String :=
  String.ofList ((Nat.toDigits 10 n.toNat).leftpad width '0')

/-- `new Date(time).toISOString()` -/
def toISOString (time : ℤ) : Except String String :=
  if 8640000000000000 < time.natAbs then .error "Invalid time value"
  else
    let (year, month, day) := civilFromDays (time / 86400000)
    let ms := time % 86400000
    let years :=
      if 0 ≤ year ∧ year ≤ 9999 then padded 4 year
      else if year < 0 then "-" ++ padded 6 (-year)
      else "+" ++ padded 6 year
    .ok (years ++ "-" ++ padded 2 month ++ "-" ++ padded 2 day ++ "T" ++ padded 2 (ms / 3600000) ++ ":" ++
      padded 2 (ms / 60000 % 60) ++ ":" ++ padded 2 (ms / 1000 % 60) ++ "." ++ padded 3 (ms % 1000) ++ "Z")

example : toISOString 1709210096789 = .ok "2024-02-29T12:34:56.789Z" := by decide

/-! ### The handler -/

/-- Paging threshold. -/
def LAG_CRITICAL_SECONDS : ℤ := 60 * 60

/-- How bad it is. -/
inductive Severity
  | unknown
  | critical
  | warning
  | ok
  deriving DecidableEq, Repr

/-- The severity of a lag. -/
def severityOf : Option ℤ → Severity
  | none => .unknown
  | some lag =>
    if lag > LAG_CRITICAL_SECONDS then .critical
    else if lag > LAG_WARNING_SECONDS then .warning
    else .ok

/-- The report of the endpoint. -/
structure Report where
  healthy : Bool
  severity : Severity
  lagSeconds : Option ℤ
  lastLedger : Option ℕ
  lastRunAt : Option String
  lastError : Option ErrorCategory
  backfillComplete : Bool
  indexedCount : ℕ
  durable : Bool
  durableStoreConnected : Bool
  reconciliationReady : Bool
  reconciliationBlocker : Option ReadinessBlocker
  deriving DecidableEq, Repr

/-- What the endpoint answers. -/
inductive Body
  | refused (error : String)
  | report (report : Report)
  | failed (healthy : Bool) (severity : Severity) (error : String)
  deriving DecidableEq, Repr

/-- The answer, with its status. -/
structure Response where
  status : ℕ
  body : Body
  deriving DecidableEq, Repr

/-- A run of the handler: the request, the process, and what each call of a store comes to.  Other requests
may call `getStore` between the steps of the handler. -/
structure HealthRun where
  method : Option String
  env : ProcessEnv
  selection : Selection
  getStore : Attempt
  getState : Except String IndexerState
  /-- `Date.now()` of `lagSeconds` -/
  now : ℤ
  countTokens : Except String ℕ
  beforeReadiness : List Attempt
  readinessGetStore : Attempt
  duringReadiness : List Attempt
  readinessGetState : Except String IndexerState
  afterReadiness : List Attempt

/-- The calls of `getStore` by other requests. -/
def meanwhile (env : ProcessEnv) (attempts : List Attempt) (selection : Selection) : Selection :=
  attempts.foldl (fun selection attempt => Health.getStore env attempt selection) selection

namespace HealthRun

/-- The selection that the readiness check looks at. -/
def readinessSelection (run : HealthRun) : Selection :=
  let selection := Health.getStore run.env run.getStore run.selection
  let selection := meanwhile run.env run.beforeReadiness selection
  let selection := Health.getStore run.env run.readinessGetStore selection
  meanwhile run.env run.duringReadiness selection

/-- What the reconciliation would be told. -/
def readiness (run : HealthRun) : ReconciliationReadiness :=
  checkReconciliationReadiness (getStoreHealth run.env run.readinessSelection) run.readinessGetState
    run.readinessGetStore.now

/-- The health of the store, which may have been selected anew by then. -/
def storeHealth (run : HealthRun) : StoreHealth :=
  getStoreHealth run.env (meanwhile run.env run.afterReadiness run.readinessSelection)

/-- The `try` block. -/
def answer (run : HealthRun) : Except String Response := do
  let state ← run.getState
  let lag := Indexer.lagSeconds state run.now
  let indexedCount ← run.countTokens
  let sanitizedError := sanitizeIndexerError state.lastError
  let healthy := isDurableStoreConfigured run.env && state.lastRunAt.isSome && sanitizedError.isNone &&
    lag.any fun lag => decide (lag ≤ LAG_CRITICAL_SECONDS)
  -- the instant zero is falsy
  let lastRunAt ← (state.lastRunAt.filter (· != 0)).mapM toISOString
  return {
    status := if healthy then 200 else 503
    body := .report {
      healthy := healthy
      severity := severityOf lag
      lagSeconds := lag
      lastLedger := state.lastLedger
      lastRunAt := lastRunAt
      lastError := sanitizedError
      backfillComplete := state.backfillComplete
      indexedCount := indexedCount
      durable := isDurableStoreConfigured run.env
      durableStoreConnected := run.storeHealth.usingDurableStore
      reconciliationReady := run.readiness.ready
      reconciliationBlocker := run.readiness.blocker } }

end HealthRun

/-- The endpoint. -/
def handler (run : HealthRun) : Response :=
  if run.method = some "GET" then
    match run.answer with
    | .ok response => response
    | .error message => ⟨503, .failed false .critical message⟩
  else ⟨405, .refused "Method not allowed"⟩

/-! ### Runs that differ in error texts only -/

/-- Two texts of one category, or no text on both sides. -/
def SameCategory (raw raw' : Option String) : Prop :=
  sanitizeIndexerError raw = sanitizeIndexerError raw'

/-- Two calls that both return, or both throw texts of one category. -/
inductive SameCall {α : Type} (R : α → α → Prop) : Except String α → Except String α → Prop
  | returned {a a' : α} : R a a' → SameCall R (.ok a) (.ok a')
  | threw {reason reason' : String} : SameCategory (some reason) (some reason') →
      SameCall R (.error reason) (.error reason')

/-- The states differ in their error at most, and there only within a category. -/
structure SameState (state state' : IndexerState) : Prop where
  lastCursor : state.lastCursor = state'.lastCursor
  lastLedger : state.lastLedger = state'.lastLedger
  lastLedgerCloseTime : state.lastLedgerCloseTime = state'.lastLedgerCloseTime
  lastRunAt : state.lastRunAt = state'.lastRunAt
  lastError : SameCategory state.lastError state'.lastError
  backfillComplete : state.backfillComplete = state'.backfillComplete

/-- The selections differ in their error at most, likewise. -/
structure SameSelection (selection selection' : Selection) : Prop where
  cached : selection.cached = selection'.cached
  cachedIsDurable : selection.cachedIsDurable = selection'.cachedIsDurable
  lastDurableError : SameCategory selection.lastDurableError selection'.lastDurableError
  lastDurableAttemptAt : selection.lastDurableAttemptAt = selection'.lastDurableAttemptAt

/-- The attempts to connect differ in what they throw at most. -/
structure SameAttempt (attempt attempt' : Attempt) : Prop where
  now : attempt.now = attempt'.now
  connect : SameCall Eq attempt.connect attempt'.connect

/-- The runs differ in the texts of their errors at most. -/
structure SameRun (run run' : HealthRun) : Prop where
  method : run.method = run'.method
  env : run.env = run'.env
  selection : SameSelection run.selection run'.selection
  getStore : SameAttempt run.getStore run'.getStore
  getState : SameCall SameState run.getState run'.getState
  now : run.now = run'.now
  countTokens : SameCall Eq run.countTokens run'.countTokens
  beforeReadiness : List.Forall₂ SameAttempt run.beforeReadiness run'.beforeReadiness
  readinessGetStore : SameAttempt run.readinessGetStore run'.readinessGetStore
  duringReadiness : List.Forall₂ SameAttempt run.duringReadiness run'.duringReadiness
  readinessGetState : SameCall SameState run.readinessGetState run'.readinessGetState
  afterReadiness : List.Forall₂ SameAttempt run.afterReadiness run'.afterReadiness

variable {env : ProcessEnv} {selection selection' : Selection} {attempt attempt' : Attempt}
  {attempts attempts' : List Attempt} {state state' : IndexerState} {run run' : HealthRun} {now : ℤ}

/-- Attempts that differ in their errors select the same store. -/
theorem getStore_same (ha : SameAttempt attempt attempt') (hs : SameSelection selection selection') :
    SameSelection (getStore env attempt selection) (getStore env attempt' selection') := by
  obtain ⟨now, connect⟩ := attempt
  obtain ⟨now', connect'⟩ := attempt'
  obtain ⟨rfl, hconnect⟩ : now = now' ∧ SameCall Eq connect connect' := ⟨ha.now, ha.connect⟩
  unfold getStore
  rw [← hs.cached, ← hs.cachedIsDurable, ← hs.lastDurableAttemptAt]
  split_ifs
  · exact hs
  · exact ⟨rfl, rfl, rfl, rfl⟩
  · exact hs
  · cases hconnect with
    | returned => exact ⟨rfl, rfl, rfl, rfl⟩
    | threw hcategory => exact ⟨rfl, rfl, hcategory, rfl⟩

theorem meanwhile_same (ha : List.Forall₂ SameAttempt attempts attempts')
    (hs : SameSelection selection selection') :
    SameSelection (meanwhile env attempts selection) (meanwhile env attempts' selection') := by
  induction ha generalizing selection selection' with
  | nil => exact hs
  | cons ha _ ih => exact ih (getStore_same ha hs)

theorem lagSeconds_same (h : SameState state state') : lagSeconds state now = lagSeconds state' now := by
  rw [lagSeconds, lagSeconds, h.lastLedgerCloseTime]

/-- What readiness says without its detail. -/
theorem checkReconciliationReadiness_same {getState getState' : Except String IndexerState}
    (hs : SameSelection selection selection') (h : SameCall SameState getState getState') :
    let readiness := checkReconciliationReadiness (getStoreHealth env selection) getState now
    let readiness' := checkReconciliationReadiness (getStoreHealth env selection') getState' now
    readiness.ready = readiness'.ready ∧ readiness.blocker = readiness'.blocker := by
  -- readiness looks at the kind of the store only, not at why it was chosen
  have hdurable : (getStoreHealth env selection).usingDurableStore =
      (getStoreHealth env selection').usingDurableStore := hs.cachedIsDurable
  have hconfigured : (getStoreHealth env selection).durableConfigured =
      (getStoreHealth env selection').durableConfigured := rfl
  dsimp only
  unfold checkReconciliationReadiness
  rw [← hdurable, ← hconfigured]
  by_cases hdegraded : ((getStoreHealth env selection).durableConfigured &&
      !(getStoreHealth env selection).usingDurableStore) = true
  · rw [if_pos hdegraded, if_pos hdegraded]
    exact ⟨rfl, rfl⟩
  · rw [if_neg hdegraded, if_neg hdegraded]
    cases h with
    | threw => exact ⟨rfl, rfl⟩
    | returned hstate =>
      dsimp only
      rw [← lagSeconds_same hstate, ← hstate.lastRunAt, ← hstate.backfillComplete]
      exact ⟨rfl, rfl⟩

/-! ### What is published of an error -/

/-- The text that the first of the handler's own calls of the store throws. -/
def HealthRun.thrown (run : HealthRun) : Option String :=
  if run.method = some "GET" then
    match run.getState, run.countTokens with
    | .error message, _ => some message
    | .ok _, .error message => some message
    | .ok _, .ok _ => none
  else none

theorem SameRun.readinessSelection (h : SameRun run run') :
    SameSelection run.readinessSelection run'.readinessSelection := by
  unfold HealthRun.readinessSelection
  rw [← h.env]
  exact meanwhile_same h.duringReadiness (getStore_same h.readinessGetStore
    (meanwhile_same h.beforeReadiness (getStore_same h.getStore h.selection)))

theorem SameRun.readiness (h : SameRun run run') : run.readiness.ready = run'.readiness.ready ∧
    run.readiness.blocker = run'.readiness.blocker := by
  unfold HealthRun.readiness
  rw [← h.env, ← h.readinessGetStore.now]
  exact checkReconciliationReadiness_same h.readinessSelection h.readinessGetState

theorem SameRun.usingDurableStore (h : SameRun run run') :
    run.storeHealth.usingDurableStore = run'.storeHealth.usingDurableStore := by
  unfold HealthRun.storeHealth
  rw [← h.env]
  exact (meanwhile_same h.afterReadiness h.readinessSelection).cachedIsDurable

/-- Where the store answers, an error stands by its category. -/
theorem answer_same (h : SameRun run run') {indexedCount : ℕ} (hs : SameState state state')
    (hstate : run.getState = .ok state) (hstate' : run'.getState = .ok state')
    (hcount : run.countTokens = .ok indexedCount) (hcount' : run'.countTokens = .ok indexedCount) :
    run.answer = run'.answer := by
  unfold HealthRun.answer
  rw [hstate, hstate', hcount, hcount', h.usingDurableStore, h.readiness.1, h.readiness.2, ← h.now,
    ← h.env]
  simp only [bind, Except.bind]
  rw [lagSeconds_same hs, hs.lastRunAt, hs.lastLedger, hs.backfillComplete, hs.lastError]

theorem answer_of_getState {message : String} (hstate : run.getState = .error message) :
    run.answer = .error message := by
  rw [HealthRun.answer, hstate]
  rfl

theorem answer_of_countTokens {message : String} (hstate : run.getState = .ok state)
    (hcount : run.countTokens = .error message) : run.answer = .error message := by
  rw [HealthRun.answer, hstate, hcount]
  rfl

theorem failed_inj {message message' : String} :
    (⟨503, .failed false .critical message⟩ : Response) = ⟨503, .failed false .critical message'⟩ ↔
      some message = some message' := by
  rw [Response.mk.injEq, Body.failed.injEq, Option.some.injEq]
  exact ⟨fun h => h.2.2.2, fun h => ⟨rfl, rfl, rfl, h⟩⟩

/-- **What the health of the indexer says of an error.**  Two runs whose error texts differ within their
categories answer alike exactly if none of the handler's own calls of the store throws, or the same text is
thrown. -/
theorem handler_eq_iff (h : SameRun run run') : handler run = handler run' ↔ run.thrown = run'.thrown := by
  unfold handler HealthRun.thrown
  rw [← h.method]
  split_ifs
  · -- either call may throw, and then the text of the error is all that is published
    have hgetState := h.getState
    generalize hstate : run.getState = getState at hgetState ⊢
    generalize hstate' : run'.getState = getState' at hgetState ⊢
    cases hgetState with
    | threw =>
      rw [answer_of_getState hstate, answer_of_getState hstate']
      exact failed_inj
    | returned hs =>
      have hcountTokens := h.countTokens
      generalize hcount : run.countTokens = countTokens at hcountTokens ⊢
      generalize hcount' : run'.countTokens = countTokens' at hcountTokens ⊢
      cases hcountTokens with
      | threw =>
        rw [answer_of_countTokens hstate hcount, answer_of_countTokens hstate' hcount']
        exact failed_inj
      | returned heq =>
        rw [answer_same h hs hstate hstate' hcount (heq ▸ hcount')]
        exact iff_of_true rfl rfl
  · exact iff_of_true rfl rfl

/-- A request to a new process, where the store of the handler gives `getState`. -/
def sampleRun (getState : Except String IndexerState) : HealthRun where
  method := some "GET"
  env := ⟨some "postgres://localhost/indexer", none⟩
  selection := ⟨none, false, none, 0⟩
  getStore := ⟨60000, .ok ()⟩
  getState := getState
  now := 60001
  countTokens := .ok 3
  beforeReadiness := []
  readinessGetStore := ⟨60002, .ok ()⟩
  duringReadiness := []
  readinessGetState := getState
  afterReadiness := []

theorem SameRun.sample {getState getState' : Except String IndexerState}
    (h : SameCall SameState getState getState') : SameRun (sampleRun getState) (sampleRun getState') where
  method := rfl
  env := rfl
  selection := ⟨rfl, rfl, rfl, rfl⟩
  getStore := ⟨rfl, .returned rfl⟩
  getState := h
  now := rfl
  countTokens := .returned rfl
  beforeReadiness := .nil
  readinessGetStore := ⟨rfl, .returned rfl⟩
  duringReadiness := .nil
  readinessGetState := h
  afterReadiness := .nil

theorem sameCategory_hosts :
    SameCategory (some "ECONNREFUSED 10.0.0.1") (some "ECONNREFUSED 10.0.0.2") := by
  rw [SameCategory]
  decide

/-- An error that is stored stands by its category. -/
theorem handler_eq_iff_stored :
    handler (sampleRun (.ok { lastError := some "ECONNREFUSED 10.0.0.1" })) =
      handler (sampleRun (.ok { lastError := some "ECONNREFUSED 10.0.0.2" })) := by
  have hsame : SameState { lastError := some "ECONNREFUSED 10.0.0.1" }
      { lastError := some "ECONNREFUSED 10.0.0.2" } := ⟨rfl, rfl, rfl, rfl, sameCategory_hosts, rfl⟩
  apply (handler_eq_iff (.sample (.returned hsame))).mpr
  decide

/-- An error that the store throws is published as it is. -/
theorem handler_publishes_thrown :
    ¬ ∀ run run' : HealthRun, SameRun run run' → handler run = handler run' := by
  intro h
  have heq := h _ _ (.sample (.threw sameCategory_hosts))
  revert heq
  decide

end StellarForge.Indexer.Health
