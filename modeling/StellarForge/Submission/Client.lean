import StellarForge.Submission.Result

/-!
# Submission of a signed envelope

`submitAndConfirm` sends the envelope until the node accepts it and then polls for its inclusion.
Between two awaited calls it is in one of the phases of `Phase`; `sendAttempt` and `pollAttempt`
are the bodies of the two loops, from the answer of one call to the next call or to the end.
-/

namespace StellarForge.Submission

/-! ### Statuses and errors -/

/-- Terminal statuses that a failed submission can carry. -/
inductive TransactionFailureStatus
  | failed
  | dropped
  | expired
  | unconfirmed
  deriving DecidableEq, Repr

/-- What `onStatus` is told. -/
inductive TransactionLifecycleStatus
  | submitting
  | submitted
  | retrying
  | polling
  | confirmed
  | failure (status : TransactionFailureStatus)
  deriving DecidableEq, Repr

/-- Whether re-signing and resubmitting is meant to be free of double-execution risk. -/
def RETRY_SAFETY : TransactionFailureStatus → Bool
  | .dropped | .expired | .failed => true
  | .unconfirmed => false

/-- The options of the error's constructor. -/
structure ErrorOptions where
  txHash : Option String := none
  attempts : Option ℕ := none
  cause : Option Thrown := none
  contractErrorCode : Option ℕ := none
  retryRequirement : Option String := none
  deterministic : Bool := false

/-- The error of a submission, and whether sending again cannot apply the call twice. -/
structure TransactionSubmissionError where
  status : TransactionFailureStatus
  message : String
  safeToRetry : Bool
  contractErrorCode : Option ℕ
  retryRequirement : Option String
  txHash : Option String
  attempts : Option ℕ
  cause : Option Thrown
  deriving DecidableEq, Repr

/-- The constructor of the class. -/
def submissionError (status : TransactionFailureStatus) (message : String)
    (options : ErrorOptions) : TransactionSubmissionError where
  status := status
  message := message
  safeToRetry := RETRY_SAFETY status && !options.deterministic
  contractErrorCode := options.contractErrorCode
  retryRequirement := options.retryRequirement
  txHash := options.txHash
  attempts := options.attempts
  cause := options.cause

/-- What `submitAndConfirm` can reject with.  `isTransientError` throws a `TypeError` of its own on
an error whose `code` is not a string, and nothing catches that one. -/
inductive Failure
  | submission (error : TransactionSubmissionError)
  | typeError
  deriving DecidableEq, Repr

/-! ### Bounds of an envelope -/

/-- A transaction: the upper ends of its bounds, where it has any.  `0` means unbounded. -/
structure Transaction where
  maxTime : Option ℕ
  maxLedger : Option ℕ
  deriving DecidableEq, Repr

/-- What the wallet has signed. -/
inductive SignedTransaction
  | transaction (tx : Transaction)
  | feeBump (innerTransaction : Transaction)
  deriving DecidableEq, Repr

/-- After which ledger or time the transaction can no longer be included. -/
structure InclusionDeadline where
  maxLedger : Option ℕ
  maxTime : Option ℕ
  deriving DecidableEq, Repr

/-- A fee bump inherits the bounds of its inner transaction. -/
def inclusionDeadlineOf (signedTx : SignedTransaction) : InclusionDeadline :=
  let inner := match signedTx with
    | .transaction tx => tx
    | .feeBump innerTransaction => innerTransaction
  { maxTime := inner.maxTime.filter (0 < ·)
    maxLedger := inner.maxLedger.filter (0 < ·) }

/-! ### Answers of the node -/

/-- The statuses of `sendTransaction`. -/
inductive SendStatus
  | PENDING
  | DUPLICATE
  | TRY_AGAIN_LATER
  | ERROR
  | other (status : String)
  deriving DecidableEq, Repr

/-- An absent hash is the empty string. -/
structure SendTransactionResponse where
  status : SendStatus
  hash : String
  errorResult : Option TransactionResult
  diagnosticEvents : List (Option DiagnosticEvent)

/-- The statuses of `getTransaction`. -/
inductive GetTransactionStatus
  | SUCCESS
  | FAILED
  | NOT_FOUND
  deriving DecidableEq, Repr

/-- The latest ledger is `none` where the answer has no finite number. -/
structure GetTransactionResponse where
  status : GetTransactionStatus
  latestLedger : Option ℕ
  latestLedgerCloseTime : Option ℕ
  resultXdr : Option TransactionResult
  diagnosticEventsXdr : List (Option DiagnosticEvent)

/-- The first number is there, the second one too, and the first is the greater. -/
def exceeds (latest bound : Option ℕ) : Bool :=
  latest.any fun l => bound.any fun b => b < l

/-- The network has moved past the bounds. -/
def deadlinePassed (deadline : InclusionDeadline) (response : GetTransactionResponse) : Bool :=
  exceeds response.latestLedger deadline.maxLedger ||
    exceeds response.latestLedgerCloseTime deadline.maxTime

/-- The options of a submission. -/
structure SubmitOptions where
  maxSendAttempts : ℕ := 5
  maxConsecutiveTransportErrors : ℕ := 5
  maxPollDurationMs : ℤ := 120000

/-! ### Sending -/

/-- The variables of the attempt loop. -/
structure SendState where
  attempt : ℕ := 0
  lastHash : Option String := none
  tryAgainCount : ℕ := 0

/-- `PENDING` for a fresh envelope, `DUPLICATE` if it was already in flight. -/
structure SendResult where
  hash : String
  duplicate : Bool
  attempts : ℕ

/-- A step of a loop: go round again, leave with a result, or throw. -/
inductive LoopStep (σ α : Type)
  | again (s : σ)
  | done (a : α)
  | throws (failure : Failure)

/-- A value after the calls of `onStatus` that led to it. -/
abbrev Reporting (α : Type) := List TransactionLifecycleStatus × α

/-- Report the status and throw the error that carries it. -/
def failWith {σ α : Type} (status : TransactionFailureStatus) (message : String)
    (options : ErrorOptions) : Reporting (LoopStep σ α) :=
  ([.failure status], .throws (.submission (submissionError status message options)))

/-- A hash, where the answer carries one. -/
def hash? (hash : String) : Option String :=
  if hash = "" then none else some hash

/-- The options that carry a decoded rejection into the error. -/
def failureOptions (decoded : DecodedTransactionFailure) (txHash : Option String)
    (attempts : Option ℕ) : ErrorOptions :=
  { txHash, attempts
    contractErrorCode := decoded.contractErrorCode
    retryRequirement := decoded.retryRequirement
    deterministic := decoded.deterministic }

/-- After the loop: the budget is used up. -/
def sendExhausted (options : SubmitOptions) (s : SendState) :
    Reporting (LoopStep SendState SendResult) :=
  failWith .dropped
    ("The network was too busy to accept the transaction (TRY_AGAIN_LATER) after " ++
      toString options.maxSendAttempts ++ " attempt" ++
      (if options.maxSendAttempts = 1 then "" else "s") ++
      ". It never reached the ledger, so nothing was " ++
      "charged and no tokens were affected — you can safely try again.")
    { txHash := s.lastHash
      attempts := if s.tryAgainCount = 0 then options.maxSendAttempts else s.tryAgainCount }

/-- The head of the loop. -/
def sendLoop (options : SubmitOptions) (s : SendState) :
    Reporting (LoopStep SendState SendResult) :=
  if s.attempt < options.maxSendAttempts then ([], .again s) else sendExhausted options s

/-- Report `retrying`, sleep and `continue`. -/
def retrySending (options : SubmitOptions) (s : SendState) :
    Reporting (LoopStep SendState SendResult) :=
  let (statuses, next) := sendLoop options { s with attempt := s.attempt + 1 }
  (.retrying :: statuses, next)

/-- The body of the loop of `sendSignedTransaction`, once its call has settled. -/
def sendAttempt (options : SubmitOptions) (s : SendState) :
    Except Thrown SendTransactionResponse → Reporting (LoopStep SendState SendResult)
  -- an error of the transport: which of them may be retried is decided elsewhere
  | .error err =>
    match isTransientError err with
    | none => ([], .throws .typeError)
    | some false =>
      failWith .dropped (parseContractError err) { attempts := some (s.attempt + 1) }
    | some true =>
      if s.attempt + 1 = options.maxSendAttempts then
        failWith .unconfirmed
          ("The transaction could not be submitted reliably — the network connection failed " ++
            "after " ++ toString options.maxSendAttempts ++
            " attempts. It may still have been accepted; check the " ++
            "explorer before submitting it again.")
          { attempts := some (s.attempt + 1), cause := some err }
      else
        retrySending options s
  | .ok response =>
    let s := { s with lastHash := (hash? response.hash).or s.lastHash }
    -- the four answers of the protocol; an unknown one is reported, not retried
    match response.status with
    | .PENDING => ([.submitted], .done ⟨response.hash, false, s.attempt + 1⟩)
    | .DUPLICATE => ([.submitted], .done ⟨response.hash, true, s.attempt + 1⟩)
    | .TRY_AGAIN_LATER =>
      let s := { s with tryAgainCount := s.tryAgainCount + 1 }
      if s.attempt + 1 = options.maxSendAttempts then
        sendExhausted options s
      else
        retrySending options s
    | .ERROR =>
      let decoded := decodeTransactionFailure response.errorResult response.diagnosticEvents none
      failWith .failed decoded.message
        (failureOptions decoded (hash? response.hash) (some (s.attempt + 1)))
    | .other status =>
      failWith .unconfirmed
        ("The RPC server returned an unrecognised submission status \"" ++ status ++ "\". " ++
          "Check the transaction in a block explorer before retrying.")
        { txHash := hash? response.hash, attempts := some (s.attempt + 1) }

/-! ### Polling -/

/-- The variables of the polling loop. -/
structure PollState where
  hash : String
  startedAt : ℤ
  consecutiveTransportErrors : ℕ := 0

/-- The body of the loop of `awaitTransactionInclusion`, once its call has settled. -/
def pollAttempt (options : SubmitOptions) (deadline : InclusionDeadline) (p : PollState) (now : ℤ) :
    Except Thrown GetTransactionResponse → Reporting (LoopStep PollState GetTransactionResponse)
  | .error err =>
    -- an error counts as one more in a row, an answer starts the count again
    let p := { p with consecutiveTransportErrors := p.consecutiveTransportErrors + 1 }
    match isTransientError err with
    | none => ([], .throws .typeError)
    | some transient =>
      if transient ∧ p.consecutiveTransportErrors ≤ options.maxConsecutiveTransportErrors then
        ([], .again p)
      else
        failWith .unconfirmed
          ("The transaction was submitted, but its status could not be read from the network (" ++
            err.text ++ "). It may still be confirmed — " ++
            "check the explorer before submitting it again.")
          { txHash := some p.hash, cause := some err }
  | .ok response =>
    let p := { p with consecutiveTransportErrors := 0 }
    match response.status with
    | .SUCCESS => ([.confirmed], .done response)
    | .FAILED =>
      let decoded := decodeTransactionFailure response.resultXdr response.diagnosticEventsXdr
        (some ("Transaction failed: " ++ p.hash))
      failWith .failed decoded.message (failureOptions decoded (some p.hash) none)
    | .NOT_FOUND =>
      -- only time bounds let an unknown transaction be called expired
      let hasDeadline := deadline.maxLedger.isSome || deadline.maxTime.isSome
      if hasDeadline && deadlinePassed deadline response then
        failWith .expired
          ("The transaction expired before it was included in a ledger. Its time bounds have " ++
            "passed, so it can never be applied — no funds moved and it is safe to try again.")
          { txHash := some p.hash }
      else if !hasDeadline && options.maxPollDurationMs ≤ now - p.startedAt then
        failWith .unconfirmed
          ("The transaction was submitted but has not been confirmed yet, and it carries no time " ++
            "bounds to prove it expired. Check the explorer before submitting it again.")
          { txHash := some p.hash }
      else
        ([], .again p)

/-! ### The whole submission -/

/-- Where `submitAndConfirm` waits, or how it ended. -/
inductive Phase
  | sending (s : SendState)
  | polling (p : PollState)
  | settled (result : Except Failure (String × GetTransactionResponse))

/-- Where a step of the attempt loop leads: an accepted envelope is polled for by its hash. -/
def Phase.afterSend (now : ℤ) : Reporting (LoopStep SendState SendResult) → Reporting Phase
  | (statuses, .again s) => (statuses, .sending s)
  | (statuses, .done r) =>
    (statuses ++ [.polling], .polling { hash := r.hash, startedAt := now })
  | (statuses, .throws f) => (statuses, .settled (.error f))

/-- Where a step of the polling loop leads. -/
def Phase.afterPoll (hash : String) :
    Reporting (LoopStep PollState GetTransactionResponse) → Reporting Phase
  | (statuses, .again p) => (statuses, .polling p)
  | (statuses, .done response) => (statuses, .settled (.ok (hash, response)))
  | (statuses, .throws f) => (statuses, .settled (.error f))

/-- `submitAndConfirm` up to its first awaited call. -/
def submitAndConfirm (options : SubmitOptions) : Reporting Phase :=
  let (statuses, phase) := Phase.afterSend 0 (sendLoop options {})
  (.submitting :: statuses, phase)

/-! ### The form that links metadata -/

/-- The `catch` of `handleConfirm`: whether the uploaded pins are reclaimed. -/
def reclaimsUpload : Failure → Bool
  | .submission error => error.safeToRetry
  | .typeError => true

end StellarForge.Submission
