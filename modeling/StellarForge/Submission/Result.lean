import StellarForge.Submission.Errors

/-!
# Decoding a rejected transaction

The XDR library hands the front end parsed unions; `TransactionResult`, `ScVal` and
`DiagnosticEvent` hold what the decoder reads of them.
-/

namespace StellarForge.Submission

/-! ### Parsed XDR -/

/-- The result of one operation: its own code, or the result union of `opInner`. -/
inductive OperationResult
  | outer (code : String)
  | opInner (arm : Option String) (operation : String)
  | unreadable
  deriving DecidableEq, Repr

/-- The result of the transaction inside a fee bump. -/
inductive InnerResult
  | failed (results : List OperationResult)
  | code (name : String)
  deriving DecidableEq, Repr

/-- A result of a transaction, decoded. -/
inductive TransactionResult
  | feeBumpInnerFailed (inner : InnerResult)
  | failed (results : List OperationResult)
  | code (name : String)
  | unreadable
  deriving DecidableEq, Repr

/-- A contract value, as far as an error code can be buried in it: of a map only the values are
walked. -/
inductive ScVal
  | contractError (code : ℕ)
  | vec (items : List ScVal)
  | map (values : List ScVal)
  | other

/-- A diagnostic event, decoded. -/
structure DiagnosticEvent where
  version : ℕ
  topics : List ScVal
  data : ScVal

/-! ### Tables -/

/-- The texts for the codes of a transaction. -/
def TRANSACTION_RESULT_MESSAGES : List (String × String) := [
  ("txInsufficientFee",
    "The network fee offered was below the minimum the network accepted for this ledger. " ++
      "Submit again with a higher fee."),
  ("txInsufficientBalance",
    "Your XLM balance is too low to cover this transaction and its reserves."),
  ("txBadSeq",
    "The transaction used an out-of-date sequence number. Refresh and build the " ++
      "transaction again."),
  ("txBadAuth", "The transaction was not signed by the required account(s)."),
  ("txBadAuthExtra", "The transaction carried a signature that was not needed."),
  ("txNoAccount", "The source account does not exist on this network."),
  ("txTooEarly", "The transaction was submitted before its time bounds opened."),
  ("txTooLate", "The transaction was submitted after its time bounds expired."),
  ("txMissingOperation", "The transaction contained no operations."),
  ("txSorobanInvalid", "The Soroban resources declared for this transaction were invalid."),
  ("txMalformed", "The transaction envelope was malformed.")]

/-- The texts for the codes of an operation. -/
def OPERATION_RESULT_MESSAGES : List (String × String) := [
  ("invokeHostFunctionTrapped",
    "The contract rejected the call and the transaction was reverted."),
  ("invokeHostFunctionMalformed", "The contract call was malformed and could not be executed."),
  ("invokeHostFunctionResourceLimitExceeded",
    "The contract call exceeded the network resource limits. Try again with a smaller batch."),
  ("invokeHostFunctionEntryArchived",
    "Contract data needed by this call has been archived and must be restored first."),
  ("opBadAuth", "The operation was not signed by the required account."),
  ("opNoAccount", "The source account for the operation does not exist."),
  ("opNotSupported", "The network does not support this operation."),
  ("opExceededWorkLimit", "The operation exceeded the network work limit."),
  ("extendFootprintTtlResourceLimitExceeded",
    "Extending the contract data lifetime exceeded the network resource limits."),
  ("restoreFootprintResourceLimitExceeded",
    "Restoring the archived contract data exceeded the network resource limits.")]

/-- The text where no code says more. -/
def GENERIC_FAILURE : String := "The network rejected the transaction"

/-! ### The contract's own code -/

mutual

/-- Depth-limited walk for the contract error buried in a value. -/
def contractErrorCodeFromScVal (depth : ℕ) : ScVal → Option ℕ
  | .contractError code => if depth > 4 then none else some code
  | .vec items => if depth > 4 then none else contractErrorCodeFromScVals (depth + 1) items
  | .map values => if depth > 4 then none else contractErrorCodeFromScVals (depth + 1) values
  | .other => none

/-- The first code found in a list of values. -/
def contractErrorCodeFromScVals (depth : ℕ) : List ScVal → Option ℕ
  | [] => none
  | item :: items =>
    (contractErrorCodeFromScVal depth item).or (contractErrorCodeFromScVals depth items)

end

/-- The topics of an event come before its data; only version `0` of the body is read. -/
def DiagnosticEvent.contractErrorCode (event : DiagnosticEvent) : Option ℕ :=
  if event.version ≠ 0 then none
  else (contractErrorCodeFromScVals 0 event.topics).or (contractErrorCodeFromScVal 0 event.data)

/-- The first code carried by the events; an event that does not parse is skipped. -/
def contractErrorCodeFromDiagnosticEvents (events : List (Option DiagnosticEvent)) : Option ℕ :=
  events.findSome? fun event => event.bind DiagnosticEvent.contractErrorCode

/-! ### Result codes -/

/-- The code of an operation, none where the result cannot be read. -/
def operationResultCode : OperationResult → Option String
  | .outer code => some code
  | .opInner arm operation => some (arm.getD operation)
  | .unreadable => none

/-- The transaction code and the operation codes of a result. -/
def transactionResultCodes : TransactionResult → Option String × List String
  | .feeBumpInnerFailed (.failed results) =>
    (some "txFeeBumpInnerFailed", results.filterMap operationResultCode)
  | .feeBumpInnerFailed (.code name) => (some "txFeeBumpInnerFailed", [name])
  | .failed results => (some "txFailed", results.filterMap operationResultCode)
  | .code name => (some name, [])
  | .unreadable => (none, [])

/-! ### The verdict -/

/-- What a failed transaction says. -/
structure DecodedTransactionFailure where
  message : String
  contractErrorCode : Option ℕ
  transactionCode : Option String
  operationCodes : List String
  deterministic : Bool
  retryRequirement : Option String
  deriving DecidableEq, Repr

/-- The code of the contract says the most; a text that names it comes next, and the result codes
are the backstop. -/
def decodeTransactionFailure (result : Option TransactionResult)
    (diagnosticEvents : List (Option DiagnosticEvent)) (fallbackMessage : Option String) :
    DecodedTransactionFailure :=
  let (transactionCode, operationCodes) := (result.map transactionResultCodes).getD (none, [])
  -- the code of the contract is looked for in the events first, then in the text
  match (contractErrorCodeFromDiagnosticEvents diagnosticEvents).or
      (contractErrorCodeFromMessage fallbackMessage) with
  | some code =>
    let deterministic := isDeterministicContractError code
    { message := contractErrorMessage code
      contractErrorCode := some code
      transactionCode, operationCodes, deterministic
      retryRequirement :=
        if deterministic then contractErrorRetryRequirement code else none }
  | none =>
    let fromOperation := operationCodes.findSome? fun code => OPERATION_RESULT_MESSAGES.lookup code
    let fromTransaction := transactionCode.bind fun code => TRANSACTION_RESULT_MESSAGES.lookup code
    let named := transactionCode.map fun name =>
      "The network rejected the transaction (" ++ ": ".intercalate (name :: operationCodes) ++ ")."
    { message :=
        (fromOperation.or (fromTransaction.or (fallbackMessage.or named))).getD GENERIC_FAILURE
      contractErrorCode := none
      transactionCode, operationCodes
      deterministic := false
      retryRequirement := none }

end StellarForge.Submission
