import StellarForge.Collections.Text

/-!
# Errors of a call

The front end reads two kinds of error: a code of the contract's `Error` enumeration, found in the
diagnostic events of a rejected transaction or in a text, and a thrown value, of which
`isTransientError` says whether the request is worth repeating.
-/

namespace StellarForge.Submission

open Text

/-! ### Contract error codes -/

/-- The text shown for each code of the contract's `Error` enumeration. -/
def CONTRACT_ERROR_MESSAGES : List (ℕ × String) := [
  (1, "Insufficient fee payment. Please increase the fee amount."),
  (2, "Unauthorized. You do not have permission to perform this action."),
  (3, "Invalid parameters provided."),
  (4, "Token not found."),
  (5, "Metadata has already been set for this token."),
  (6, "Contract is already initialized."),
  (7, "Burn amount exceeds your token balance."),
  (8, "Burning is not enabled for this token."),
  (9, "Invalid burn amount. Must be greater than zero."),
  (10, "Contract is paused. Please try again later."),
  (11, "A concurrent operation is in progress. Please try again in a moment."),
  (12, "Arithmetic overflow. One of the amounts provided is too large."),
  (13, "Contract state not found. The factory may not be initialized."),
  (14, "Invalid token name or symbol. Name must be 1–32 and symbol 1–12 characters."),
  (15, "Invalid decimals. Must be between 0 and 18."),
  (16, "Mint would exceed the token’s maximum supply."),
  (17, "Invalid fee split. The basis points must sum to 10,000."),
  (18, "Too many fee split recipients."),
  (19, "Supply back-fill has already been applied to this token."),
  (20, "Your address is not on the whitelist for token creation."),
  (21, "Invalid metadata URI. It must be a non-empty ipfs:// URI within the length limit."),
  (22, "Fee split contains a recipient with a zero share."),
  (23, "Metadata is frozen and can no longer be updated."),
  (24, "A fee transfer to the treasury failed. The transaction cannot proceed."),
  (25, "Batch size exceeds the maximum allowed (20 tokens per batch)."),
  (26, "No pending admin proposal found, or the caller is not the proposed address."),
  (27, "The pending admin proposal has expired. The current admin must open a new proposal.")]

/-- What has to change before the same call could succeed. -/
def CONTRACT_ERROR_REQUIREMENTS : List (ℕ × String) := [
  (1, "Send at least the factory’s current creation fee with the call."),
  (2, "Sign with the account that administers this token or factory."),
  (3, "Correct the parameters before submitting again."),
  (4, "Use a token address that exists on this network."),
  (5, "Metadata can only be set once — deploy a new token to change it."),
  (6, "The factory is already initialized; no further initialization is possible."),
  (7, "Burn an amount at or below your current balance."),
  (8, "Burning is disabled for this token and cannot be enabled after deployment."),
  (9, "Enter a burn amount greater than zero."),
  (10, "An administrator has to unpause the factory before this call can succeed."),
  (12, "Use a smaller amount — the current one overflows the contract’s arithmetic."),
  (13, "The factory has to be initialized before this call can succeed."),
  (14, "Use a name of 1–32 characters and a symbol of 1–12 characters."),
  (15, "Use a decimals value between 0 and 18."),
  (16, "Mint an amount that keeps total supply at or below the token’s maximum supply."),
  (17, "Adjust the fee split so the basis points sum to exactly 10,000."),
  (18, "Reduce the number of fee split recipients."),
  (19, "The supply back-fill has already been applied and cannot run twice."),
  (20, "An administrator has to add your address to the creation whitelist."),
  (21, "Provide a non-empty ipfs:// metadata URI within the length limit."),
  (22, "Remove the fee split recipient with a zero share."),
  (23, "Metadata is frozen for this token and can no longer be updated."),
  (24, "Check the treasury address configuration — the fee payment could not be routed."),
  (25, "Reduce the batch to 20 tokens or fewer and resubmit."),
  (26, "Start a new admin proposal with propose_admin before calling accept_admin."),
  (27, "The proposal window has lapsed. The current admin must call propose_admin again.")]

/-- Codes that a plain resubmission can clear: the re-entrancy lock. -/
def TRANSIENT_CONTRACT_ERRORS : List ℕ := [11]

/-- The identical call must fail the same way.  Unknown codes are not deterministic. -/
def isDeterministicContractError (code : ℕ) : Bool :=
  (CONTRACT_ERROR_MESSAGES.lookup code).isSome && !TRANSIENT_CONTRACT_ERRORS.contains code

/-- The text for an error of the contract. -/
def contractErrorMessage (code : ℕ) : String :=
  (CONTRACT_ERROR_MESSAGES.lookup code).getD
    ("An unexpected contract error occurred (code " ++ toString code ++ ").")

/-- What has to change before the call can succeed. -/
def contractErrorRetryRequirement (code : ℕ) : Option String :=
  CONTRACT_ERROR_REQUIREMENTS.lookup code

/-- `/Error\(Contract,\s*(\d+)\)/` at the head of the text. -/
def contractErrorAt (text : List Char) : Option ℕ := do
  let arguments ← afterPrefix "Error(Contract,".toList text
  let digits := (arguments.dropWhile isSpace).takeWhile Char.isDigit
  let rest := (arguments.dropWhile isSpace).dropWhile Char.isDigit
  if digits ≠ [] ∧ rest.head? = some ')' then some (decimal digits) else none

/-- The code that a text names: the rendering of the host first, then a message of the table. -/
def contractErrorCodeFromMessage (message : Option String) : Option ℕ := do
  let text ← message
  (firstMatch contractErrorAt text.toList).or
    ((CONTRACT_ERROR_MESSAGES.find? fun entry => entry.2 == text).map Prod.fst)

/-! ### Thrown values -/

/-- A property of a thrown object, as `(err.code as string)?.toLowerCase()` finds it. -/
inductive Property
  | absent
  | text (s : String)
  /-- A value that is neither nullish nor a string: the call of `toLowerCase` throws. -/
  | other
  deriving DecidableEq, Repr

/-- What a rejected request throws.  `text` is the message of an `Error`, and `String(err)` of any
other value. -/
inductive Thrown
  | falsy (text : String)
  | httpError (status : ℕ) (text : String)
  | object (text : String) (message code : Property) (status : Option ℕ)
  deriving DecidableEq, Repr

/-- The text that a thrown value converts to. -/
def Thrown.text : Thrown → String
  | .falsy text | .httpError _ text | .object text .. => text

/-- Network errors - should retry. -/
def networkErrors : List String :=
  ["network", "timeout", "econnrefused", "enotfound", "etimedout", "fetch failed",
    "failed to fetch", "aborted"]

/-- RPC/Server errors - should retry. -/
def rpcErrors : List String :=
  ["rate limit", "too many requests", "service unavailable", "internal server error",
    "bad gateway", "502", "503", "504"]

/-- Contract/Auth errors - should NOT retry. -/
def nonRetryableErrors : List String :=
  ["unauthorized", "forbidden", "invalid signature", "insufficient balance", "contract error",
    "invalid parameter", "already exists"]

/-- `(p as string)?.toLowerCase() || ''`; `none` when the call itself throws. -/
def Property.lowered : Property → Option String
  | .absent => some ""
  | .text s => some (toLowerCase s)
  | .other => none

/-- Whether an HTTP status is worth a retry. -/
def transientStatus (status : ℕ) : Bool :=
  status == 429 || (500 ≤ status && status < 600)

/-- `isTransientError`; `none` when it throws a `TypeError` of its own. -/
def isTransientError : Thrown → Option Bool
  | .falsy _ => some false
  | .httpError status _ => some (transientStatus status)
  | .object _ message code status => do
    let errorMessage ← message.lowered
    let errorCode ← code.lowered
    let mentions (patterns : List String) :=
      includesAny errorMessage patterns || includesAny errorCode patterns
    if mentions nonRetryableErrors then
      return false
    if mentions (networkErrors ++ rpcErrors) then
      return true
    return status.any transientStatus

/-- The message of `parseContractError(err)`. -/
def parseContractError (err : Thrown) : String :=
  let msg := err.text
  let mentions := includesAny (toLowerCase msg)
  if mentions ["user declined", "user rejected", "rejected by user"] then
    "Transaction rejected. You declined the signing request in your wallet."
  else if mentions ["insufficient", "op_underfunded", "balance"] then
    "Insufficient funds. Your XLM balance is too low to cover this transaction."
  else if mentions ["rate limit", "too many requests", "http error 429", "status 429"] then
    "The server is currently rate-limiting requests. Please wait a moment and try again. " ++
      "If this persists, consider using a dedicated RPC provider."
  else if mentions ["timeout", "timed out", "network"] then
    "Network timeout. The Stellar network did not respond in time. Please retry."
  else match contractErrorCodeFromMessage (some msg) with
    | some code => contractErrorMessage code
    | none => if includes msg "simulation" then "Simulation failed: " ++ msg else msg

end StellarForge.Submission
