import StellarForge.Submission.Network

/-!
# Calls of the factory

`invokeFactory` builds, signs and submits one call and waits for its inclusion.  A form only sees how
it settles: with the confirmed result, or with an error, after which the call may have been applied
nevertheless.

* **`applied_of_settles`**: what settles with a result has been applied.
-/

namespace StellarForge.Frontend

open Submission

/-- The write calls of the service. -/
inductive Call
  | deployToken (name symbol : String) (decimals : ℕ) (initialSupply : String)
    (maxSupply : Option String) (salt feePayment : String)
  | mintTokens (tokenAddress recipient amount feePayment : String)
  | burnTokens (tokenAddress amount : String)
  | setMetadata (tokenAddress metadataUri feePayment : String)
  | updateFees (baseFee metadataFee : String)
  | setWhitelistEnabled (enabled : Bool)
  deriving DecidableEq, Repr

/-- A write, as far as the page presents it. -/
inductive Write
  | deploy (name symbol : String)
  | mint
  | burn
  | setMetadata (metadataUri : String)
  | updateFees
  | setWhitelist (enabled : Bool)
  deriving DecidableEq, Repr

/-- What a call writes, as far as a form shows it. -/
def Call.write : Call → Write
  | .deployToken name symbol .. => .deploy name symbol
  | .mintTokens .. => .mint
  | .burnTokens .. => .burn
  | .setMetadata _ metadataUri _ => .setMetadata metadataUri
  | .updateFees .. => .updateFees
  | .setWhitelistEnabled enabled => .setWhitelist enabled

/-- What a call rejects with, after `toUserFacingError`. -/
inductive CallError
  | submission (error : TransactionSubmissionError)
  | other (message : String)
  deriving DecidableEq, Repr

/-- The text of an error. -/
def CallError.message : CallError → String
  | .submission error => error.message
  | .other message => message

/-- What a confirmed call leaves: the hash, and the address in `returnValue` if there is one. -/
structure CallResult where
  hash : String
  returnValue : Option String
  deriving DecidableEq, Repr

/-- What `invokeFactory` makes of the end of a submission; the selector of a result may throw. -/
inductive Selects : Except Failure (String × GetTransactionResponse) → Except CallError CallResult → Prop
  | confirmed {hash : String} {response : GetTransactionResponse} (returnValue : Option String) :
    Selects (.ok (hash, response)) (.ok ⟨hash, returnValue⟩)
  | undecoded {hash : String} {response : GetTransactionResponse} (message : String) :
    Selects (.ok (hash, response)) (.error (.other message))
  | rejected (error : TransactionSubmissionError) :
    Selects (.error (.submission error)) (.error (.submission error))
  | typeError (message : String) : Selects (.error .typeError) (.error (.other message))

/-- How a call settles, and whether it has been applied by then.  It fails before anything is sent
when it cannot be built or simulated, or is not signed. -/
inductive Settles : Except CallError CallResult → Bool → Prop
  | unsent (message : String) : Settles (.error (.other message)) false
  | sent {signedTx : SignedTransaction} {options : SubmitOptions} {n₀ : Network signedTx}
    {h : List Event} {s : System signedTx} {result : Except Failure (String × GetTransactionResponse)}
    {outcome : Except CallError CallResult} {applied : Bool}
    (hrun : Submits options n₀ h s) (hsettled : s.phase = .settled result)
    (houtcome : Selects result outcome) (happlied : applied = true ↔ s.network.Applied) :
    Settles outcome applied

variable {signedTx : SignedTransaction} {options : SubmitOptions} {n n' n₀ : Network signedTx}
  {h : List Event} {s s' : System signedTx} {e : Event}

theorem Applied.closes {k : Header} {inclusion : Option Bool} (happlied : n.Applied)
    (hcloses : n.Closes k inclusion n') : n'.Applied := by
  cases hcloses with
  | without hafter => exact happlied
  | including applied hafter hadm hpending =>
    obtain ⟨header, hincluded⟩ := happlied
    rw [hpending] at hincluded
    cases hincluded

/-- The attempt loop does not end with a response of the polling loop. -/
theorem afterSend_ne_ok {now : ℤ} (r : Reporting (LoopStep SendState SendResult))
    (result : String × GetTransactionResponse) :
    (Phase.afterSend now r).2 ≠ .settled (.ok result) := by
  rcases r with ⟨statuses, state | sent | failure⟩ <;> intro h <;> cases h

/-- The polling loop ends with a response only if its status is `SUCCESS`. -/
theorem success_of_afterPoll {deadline : InclusionDeadline} {p : PollState} {now : ℤ}
    {outcome : Except Thrown GetTransactionResponse} {result : String × GetTransactionResponse}
    (h : (Phase.afterPoll p.hash (pollAttempt options deadline p now outcome)).2 =
      .settled (.ok result)) :
    ∃ response, outcome = .ok response ∧ response.status = .SUCCESS := by
  rcases outcome with err | response
  · -- an error leads to another round or to a failure
    rw [pollAttempt] at h
    split at h
    · cases h
    · split_ifs at h <;> cases h
  · refine ⟨response, rfl, ?_⟩
    rw [pollAttempt] at h
    rcases hstatus : response.status with _ | _ | _
    · rfl
    · simp only [hstatus] at h
      cases h
    · simp only [hstatus] at h
      split_ifs at h <;> cases h

/-- A call that has settled well has been applied. -/
theorem confirmed_step (hs : Step options s e s')
    (hconfirmed : ∀ result, s.phase = .settled (.ok result) → s.network.Applied) :
    ∀ result, s'.phase = .settled (.ok result) → s'.network.Applied := by
  intro result hphase'
  cases hs with
  | ledger hcloses => exact Applied.closes (hconfirmed result hphase') hcloses
  | send hphase hanswers => exact absurd hphase' (afterSend_ne_ok _ result)
  | get hphase hanswers =>
    obtain ⟨response, rfl, hsuccess⟩ := success_of_afterPoll hphase'
    rw [Network.AnswersGet, hsuccess] at hanswers
    exact hanswers

/-- What `submitAndConfirm` ends with a response for has been applied. -/
theorem applied_of_submits {result : String × GetTransactionResponse}
    (hrun : Submits options n₀ h s) (hsettled : s.phase = .settled (.ok result)) :
    s.network.Applied := by
  obtain ⟨-, hsteps⟩ := hrun
  have hstart : ∀ result, (System.start options n₀).phase = .settled (.ok result) →
      (System.start options n₀).network.Applied := by
    intro result hphase
    exact absurd hphase (afterSend_ne_ok _ result)
  exact hsteps.invariant (fun hI hs => confirmed_step hs hI) hstart result hsettled

/-- **What settles with a result has been applied.** -/
theorem applied_of_settles {result : CallResult} {applied : Bool}
    (hsettles : Settles (.ok result) applied) : applied = true := by
  cases hsettles with
  | sent hrun hsettled houtcome happlied =>
    cases houtcome with
    | confirmed returnValue => exact happlied.mpr (applied_of_submits hrun hsettled)

end StellarForge.Frontend
