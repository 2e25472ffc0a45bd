import StellarForge.Submission.Network

/-!
# Safety of a retry

When `submitAndConfirm` rejects with `safeToRetry`, the envelope should not have been applied and
should never be.  The form that links metadata unpins its upload then, and on every error that is no
`TransactionSubmissionError` as well; `reclaimsUpload` has both.  The attempt loop looks at the last
answer only, so a call whose response was lost after the node had accepted the envelope is forgotten;
and the polling loop can leave with a `TypeError` of its own:

* `Submits.bookkeeping`: what the answers seen so far say about the envelope;
* `safeToRetry_iff`: **the runs whose verdict is right**;
* `not_retrySafe_lostMint`, `not_retrySafe_brokenPoll`: two runs whose verdict is wrong.
-/

namespace StellarForge.Submission

open Transition

variable {signedTx : SignedTransaction} {options : SubmitOptions} {n₀ n n' : Network signedTx}
  {s s' : System signedTx} {h : List Event} {ev : Event}

/-! ### What happened in a run -/

/-- The node has the envelope and says so. -/
def Acknowledges : Except Thrown SendTransactionResponse → Prop
  | .error _ => False
  | .ok response => response.status = .PENDING ∨ response.status = .DUPLICATE

/-- A node accepted the envelope in a call whose response was lost. -/
def LostAcceptance (h : List Event) : Prop :=
  ∃ now err, Event.send true now (.error err) ∈ h

/-- A node answered `PENDING` or `DUPLICATE`, and polling began. -/
def Acknowledged (h : List Event) : Prop :=
  ∃ accepted now outcome, Event.send accepted now outcome ∈ h ∧ Acknowledges outcome

/-- A call of `getTransaction` failed with an error on which `isTransientError` itself throws, and
polling ended with that `TypeError`. -/
def PollBroken (h : List Event) : Prop :=
  ∃ oldest now err, Event.get oldest now (.error err) ∈ h ∧ isTransientError err = none

/-- A `NOT_FOUND` was answered by a node that no longer searches the ledger in which the envelope
was applied. -/
def Overlooked (h : List Event) (n : Network signedTx) : Prop :=
  ∃ oldest now response k, Event.get oldest now (.ok response) ∈ h ∧
    response.status = .NOT_FOUND ∧ n.envelope = .included k true ∧ k.sequence < oldest

/-- The verdict of the run is right: a rejection that claims to be safe to retry is, and so is every
other one on which the form unpins. -/
def RetrySafe (options : SubmitOptions) (n₀ : Network signedTx) (h : List Event) : Prop :=
  ∀ s f, Submits options n₀ h s → s.phase = .settled (.error f) → reclaimsUpload f = true →
    s.network.NeverApplies

theorem LostAcceptance.cons (hlost : LostAcceptance h) : LostAcceptance (ev :: h) := by
  obtain ⟨now, err, hmem⟩ := hlost
  exact ⟨now, err, List.mem_cons_of_mem _ hmem⟩

theorem PollBroken.cons (hbroken : PollBroken h) : PollBroken (ev :: h) := by
  obtain ⟨oldest, now, err, hmem, herr⟩ := hbroken
  exact ⟨oldest, now, err, List.mem_cons_of_mem _ hmem, herr⟩

/-- Only an answer to a poll breaks the polling. -/
theorem pollBroken_of_cons (hbroken : PollBroken (ev :: h))
    (hev : ∀ oldest now outcome, ev ≠ .get oldest now outcome) : PollBroken h := by
  obtain ⟨oldest, now, err, hmem, herr⟩ := hbroken
  rcases List.mem_cons.mp hmem with heq | hmem
  · exact absurd heq.symm (hev oldest now _)
  · exact ⟨oldest, now, err, hmem, herr⟩

/-- Only an acknowledging answer acknowledges. -/
theorem not_acknowledged_cons (hno : ¬ Acknowledged h)
    (hev : ∀ accepted now outcome, ev = .send accepted now outcome → ¬ Acknowledges outcome) :
    ¬ Acknowledged (ev :: h) := by
  rintro ⟨accepted, now, outcome, hmem, hack⟩
  rcases List.mem_cons.mp hmem with heq | hmem
  · exact hev accepted now outcome heq.symm hack
  · exact hno ⟨accepted, now, outcome, hmem, hack⟩

/-! ### The two loops -/

/-- An answer after which the attempt loop may give up with a verdict on which the form unpins. -/
def GivesUp : Except Thrown SendTransactionResponse → Prop
  | .error _ => True
  | .ok response => response.status = .TRY_AGAIN_LATER ∨ response.status = .ERROR

/-- The attempt loop goes round again, or ends with a verdict on which the form unpins, only after an
answer that gives up: an unknown status and an exhausted transport are `unconfirmed`. -/
theorem sendAttempt_givesUp {state : SendState} {outcome : Except Thrown SendTransactionResponse}
    (hstep : (∃ state', (sendAttempt options state outcome).2 = .again state') ∨
      ∃ f, (sendAttempt options state outcome).2 = .throws f ∧ reclaimsUpload f = true) :
    GivesUp outcome := by
  rcases outcome with err | response
  · trivial
  · rcases hstatus : response.status with _ | _ | _ | _ | status
    · rcases hstep with ⟨_, hagain⟩ | ⟨e, hthrows, -⟩ <;>
        simp only [sendAttempt, hstatus, reduceCtorEq] at *
    · rcases hstep with ⟨_, hagain⟩ | ⟨e, hthrows, -⟩ <;>
        simp only [sendAttempt, hstatus, reduceCtorEq] at *
    · exact .inl hstatus
    · exact .inr hstatus
    · rcases hstep with ⟨_, hagain⟩ | ⟨e, hthrows, hsafe⟩ <;>
        simp only [sendAttempt, hstatus, failWith, reduceCtorEq] at *
      cases hthrows
      cases hsafe

/-- Polling begins after an answer that acknowledges the envelope. -/
theorem sendAttempt_polls {state : SendState} {p : PollState} {now : ℤ}
    {outcome : Except Thrown SendTransactionResponse} {n : Network signedTx}
    (hnext : (s.resume (Phase.afterSend now (sendAttempt options state outcome)) n).phase =
      .polling p) :
    ∃ response, outcome = .ok response ∧
      (response.status = .PENDING ∨ response.status = .DUPLICATE) := by
  -- polling begins only once the sending loop has returned
  have hdone : ∃ r, (sendAttempt options state outcome).2 = .done r := by
    rcases hstep : (sendAttempt options state outcome) with ⟨statuses, st | r | f⟩
    · simp [System.resume, Phase.afterSend, hstep] at hnext
    · exact ⟨r, rfl⟩
    · simp [System.resume, Phase.afterSend, hstep] at hnext
  obtain ⟨r, hdone⟩ := hdone
  -- no error of the transport returns from it
  rcases outcome with err | response
  · exfalso
    simp only [sendAttempt, retrySending, sendLoop, sendExhausted, failWith] at hdone
    split at hdone
    · cases hdone
    · cases hdone
    · split_ifs at hdone
  · refine ⟨response, rfl, ?_⟩
    rcases hstatus : response.status with _ | _ | _ | _ | status
    · exact .inl rfl
    · exact .inr rfl
    · simp only [sendAttempt, hstatus, retrySending, sendLoop, sendExhausted, failWith] at hdone
      split_ifs at hdone
    · simp only [sendAttempt, hstatus, failWith, reduceCtorEq] at hdone
    · simp only [sendAttempt, hstatus, failWith, reduceCtorEq] at hdone

theorem GivesUp.not_acknowledges {outcome : Except Thrown SendTransactionResponse}
    (hgives : GivesUp outcome) : ¬ Acknowledges outcome := by
  rcases outcome with err | response
  · exact id
  · rcases hgives with hstatus | hstatus <;> simp [Acknowledges, hstatus]

/-- A verdict of the polling loop on which the form unpins: the call failed with an error on which
`isTransientError` throws, or the node says that the envelope was rejected in a ledger, or it does not
find it after its bounds. -/
theorem pollAttempt_reclaims {deadline : InclusionDeadline} {state : PollState} {now : ℤ}
    {outcome : Except Thrown GetTransactionResponse} {f : Failure}
    (hthrows : (pollAttempt options deadline state now outcome).2 = .throws f)
    (hreclaims : reclaimsUpload f = true) :
    (∃ err, outcome = .error err ∧ isTransientError err = none) ∨
      ∃ response, outcome = .ok response ∧ (response.status = .FAILED ∨
        response.status = .NOT_FOUND ∧ deadlinePassed deadline response = true) := by
  rcases outcome with err | response
  · simp only [pollAttempt] at hthrows
    split at hthrows
    · next hbroken => exact .inl ⟨err, rfl, hbroken⟩
    · -- a transport failure is retried or `unconfirmed`
      split at hthrows
      · cases hthrows
      · cases hthrows
        cases hreclaims
  · refine .inr ⟨response, rfl, ?_⟩
    rcases hstatus : response.status with _ | _ | _ <;>
      simp only [pollAttempt, hstatus] at hthrows
    · cases hthrows
    · exact .inl rfl
    · split at hthrows
      · next hpassed => exact .inr ⟨rfl, (Bool.and_eq_true_iff.mp hpassed).2⟩
      · split at hthrows
        · cases hthrows
          cases hreclaims
        · cases hthrows

/-! ### Bounds and answers -/

/-- A number beyond the deadline is out of the bound that the deadline was read from. -/
theorem not_withinBound_of_exceeds {bound latest : Option ℕ} {value : ℕ}
    (hvalue : ∀ l ∈ latest, l = value)
    (hexceeds : exceeds latest (bound.filter (0 < ·)) = true) : ¬ withinBound bound value := by
  intro hwithin
  rcases latest with _ | l
  · cases hexceeds
  · obtain rfl := hvalue l rfl
    rcases bound with _ | b
    · cases hexceeds
    · by_cases hpos : 0 < b
      · have hlt : b < l := by simpa [exceeds, Option.filter, hpos] using hexceeds
        exact absurd (hwithin b rfl hpos) (Nat.not_le.mpr hlt)
      · simp [exceeds, Option.filter, hpos] at hexceeds

/-- When the deadline has passed in an answer, the ledger it speaks of is out of bounds. -/
theorem not_admits_of_deadlinePassed {response : GetTransactionResponse} {latest : Header}
    (hledger : ∀ l ∈ response.latestLedger, l = latest.sequence)
    (htime : ∀ t ∈ response.latestLedgerCloseTime, t = latest.closeTime)
    (hpassed : deadlinePassed (inclusionDeadlineOf signedTx) response = true) :
    ¬ signedTx.Admits latest := by
  rintro ⟨hseq, hclose⟩
  rcases Bool.or_eq_true_iff.mp hpassed with hexceeds | hexceeds
  · exact not_withinBound_of_exceeds hledger hexceeds hseq
  · exact not_withinBound_of_exceeds htime hexceeds hclose

/-- A call whose answer gives up and that the node accepted has lost its response. -/
theorem error_of_givesUp {outcome : Except Thrown SendTransactionResponse}
    (hanswers : n.AnswersSend true outcome) (hgives : GivesUp outcome) :
    ∃ err, outcome = .error err := by
  rcases outcome with err | response
  · exact ⟨err, rfl⟩
  · rcases hgives with hstatus | hstatus <;>
      simp [Network.AnswersSend, hstatus] at hanswers

theorem accept_envelope_ne : n.accept.envelope ≠ .unknown := by
  intro heq
  simp only [Network.accept] at heq
  split at heq
  · cases heq
  · next hne => exact hne heq

/-- The last ledger that a `NOT_FOUND` speaks of is closed, so no next ledger is within the bounds
either; and if the envelope has been applied, it was before the ledgers that were searched. -/
theorem notFound_passed {oldest : ℕ} {response : GetTransactionResponse}
    (hanswers : n.AnswersGet oldest (.ok response)) (hstatus : response.status = .NOT_FOUND)
    (hpassed : deadlinePassed (inclusionDeadlineOf signedTx) response = true) :
    n.Passed ∧ ∀ k, n.envelope = .included k true → k.sequence < oldest := by
  simp only [Network.AnswersGet, hstatus] at hanswers
  obtain ⟨latest, hmem, hledger, htime, hsearched⟩ := hanswers
  have hout : ¬ signedTx.Admits latest := not_admits_of_deadlinePassed hledger htime hpassed
  constructor
  · intro hadm
    have hnext : n.next.After latest := n.next_after latest hmem
    exact hout (Network.admits_of_le hnext.1.le hnext.2.le hadm)
  · intro k hk
    rcases hsearched k true hk with hold | hlater
    · exact hold
    · -- a later ledger would be out of bounds as well
      obtain ⟨hkmem, hkadm⟩ := n.admitted k true hk
      have hafter : k.After latest := Network.after_of_sequence_lt hkmem hmem hlater
      exact absurd (Network.admits_of_le hafter.1.le hafter.2.le hkadm) hout

/-! ### The invariant -/

/-- Why a verdict on which the form unpins was reached. -/
def SafeVerdict (h : List Event) (n : Network signedTx) : Prop :=
  n.envelope = .unknown ∨ (LostAcceptance h ∧ ¬ Acknowledged h) ∨ PollBroken h ∨ n.Rejected ∨
    (n.Passed ∧ (n.Applied → Overlooked h n))

/-- What the answers seen so far say about the envelope. -/
structure Bookkeeping (h : List Event) (s : System signedTx) : Prop where
  lost : LostAcceptance h → s.network.envelope ≠ .unknown
  sending : ∀ state, s.phase = .sending state →
    ¬ Acknowledged h ∧ (s.network.envelope = .unknown ∨ LostAcceptance h)
  /-- What is polled for has been accepted. -/
  polling : ∀ state, s.phase = .polling state → s.network.envelope ≠ .unknown
  broken : PollBroken h → s.network.envelope ≠ .unknown
  verdict : ∀ f, s.phase = .settled (.error f) → reclaimsUpload f = true → SafeVerdict h s.network

/-- A ledger that closes keeps a safe verdict. -/
theorem SafeVerdict.closes {k : Header} {inclusion : Option Bool} (hverdict : SafeVerdict h n)
    (hcloses : n.Closes k inclusion n') : SafeVerdict (.ledger k inclusion :: h) n' := by
  have hquiet : ¬ Acknowledged h → ¬ Acknowledged (.ledger k inclusion :: h) :=
    fun hno => not_acknowledged_cons hno nofun
  rcases hverdict with hunknown | ⟨hlost, hno⟩ | hbroken | ⟨j, hrejected⟩ | ⟨hpassed, hover⟩
  · cases hcloses with
    | without => exact .inl hunknown
    | including applied _ _ hpending =>
      rw [hpending] at hunknown
      cases hunknown
  · exact .inr (.inl ⟨hlost.cons, hquiet hno⟩)
  · exact .inr (.inr (.inl hbroken.cons))
  · cases hcloses with
    | without => exact .inr (.inr (.inr (.inl ⟨j, hrejected⟩)))
    | including applied _ _ hpending =>
      rw [hpending] at hrejected
      cases hrejected
  · obtain ⟨hpassed', henvelope⟩ := hpassed.closes hcloses
    refine .inr (.inr (.inr (.inr ⟨hpassed', fun happlied => ?_⟩)))
    rw [Network.Applied, henvelope] at happlied
    obtain ⟨oldest, now, response, j, hmem, hstatus, hj, hlt⟩ := hover happlied
    exact ⟨oldest, now, response, j, List.mem_cons_of_mem _ hmem, hstatus, henvelope ▸ hj, hlt⟩

/-- A ledger that closes leaves a known envelope known. -/
theorem envelope_ne_of_closes {k : Header} {inclusion : Option Bool} (hknown : n.envelope ≠ .unknown)
    (hcloses : n.Closes k inclusion n') : n'.envelope ≠ .unknown := by
  cases hcloses with
  | without => exact hknown
  | including => nofun

theorem Bookkeeping.start (hunknown : n.envelope = .unknown) :
    Bookkeeping [] (System.start options n) where
  lost := by
    rintro ⟨_, _, hmem⟩
    cases hmem
  sending := by
    refine fun _ _ => ⟨?_, .inl hunknown⟩
    rintro ⟨_, _, _, hmem, _⟩
    cases hmem
  polling := by
    intro state hphase
    -- the first call is one of `sendTransaction`, if there is any
    have hfirst : (submitAndConfirm options).2 = .polling state := hphase
    simp only [submitAndConfirm, sendLoop, sendExhausted, failWith] at hfirst
    split at hfirst <;> cases hfirst
  broken := by
    rintro ⟨_, _, _, hmem, _⟩
    cases hmem
  verdict := fun _ _ _ => .inl hunknown

/-- A ledger closes: the envelope can only move on if it is pending. -/
theorem Bookkeeping.ledger {k : Header} {inclusion : Option Bool} (hbook : Bookkeeping h s)
    (hcloses : s.network.Closes k inclusion n') :
    Bookkeeping (.ledger k inclusion :: h) { s with network := n' } where
  -- a ledger closes: the phase of the client is what it was
  lost := by
    intro hlost
    obtain ⟨now, err, hmem⟩ := hlost
    have hbefore : s.network.envelope ≠ .unknown := by
      refine hbook.lost ⟨now, err, ?_⟩
      simpa using hmem
    exact envelope_ne_of_closes hbefore hcloses
  sending := by
    intro state hphase
    obtain ⟨hno, henvelope⟩ := hbook.sending state hphase
    refine ⟨not_acknowledged_cons hno nofun, ?_⟩
    cases hcloses with
    | without => exact henvelope.imp id LostAcceptance.cons
    -- it may include the transaction, which then was accepted before
    | including applied _ _ hpending =>
      rcases henvelope with hunknown | hlost
      · rw [hpending] at hunknown
        cases hunknown
      · exact .inr hlost.cons
  polling := fun state hphase => envelope_ne_of_closes (hbook.polling state hphase) hcloses
  broken := fun hbroken =>
    envelope_ne_of_closes (hbook.broken (pollBroken_of_cons hbroken nofun)) hcloses
  verdict := fun f hphase hreclaims => (hbook.verdict f hphase hreclaims).closes hcloses

/-- An answer of `sendTransaction` after which nothing is known to be accepted: the envelope is
unknown still, or the response of a call that accepted it was lost. -/
theorem Bookkeeping.givesUp {state : SendState} {accepted : Bool} {now : ℤ}
    {outcome : Except Thrown SendTransactionResponse} (hbook : Bookkeeping h s)
    (hphase : s.phase = .sending state) (hanswers : s.network.AnswersSend accepted outcome)
    (hgives : GivesUp outcome) :
    ¬ Acknowledged (.send accepted now outcome :: h) ∧
      ((if accepted then s.network.accept else s.network).envelope = .unknown ∨
        LostAcceptance (.send accepted now outcome :: h)) := by
  obtain ⟨hno, henvelope⟩ := hbook.sending state hphase
  constructor
  · refine not_acknowledged_cons hno fun a t o heq => ?_
    cases heq
    exact hgives.not_acknowledges
  · cases accepted with
    | false => exact henvelope.imp id LostAcceptance.cons
    | true =>
      obtain ⟨err, rfl⟩ := error_of_givesUp hanswers hgives
      exact .inr ⟨now, err, List.mem_cons_self ..⟩

/-- The attempt loop takes an answer. -/
theorem Bookkeeping.send {state : SendState} {accepted : Bool} {now : ℤ}
    {outcome : Except Thrown SendTransactionResponse} (hbook : Bookkeeping h s)
    (hphase : s.phase = .sending state) (hanswers : s.network.AnswersSend accepted outcome) :
    Bookkeeping (.send accepted now outcome :: h)
      (s.resume (Phase.afterSend now (sendAttempt options state outcome))
        (if accepted then s.network.accept else s.network)) where
  lost := by
    rintro ⟨t, err, hmem⟩
    rcases List.mem_cons.mp hmem with heq | hmem
    · cases heq
      exact accept_envelope_ne
    · have hbefore : s.network.envelope ≠ .unknown := hbook.lost ⟨t, err, hmem⟩
      cases accepted with
      | false => exact hbefore
      | true => exact accept_envelope_ne
  sending := by
    -- the loop goes on only when the attempt gave up without an acknowledgement
    intro state' hnext
    have hagain : ∃ st, (sendAttempt options state outcome).2 = .again st := by
      rcases hstep : (sendAttempt options state outcome) with ⟨statuses, st | r | f⟩
      · exact ⟨st, rfl⟩
      · simp [System.resume, Phase.afterSend, hstep] at hnext
      · simp [System.resume, Phase.afterSend, hstep] at hnext
    exact hbook.givesUp hphase hanswers (sendAttempt_givesUp (.inl hagain))
  polling := by
    intro state' hnext
    -- an acknowledgement that a duplicate is known speaks of an earlier acceptance
    obtain ⟨response, rfl, hstatus⟩ := sendAttempt_polls hnext
    rcases hstatus with hstatus | hstatus <;> simp only [Network.AnswersSend, hstatus] at hanswers
    · rw [hanswers]
      exact accept_envelope_ne
    · rw [hanswers.1]
      show s.network.envelope ≠ .unknown
      rw [hanswers.2]
      nofun
  broken := by
    intro hbroken
    have hbefore : s.network.envelope ≠ .unknown :=
      hbook.broken (pollBroken_of_cons hbroken nofun)
    cases accepted with
    | false => exact hbefore
    | true => exact accept_envelope_ne
  verdict := by
    intro f hnext hreclaims
    have hthrows : (sendAttempt options state outcome).2 = .throws f := by
      rcases hstep : (sendAttempt options state outcome) with ⟨statuses, st | r | f⟩
      · simp [System.resume, Phase.afterSend, hstep] at hnext
      · simp [System.resume, Phase.afterSend, hstep] at hnext
      · simpa [System.resume, Phase.afterSend, hstep] using hnext
    have hgives : GivesUp outcome := sendAttempt_givesUp (.inr ⟨f, hthrows, hreclaims⟩)
    -- either nothing is known of the transaction, or an acceptance was lost
    obtain ⟨hno, hunknown | hlost⟩ := hbook.givesUp hphase hanswers hgives
    · exact .inl hunknown
    · exact .inr (.inl ⟨hlost, hno⟩)

/-- The polling loop takes an answer. -/
theorem Bookkeeping.get {state : PollState} {oldest : ℕ} {now : ℤ}
    {outcome : Except Thrown GetTransactionResponse} (hbook : Bookkeeping h s)
    (hphase : s.phase = .polling state) (hanswers : s.network.AnswersGet oldest outcome) :
    Bookkeeping (.get oldest now outcome :: h)
      (s.resume (Phase.afterPoll state.hash
        (pollAttempt options (inclusionDeadlineOf signedTx) state now outcome)) s.network) where
  lost := by
    rintro ⟨t, err, hmem⟩
    exact hbook.lost ⟨t, err, by simpa using hmem⟩
  sending := by
    intro state' hnext
    rcases hstep : (pollAttempt options (inclusionDeadlineOf signedTx) state now outcome) with
      ⟨statuses, st | r | f⟩ <;> simp [System.resume, Phase.afterPoll, hstep] at hnext
  -- a poll leaves the network as it is
  polling := fun _ _ => hbook.polling state hphase
  broken := fun _ => hbook.polling state hphase
  verdict := by
    intro f hnext hreclaims
    have hthrows : (pollAttempt options (inclusionDeadlineOf signedTx) state now outcome).2 =
        .throws f := by
      rcases hstep : (pollAttempt options (inclusionDeadlineOf signedTx) state now outcome) with
        ⟨statuses, st | r | f⟩ <;> simp [System.resume, Phase.afterPoll, hstep] at hnext
      simp [hnext]
    obtain ⟨err, rfl, herr⟩ | ⟨response, rfl, hfailed | ⟨hnotFound, hpassed⟩⟩ :=
      pollAttempt_reclaims hthrows hreclaims
    · exact .inr (.inr (.inl ⟨oldest, now, err, List.mem_cons_self .., herr⟩))
    · simp only [Network.AnswersGet, hfailed] at hanswers
      exact .inr (.inr (.inr (.inl hanswers)))
    · obtain ⟨hout, hsearched⟩ := notFound_passed hanswers hnotFound hpassed
      refine .inr (.inr (.inr (.inr ⟨hout, ?_⟩)))
      rintro ⟨k, hk⟩
      exact ⟨oldest, now, response, k, List.mem_cons_self .., hnotFound, hk, hsearched k hk⟩

/-- What holds after every run. -/
theorem Submits.bookkeeping (hrun : Submits options n₀ h s) : Bookkeeping h s := by
  refine hrun.2.historyInvariant (I := Bookkeeping) ?_ (.start hrun.1)
  intro h s ev s' _ hbook hstep
  cases hstep with
  | ledger hcloses => exact hbook.ledger hcloses
  | send hphase hanswers => exact hbook.send hphase hanswers
  | get hphase hanswers => exact hbook.get hphase hanswers

/-! ### The verdict -/

/-- An envelope that is known and can no longer be applied has been rejected or has lapsed. -/
theorem rejected_or_lapsed (hnot : ¬ n.Applied) (hpassed : n.envelope = .pending → n.Passed)
    (hknown : n.envelope ≠ .unknown) : n.Rejected ∨ n.Lapsed := by
  rcases henvelope : n.envelope with _ | _ | ⟨k, _ | _⟩
  · exact absurd henvelope hknown
  · exact .inr ⟨henvelope, hpassed henvelope⟩
  · exact .inl ⟨k, henvelope⟩
  · exact absurd ⟨k, henvelope⟩ hnot

/-- An envelope that was rejected, or that has lapsed, is never applied. -/
theorem neverApplies_of_rejected_or_lapsed (h : n.Rejected ∨ n.Lapsed) : n.NeverApplies := by
  rw [Network.neverApplies_iff]
  rcases h with ⟨k, hk⟩ | ⟨hpending, hpassed⟩
  · refine ⟨fun ⟨j, hj⟩ => ?_, fun hpending => ?_⟩
    · rw [hk] at hj
      cases hj
    · rw [hk] at hpending
      cases hpending
  · refine ⟨fun ⟨k, hk⟩ => ?_, fun _ => hpassed⟩
    rw [hpending] at hk
    cases hk

/-- **When a verdict on which the form unpins is right**, one that is safe to retry or an error that is
no `TransactionSubmissionError`.  It is right unless the response of an accepting call was lost and no
later answer acknowledged the envelope, or polling broke off, and the network has neither rejected the
envelope nor let it lapse since; or a node that had already forgotten the ledger that applied the
envelope was asked. -/
theorem safeToRetry_iff {f : Failure} (hrun : Submits options n₀ h s)
    (hphase : s.phase = .settled (.error f)) (hreclaims : reclaimsUpload f = true) :
    s.network.NeverApplies ↔
      (LostAcceptance h → Acknowledged h ∨ s.network.Rejected ∨ s.network.Lapsed) ∧
        (PollBroken h → s.network.Rejected ∨ s.network.Lapsed) ∧ ¬ Overlooked h s.network := by
  have hbook : Bookkeeping h s := hrun.bookkeeping
  constructor
  · rw [Network.neverApplies_iff]
    rintro ⟨hnot, hpassed⟩
    refine ⟨fun hlost => .inr (rejected_or_lapsed hnot hpassed (hbook.lost hlost)),
      fun hbroken => rejected_or_lapsed hnot hpassed (hbook.broken hbroken), ?_⟩
    rintro ⟨_, _, _, k, _, _, hk, _⟩
    exact hnot ⟨k, hk⟩
  · rintro ⟨hlostCond, hbrokenCond, hseen⟩
    rcases hbook.verdict f hphase hreclaims with
      hunknown | ⟨hlost, hno⟩ | hbroken | hrejected | ⟨hpassed, hover⟩
    · -- the network has never seen the envelope
      rw [Network.neverApplies_iff]
      refine ⟨fun ⟨k, hk⟩ => ?_, fun hpending => ?_⟩
      · rw [hunknown] at hk
        cases hk
      · rw [hunknown] at hpending
        cases hpending
    · exact neverApplies_of_rejected_or_lapsed ((hlostCond hlost).resolve_left hno)
    · exact neverApplies_of_rejected_or_lapsed (hbrokenCond hbroken)
    · exact neverApplies_of_rejected_or_lapsed (.inl hrejected)
    · exact Network.neverApplies_iff.mpr ⟨fun happlied => hseen (hover happlied), fun _ => hpassed⟩

/-! ### A lost acceptance -/

/-- An envelope that is valid up to the close time `1300`. -/
def sampleTransaction : SignedTransaction :=
  .transaction { maxTime := some 1300, maxLedger := none }

/-- Ledger `100` has closed. -/
def sampleNetwork : Network sampleTransaction where
  closed := [⟨100, 1000⟩]
  envelope := .unknown
  ordered := List.pairwise_singleton ..
  admitted := nofun

/-- What `fetch` rejects with. -/
def networkError : Thrown :=
  .object "Network Error" (.text "Network Error") (.text "ERR_NETWORK") none

/-- The node refuses the sequence number. -/
def badSequenceResponse : SendTransactionResponse where
  status := .ERROR
  hash := "a1"
  errorResult := some (.code "txBadSeq")
  diagnosticEvents := []

/-- The first call is accepted and its response lost; ledger `101` applies the envelope; the second
call is answered that the sequence number is used. -/
def lostMint : List Event :=
  [.send false 6000 (.ok badSequenceResponse), .ledger ⟨101, 1005⟩ (some true),
    .send true 0 (.error networkError)]

/-- The verdict of that run. -/
def lostMintError : TransactionSubmissionError where
  status := .failed
  message := "The transaction used an out-of-date sequence number. Refresh and build the " ++
    "transaction again."
  safeToRetry := true
  contractErrorCode := none
  retryRequirement := none
  txHash := some "a1"
  attempts := some 2
  cause := none

/-- The first answer sends the attempt loop round again. -/
theorem sendAttempt_networkError :
    Phase.afterSend 0 (sendAttempt {} {} (.error networkError)) =
      ([.retrying], .sending { attempt := 1 }) := by
  rfl

/-- The second one ends it. -/
theorem sendAttempt_badSequence :
    Phase.afterSend 6000 (sendAttempt {} { attempt := 1 } (.ok badSequenceResponse)) =
      ([.failure .failed], .settled (.error (.submission lostMintError))) := by
  rfl

/-- A mint whose answer is lost, and whose resend is refused. -/
theorem submits_lostMint :
    ∃ s, Submits {} sampleNetwork lostMint s ∧
      s.phase = .settled (.error (.submission lostMintError)) ∧ s.network.Applied := by
  let start : System sampleTransaction := System.start {} sampleNetwork
  let waiting := start.resume ([.retrying], .sending { attempt := 1 }) sampleNetwork.accept
  have hsent : Step {} start (.send true 0 (.error networkError)) waiting := by
    have hphase : start.phase = .sending {} := rfl
    have hanswers : start.network.AnswersSend true (.error networkError) := trivial
    have hstep : Step {} start (.send true 0 (.error networkError)) _ := .send hphase hanswers
    rwa [sendAttempt_networkError] at hstep
  -- the ledger that closes while the client sleeps applies the envelope
  have hafter : ∀ h' ∈ waiting.network.closed, (⟨101, 1005⟩ : Header).After h' := by decide
  have hadm : sampleTransaction.Admits ⟨101, 1005⟩ := by decide
  let applied := waiting.network.closeWith ⟨101, 1005⟩ true hafter hadm
  have hclosed : Step {} waiting (.ledger ⟨101, 1005⟩ (some true))
      { waiting with network := applied } :=
    .ledger (.including true hafter hadm rfl)
  have hanswered : Step {} { waiting with network := applied }
      (.send false 6000 (.ok badSequenceResponse))
      (System.resume { waiting with network := applied }
        ([.failure .failed], .settled (.error (.submission lostMintError))) applied) := by
    have hanswers : applied.AnswersSend false (.ok badSequenceResponse) :=
      ⟨rfl, nofun, fun _ => ⟨.code "txBadSeq", rfl, rfl⟩⟩
    have hstep : Step {} { waiting with network := applied }
        (.send false 6000 (.ok badSequenceResponse)) _ := .send rfl hanswers
    rwa [sendAttempt_badSequence] at hstep
  exact ⟨_, ⟨rfl, .snoc (.snoc (.snoc .nil hsent) hclosed) hanswered⟩, rfl, ⟨101, 1005⟩, rfl⟩

/-- The verdict of this run is wrong: the mint has been applied. -/
theorem not_retrySafe_lostMint : ¬ RetrySafe {} sampleNetwork lostMint := by
  intro hright
  obtain ⟨s, hrun, hphase, happlied⟩ := submits_lostMint
  exact hright s _ hrun hphase rfl s.network .refl happlied

/-! ### Two runs that are polled for

The node queues the envelope in the first call. -/

/-- The node has taken the transaction. -/
def pendingResponse : SendTransactionResponse where
  status := .PENDING
  hash := "a1"
  errorResult := none
  diagnosticEvents := []

/-- What the system is after the first answer. -/
def samplePolling : System sampleTransaction :=
  (System.start {} sampleNetwork).resume
    ([.submitted, .polling], .polling { hash := "a1", startedAt := 0 }) sampleNetwork.accept

theorem step_samplePolling :
    Step {} (System.start {} sampleNetwork) (.send true 0 (.ok pendingResponse)) samplePolling :=
  .send (rfl : (System.start {} sampleNetwork).phase = .sending {}) rfl

/-- An error whose code is a number. -/
def numberedError : Thrown :=
  .object "socket hang up" (.text "socket hang up") .other none

/-- Ledger `101` applies the envelope, and the first poll fails. -/
def brokenPoll : List Event :=
  [.get 0 6000 (.error numberedError), .ledger ⟨101, 1005⟩ (some true),
    .send true 0 (.ok pendingResponse)]

/-- The form unpins what an applied call links: `isTransientError` calls `toLowerCase` on the code, and
the `TypeError` is no `TransactionSubmissionError`. -/
theorem not_retrySafe_brokenPoll : ¬ RetrySafe {} sampleNetwork brokenPoll := by
  intro hright
  have hafter : ∀ h' ∈ samplePolling.network.closed, (⟨101, 1005⟩ : Header).After h' := by decide
  have hadm : sampleTransaction.Admits ⟨101, 1005⟩ := by decide
  have hclosed : Step {} samplePolling (.ledger ⟨101, 1005⟩ (some true)) _ :=
    .ledger (.including true hafter hadm rfl)
  have hrun : Submits {} sampleNetwork brokenPoll _ :=
    ⟨rfl, .snoc (.snoc (.snoc .nil step_samplePolling) hclosed)
      (.get (rfl : samplePolling.phase = .polling { hash := "a1", startedAt := 0 }) trivial)⟩
  exact hright _ .typeError hrun rfl rfl _ .refl ⟨⟨101, 1005⟩, rfl⟩

/-- A ledger after the bounds has closed. -/
def notFoundResponse : GetTransactionResponse where
  status := .NOT_FOUND
  latestLedger := some 101
  latestLedgerCloseTime := some 1305
  resultXdr := none
  diagnosticEventsXdr := []

/-- Ledger `101` closes after the bounds, and the node does not find the envelope. -/
def expiredMint : List Event :=
  [.get 0 6000 (.ok notFoundResponse), .ledger ⟨101, 1305⟩ none, .send true 0 (.ok pendingResponse)]

/-- A mint that expires. -/
theorem submits_expiredMint : ∃ s e, Submits {} sampleNetwork expiredMint s ∧
    s.phase = .settled (.error (.submission e)) ∧ e.safeToRetry = true ∧
      s.network.envelope = .pending := by
  have hafter : ∀ h' ∈ samplePolling.network.closed, (⟨101, 1305⟩ : Header).After h' := by decide
  have hclosed : Step {} samplePolling (.ledger ⟨101, 1305⟩ none) _ := .ledger (.without hafter)
  have hanswers : (samplePolling.network.close ⟨101, 1305⟩ hafter).AnswersGet 0
      (.ok notFoundResponse) := by
    refine ⟨⟨101, 1305⟩, List.mem_cons_self .., ?_, ?_, ?_⟩
    · rintro l ⟨⟩
      rfl
    · rintro t ⟨⟩
      rfl
    · rintro k applied ⟨⟩
  exact ⟨_, _, ⟨rfl, .snoc (.snoc (.snoc .nil step_samplePolling) hclosed)
    (.get (rfl : samplePolling.phase = .polling { hash := "a1", startedAt := 0 }) hanswers)⟩,
    rfl, rfl, rfl⟩

/-- The verdict of this run is right. -/
theorem safeToRetry_iff_expiredMint : ∃ s e, Submits {} sampleNetwork expiredMint s ∧
    s.phase = .settled (.error (.submission e)) ∧ e.safeToRetry = true ∧ s.network.NeverApplies := by
  obtain ⟨s, e, hrun, hphase, hsafe, hpending⟩ := submits_expiredMint
  refine ⟨s, e, hrun, hphase, hsafe, (safeToRetry_iff hrun hphase hsafe).mpr ⟨?_, ?_, ?_⟩⟩
  · rintro ⟨now, err, hmem⟩
    simp [expiredMint] at hmem
  · rintro ⟨oldest, now, err, hmem, -⟩
    simp [expiredMint] at hmem
  · rintro ⟨oldest, now, response, k, -, -, hincluded, -⟩
    rw [hpending] at hincluded
    cases hincluded

end StellarForge.Submission
