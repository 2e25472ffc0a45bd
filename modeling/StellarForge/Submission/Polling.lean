import StellarForge.Submission.Client
import StellarForge.Transition.Loop

/-!
# Polling for inclusion

`awaitTransactionInclusion` over a stream of outcomes.  Each round of its loop is one call of
`getTransaction`; the body is `pollAttempt`.  `Warrants` says what an outcome has to be for a result.

* `pollAttempt_decided`: the counter of the loop is the number of consecutive transport errors;
* `awaitTransactionInclusion_spec`: **the loop ends at the first outcome that decides, with a result that
  the outcome warrants, and it ends if time goes on.**
-/

namespace StellarForge.Submission

open Transition

/-! ### The loop -/

/-- What a round of the loop sees: how the call settled, and what the clock shows then. -/
structure Poll where
  outcome : Except Thrown GetTransactionResponse
  now : ℤ

/-- One round: another one, or the result of the promise. -/
def pollRound (options : SubmitOptions) (deadline : InclusionDeadline) (p : PollState) (poll : Poll) :
    PollState ⊕ Except Failure GetTransactionResponse :=
  match (pollAttempt options deadline p poll.now poll.outcome).2 with
  | .again p => .inl p
  | .done response => .inr (.ok response)
  | .throws failure => .inr (.error failure)

/-- The call with number `n`, from `0`, is made. -/
def Calls (options : SubmitOptions) (deadline : InclusionDeadline) (hash : String) (startedAt : ℤ)
    (s : ℕ → Poll) (n : ℕ) : Prop :=
  Enters (pollRound options deadline) s { hash, startedAt } n

/-- The call with number `i` is the last, and the promise settles with `result`. -/
def SettlesAt (options : SubmitOptions) (deadline : InclusionDeadline) (hash : String)
    (startedAt : ℤ) (s : ℕ → Poll) (i : ℕ) (result : Except Failure GetTransactionResponse) : Prop :=
  EndsAt (pollRound options deadline) s { hash, startedAt } i result

/-! ### What the outcomes warrant -/

/-- The call failed with an error that is transient or is not, or at which `isTransientError` throws. -/
def Poll.FailedWith (poll : Poll) (transient : Option Bool) : Prop :=
  ∃ err, poll.outcome = .error err ∧ isTransientError err = transient

/-- The call was answered with a status. -/
def Poll.Answers (poll : Poll) (status : GetTransactionStatus) (response : GetTransactionResponse) :
    Prop :=
  poll.outcome = .ok response ∧ response.status = status

/-- The observed ledger is past the greatest that the bounds admit, or its close time is. -/
def PastBounds (deadline : InclusionDeadline) (response : GetTransactionResponse) : Prop :=
  (∃ l ∈ response.latestLedger, ∃ bound ∈ deadline.maxLedger, bound < l) ∨
    ∃ t ∈ response.latestLedgerCloseTime, ∃ bound ∈ deadline.maxTime, bound < t

/-- The last `count` outcomes up to number `i` are transient errors. -/
def TransientRun (s : ℕ → Poll) (i count : ℕ) : Prop :=
  count ≤ i + 1 ∧ ∀ j ≤ i, i < j + count → (s j).FailedWith (some true)

/-- What outcome number `i` has to be for each of the results. -/
def Warrants (options : SubmitOptions) (deadline : InclusionDeadline) (startedAt : ℤ)
    (s : ℕ → Poll) (i : ℕ) : Except Failure GetTransactionResponse → Prop
  | .ok response => (s i).Answers .SUCCESS response
  | .error .typeError => (s i).FailedWith none
  | .error (.submission e) => match e.status with
    | .failed => ∃ response, (s i).Answers .FAILED response
    | .expired => ∃ response, (s i).Answers .NOT_FOUND response ∧ PastBounds deadline response
    | .unconfirmed =>
      (s i).FailedWith (some false) ∨
      TransientRun s i (options.maxConsecutiveTransportErrors + 1) ∨
      (deadline.maxLedger = none ∧ deadline.maxTime = none ∧
        (∃ response, (s i).Answers .NOT_FOUND response) ∧
        options.maxPollDurationMs ≤ (s i).now - startedAt)
    | .dropped => False

/-- Answers that keep coming show greater and greater numbers. -/
def Grows (s : ℕ → Poll) (reading : GetTransactionResponse → Poll → Option ℤ) : Prop :=
  ∀ bound k, (∃ i ≥ k, ∃ response, (s i).outcome = .ok response) →
    ∃ i ≥ k, ∃ response, (s i).outcome = .ok response ∧ ∃ x ∈ reading response (s i), bound < x

/-- Time goes on: the observed ledgers, their close times, and the clock. -/
structure TimeGrows (s : ℕ → Poll) : Prop where
  ledger : Grows s fun response _ => response.latestLedger.map Nat.cast
  closeTime : Grows s fun response _ => response.latestLedgerCloseTime.map Nat.cast
  clock : Grows s fun _ poll => some poll.now

variable {options : SubmitOptions} {deadline : InclusionDeadline} {hash : String} {startedAt : ℤ}
  {s : ℕ → Poll} {p p' : PollState} {i n count : ℕ} {poll : Poll}
  {response : GetTransactionResponse} {result : Except Failure GetTransactionResponse}

theorem exceeds_iff {latest bound : Option ℕ} :
    exceeds latest bound = true ↔ ∃ l ∈ latest, ∃ b ∈ bound, b < l := by
  cases latest <;> cases bound <;> simp [exceeds]

theorem deadlinePassed_iff : deadlinePassed deadline response = true ↔ PastBounds deadline response := by
  rw [deadlinePassed, Bool.or_eq_true, exceeds_iff, exceeds_iff, PastBounds]

/-- A verdict of expiry needs a bound. -/
theorem PastBounds.hasDeadline (h : PastBounds deadline response) :
    (deadline.maxLedger.isSome || deadline.maxTime.isSome) = true := by
  rcases h with ⟨-, -, bound, hbound, -⟩ | ⟨-, -, bound, hbound, -⟩
  · rw [Option.mem_def.mp hbound]
    rfl
  · rw [Option.mem_def.mp hbound, Bool.or_comm]
    rfl

/-! ### One round -/

/-- A round whose poll has failed. -/
theorem pollRound_error (options : SubmitOptions) (deadline : InclusionDeadline) (p : PollState)
    {err : Thrown} (h : poll.outcome = .error err) :
    (isTransientError err = none ∧
      pollRound options deadline p poll = .inr (.error .typeError)) ∨
    (isTransientError err = some true ∧
      p.consecutiveTransportErrors + 1 ≤ options.maxConsecutiveTransportErrors ∧
      pollRound options deadline p poll =
        .inl { p with consecutiveTransportErrors := p.consecutiveTransportErrors + 1 }) ∨
    ((isTransientError err = some true →
        options.maxConsecutiveTransportErrors < p.consecutiveTransportErrors + 1) ∧
      isTransientError err ≠ none ∧
      ∃ e, e.status = .unconfirmed ∧
        pollRound options deadline p poll = .inr (.error (.submission e))) := by
  unfold pollRound
  rw [h]
  simp only [pollAttempt]
  cases htransient : isTransientError err with
  | none => exact .inl ⟨rfl, rfl⟩
  | some transient =>
    -- one more transport error is forgiven, or the budget is used up
    right
    dsimp only
    split_ifs with hretry
    · exact .inl ⟨by rw [hretry.1], hretry.2, rfl⟩
    · refine .inr ⟨fun htrue => ?_, by simp, _, rfl, rfl⟩
      have hnot : ¬ p.consecutiveTransportErrors + 1 ≤ options.maxConsecutiveTransportErrors :=
        fun hle => hretry ⟨Option.some.inj htrue, hle⟩
      omega

/-- A round whose poll has been answered. -/
theorem pollRound_answer (options : SubmitOptions) (deadline : InclusionDeadline) (p : PollState)
    (h : poll.outcome = .ok response) :
    (response.status = .SUCCESS ∧ pollRound options deadline p poll = .inr (.ok response)) ∨
    (response.status = .FAILED ∧ ∃ e, e.status = .failed ∧
      pollRound options deadline p poll = .inr (.error (.submission e))) ∨
    (response.status = .NOT_FOUND ∧ PastBounds deadline response ∧ ∃ e, e.status = .expired ∧
      pollRound options deadline p poll = .inr (.error (.submission e))) ∨
    (response.status = .NOT_FOUND ∧ deadline.maxLedger = none ∧ deadline.maxTime = none ∧
      options.maxPollDurationMs ≤ poll.now - p.startedAt ∧ ∃ e, e.status = .unconfirmed ∧
      pollRound options deadline p poll = .inr (.error (.submission e))) ∨
    (response.status = .NOT_FOUND ∧ ¬ PastBounds deadline response ∧
      (deadline.maxLedger = none → deadline.maxTime = none →
        poll.now - p.startedAt < options.maxPollDurationMs) ∧
      pollRound options deadline p poll = .inl { p with consecutiveTransportErrors := 0 }) := by
  unfold pollRound
  rw [h]
  simp only [pollAttempt]
  cases hstatus : response.status with
  | SUCCESS => exact .inl ⟨rfl, rfl⟩
  | FAILED => exact .inr (.inl ⟨rfl, _, rfl, rfl⟩)
  | NOT_FOUND =>
    right; right
    dsimp only
    -- past the bounds, out of time without bounds, or another round
    split_ifs with hpassed helapsed
    · have hpast := deadlinePassed_iff.mp (Bool.and_eq_true_iff.mp hpassed).2
      exact .inl ⟨rfl, hpast, _, rfl, rfl⟩
    · right; left
      simp only [Bool.and_eq_true, Bool.not_eq_true', Bool.or_eq_false_iff, Option.isSome_eq_false_iff,
        Option.isNone_iff_eq_none, decide_eq_true_eq] at helapsed
      exact ⟨rfl, helapsed.1.1, helapsed.1.2, helapsed.2, _, rfl, rfl⟩
    · right; right
      refine ⟨rfl, fun hpast => ?_, fun hledger htime => ?_, rfl⟩
      · exact hpassed (Bool.and_eq_true_iff.mpr ⟨hpast.hasDeadline, deadlinePassed_iff.mpr hpast⟩)
      · by_contra hnot
        apply helapsed
        rw [hledger, htime]
        simpa using hnot

/-! ### The counter -/

/-- The state of the loop before call number `n`: the counter is the length of the run of transient
errors that ends there, and an answer stands before that run. -/
structure Counting (hash : String) (startedAt : ℤ) (s : ℕ → Poll) (n : ℕ) (p : PollState) : Prop where
  hash : p.hash = hash
  startedAt : p.startedAt = startedAt
  le : p.consecutiveTransportErrors ≤ n
  errors : ∀ j < n, n ≤ j + p.consecutiveTransportErrors → (s j).FailedWith (some true)
  answer : p.consecutiveTransportErrors < n →
    ∃ response, (s (n - 1 - p.consecutiveTransportErrors)).outcome = .ok response

theorem Counting.zero (hash : String) (startedAt : ℤ) (s : ℕ → Poll) :
    Counting hash startedAt s 0 { hash, startedAt } where
  hash := rfl
  startedAt := rfl
  le := Nat.le_refl 0
  errors := fun _ hj => absurd hj (Nat.not_lt_zero _)
  answer := fun h => absurd h (Nat.not_lt_zero _)

/-- One more transient error. -/
theorem Counting.error (h : Counting hash startedAt s n p) (hn : (s n).FailedWith (some true)) :
    Counting hash startedAt s (n + 1)
      { p with consecutiveTransportErrors := p.consecutiveTransportErrors + 1 } where
  hash := h.hash
  startedAt := h.startedAt
  le := Nat.succ_le_succ h.le
  errors := by
    show ∀ j < n + 1, n + 1 ≤ j + (p.consecutiveTransportErrors + 1) → _
    intro j hj hrun
    rcases Nat.lt_succ_iff_lt_or_eq.mp hj with hj | rfl
    · exact h.errors j hj (by omega)
    · exact hn
  answer := by
    show p.consecutiveTransportErrors + 1 < n + 1 →
      ∃ response, (s (n + 1 - 1 - (p.consecutiveTransportErrors + 1))).outcome = .ok response
    intro hlt
    have hindex : n + 1 - 1 - (p.consecutiveTransportErrors + 1) =
        n - 1 - p.consecutiveTransportErrors := by omega
    rw [hindex]
    exact h.answer (by omega)

/-- An answer ends the run. -/
theorem Counting.answered (h : Counting hash startedAt s n p) (hn : (s n).outcome = .ok response) :
    Counting hash startedAt s (n + 1) { p with consecutiveTransportErrors := 0 } where
  hash := h.hash
  startedAt := h.startedAt
  le := Nat.zero_le _
  errors := by
    show ∀ j < n + 1, n + 1 ≤ j + 0 → _
    intro j hj hrun
    omega
  answer := fun _ => ⟨response, hn⟩

/-- With one more the run is as long as the counter says. -/
theorem Counting.transientRun (h : Counting hash startedAt s n p)
    (hn : (s n).FailedWith (some true)) (hcount : count ≤ p.consecutiveTransportErrors + 1) :
    TransientRun s n count := by
  have hle := h.le
  refine ⟨by omega, fun j hj hrun => ?_⟩
  rcases Nat.lt_or_eq_of_le hj with hj | rfl
  · exact h.errors j hj (by omega)
  · exact hn

/-- A longer run would reach the answer before it. -/
theorem Counting.le_of_transientRun (h : Counting hash startedAt s n p)
    (hrun : TransientRun s n count) : count ≤ p.consecutiveTransportErrors + 1 := by
  by_contra hlt
  have hle := hrun.1
  obtain ⟨response, hanswer⟩ := h.answer (by omega)
  obtain ⟨err, herr, -⟩ := hrun.2 (n - 1 - p.consecutiveTransportErrors) (by omega) (by omega)
  rw [hanswer] at herr
  cases herr

/-! ### The verdicts -/

theorem not_answers_of_error {err : Thrown} {status : GetTransactionStatus}
    (h : poll.outcome = .error err) : ¬ poll.Answers status response := by
  rintro ⟨hok, -⟩
  rw [h] at hok
  cases hok

theorem not_failedWith_of_answer {transient : Option Bool} (h : poll.outcome = .ok response) :
    ¬ poll.FailedWith transient := by
  rintro ⟨err, herr, -⟩
  rw [h] at herr
  cases herr

/-- A round that ends has a warrant. -/
theorem warrants_of_pollRound (h : Counting hash startedAt s n p)
    (hround : pollRound options deadline p (s n) = .inr result) :
    Warrants options deadline startedAt s n result := by
  cases houtcome : (s n).outcome with
  | error err =>
    rcases pollRound_error options deadline p houtcome with
      -- each way a round can end comes with its own reason
      ⟨hnone, heq⟩ | ⟨-, -, heq⟩ | ⟨hcount, hsome, e, hstatus, heq⟩
    · rw [heq] at hround
      obtain rfl := Sum.inr.inj hround
      exact ⟨err, houtcome, hnone⟩
    · rw [heq] at hround
      cases hround
    · rw [heq] at hround
      obtain rfl := Sum.inr.inj hround
      simp only [Warrants, hstatus]
      obtain ⟨transient, htransient⟩ := Option.ne_none_iff_exists'.mp hsome
      cases transient with
      | false => exact .inl ⟨err, houtcome, htransient⟩
      | true =>
        exact .inr (.inl (h.transientRun ⟨err, houtcome, htransient⟩ (hcount htransient)))
  | ok response =>
    rcases pollRound_answer options deadline p houtcome with
      -- success, failure, past the bounds, out of time; a further round is excluded
      ⟨hstatus, heq⟩ | ⟨hstatus, e, he, heq⟩ | ⟨hstatus, hpast, e, he, heq⟩ |
      ⟨hstatus, hledger, htime, helapsed, e, he, heq⟩ | ⟨-, -, -, heq⟩
    · rw [heq] at hround
      obtain rfl := Sum.inr.inj hround
      exact ⟨houtcome, hstatus⟩
    · rw [heq] at hround
      obtain rfl := Sum.inr.inj hround
      simp only [Warrants, he]
      exact ⟨response, houtcome, hstatus⟩
    · rw [heq] at hround
      obtain rfl := Sum.inr.inj hround
      simp only [Warrants, he]
      exact ⟨response, ⟨houtcome, hstatus⟩, hpast⟩
    · rw [heq] at hround
      obtain rfl := Sum.inr.inj hround
      rw [h.startedAt] at helapsed
      simp only [Warrants, he]
      exact .inr (.inr ⟨hledger, htime, ⟨response, houtcome, hstatus⟩, helapsed⟩)
    · rw [heq] at hround
      cases hround

/-- A round that goes on keeps count, and its outcome warrants no result. -/
theorem counting_of_pollRound (h : Counting hash startedAt s n p)
    (hround : pollRound options deadline p (s n) = .inl p') :
    Counting hash startedAt s (n + 1) p' ∧ ∀ result, ¬ Warrants options deadline startedAt s n result := by
  cases houtcome : (s n).outcome with
  | error err =>
    rcases pollRound_error options deadline p houtcome with
      ⟨-, heq⟩ | ⟨htransient, hcount, heq⟩ | ⟨-, -, e, -, heq⟩
    · -- only a forgiven error goes on
      rw [heq] at hround
      cases hround
    · rw [heq] at hround
      obtain rfl := Sum.inl.inj hround
      have hfailed : (s n).FailedWith (some true) := ⟨err, houtcome, htransient⟩
      refine ⟨h.error hfailed, fun result hwarrants => ?_⟩
      have hclass (transient : Option Bool) (hother : (s n).FailedWith transient) :
          transient = some true := by
        obtain ⟨err', herr', hclass⟩ := hother
        rw [houtcome] at herr'
        obtain rfl := Except.error.inj herr'
        exact hclass.symm.trans htransient
      -- no verdict was warranted: the round had no answer, and the errors were too few
      match result with
      | .ok response => exact not_answers_of_error houtcome hwarrants
      | .error .typeError => exact absurd (hclass none hwarrants) (by decide)
      | .error (.submission e) =>
        cases hstatus : e.status with
        | failed =>
          simp only [Warrants, hstatus] at hwarrants
          obtain ⟨response, hanswer⟩ := hwarrants
          exact not_answers_of_error houtcome hanswer
        | expired =>
          simp only [Warrants, hstatus] at hwarrants
          obtain ⟨response, hanswer, -⟩ := hwarrants
          exact not_answers_of_error houtcome hanswer
        | unconfirmed =>
          simp only [Warrants, hstatus] at hwarrants
          rcases hwarrants with hfalse | hrun | ⟨-, -, ⟨response, hanswer⟩, -⟩
          · exact absurd (hclass (some false) hfalse) (by decide)
          · have hle := h.le_of_transientRun hrun
            omega
          · exact not_answers_of_error houtcome hanswer
        | dropped =>
          simp only [Warrants, hstatus] at hwarrants
    · rw [heq] at hround
      cases hround
  | ok response =>
    rcases pollRound_answer options deadline p houtcome with
      ⟨-, heq⟩ | ⟨-, e, -, heq⟩ | ⟨-, -, e, -, heq⟩ | ⟨-, -, -, -, e, -, heq⟩ |
      ⟨hstatus, hpast, helapsed, heq⟩
    · -- only the answer that nothing is known yet goes on
      rw [heq] at hround
      cases hround
    · rw [heq] at hround
      cases hround
    · rw [heq] at hround
      cases hround
    · rw [heq] at hround
      cases hround
    rw [heq] at hround
    obtain rfl := Sum.inl.inj hround
    refine ⟨h.answered houtcome, fun result hwarrants => ?_⟩
    have hanswers {status : GetTransactionStatus} {response' : GetTransactionResponse}
        (hother : (s n).Answers status response') : response' = response ∧ status = .NOT_FOUND := by
      obtain ⟨hok, hother⟩ := hother
      rw [houtcome] at hok
      obtain rfl := Except.ok.inj hok
      exact ⟨rfl, hother.symm.trans hstatus⟩
    -- and that answer warrants no verdict either
    match result with
    | .ok response' => exact absurd (hanswers hwarrants).2 (by decide)
    | .error .typeError => exact not_failedWith_of_answer houtcome hwarrants
    | .error (.submission e) =>
      cases he : e.status with
      | failed =>
        simp only [Warrants, he] at hwarrants
        obtain ⟨response', hanswer⟩ := hwarrants
        exact absurd (hanswers hanswer).2 (by decide)
      | expired =>
        simp only [Warrants, he] at hwarrants
        obtain ⟨response', hanswer, hpast'⟩ := hwarrants
        rw [(hanswers hanswer).1] at hpast'
        exact hpast hpast'
      | unconfirmed =>
        simp only [Warrants, he] at hwarrants
        rcases hwarrants with hfalse | hrun | ⟨hledger, htime, -, hpassed⟩
        · exact not_failedWith_of_answer houtcome hfalse
        · exact not_failedWith_of_answer houtcome (hrun.2 n (Nat.le_refl n) (by omega))
        · have hnot := helapsed hledger htime
          rw [h.startedAt] at hnot
          omega
      | dropped =>
        simp only [Warrants, he] at hwarrants

/-- The rule for loops applies. -/
theorem pollRound_decided (options : SubmitOptions) (deadline : InclusionDeadline) (hash : String)
    (startedAt : ℤ) (s : ℕ → Poll) :
    Decided (pollRound options deadline) s { hash, startedAt } (Counting hash startedAt s)
      (Warrants options deadline startedAt s) where
  initial := .zero hash startedAt s
  ends := fun _ _ _ => warrants_of_pollRound
  goesOn := fun _ _ _ => counting_of_pollRound

/-! ### The end of the loop -/

/-- A stream without a warranted result has an answer after each of its outcomes: a run of errors would
be too long. -/
theorem exists_answer (h : ∀ n result, ¬ Warrants options deadline startedAt s n result) (k : ℕ) :
    ∃ i ≥ k, ∃ response, (s i).outcome = .ok response := by
  by_contra hnone
  -- without an answer from `k` on every round fails, and each failure may be retried
  have herrors : ∀ i ≥ k, (s i).FailedWith (some true) := by
    intro i hi
    cases houtcome : (s i).outcome with
    | ok response => exact absurd ⟨i, hi, response, houtcome⟩ hnone
    | error err =>
      cases htransient : isTransientError err with
      | none =>
        have hwarrants : Warrants options deadline startedAt s i (.error .typeError) :=
          ⟨err, houtcome, htransient⟩
        exact absurd hwarrants (h i _)
      | some transient =>
        cases transient with
        | true => exact ⟨err, houtcome, htransient⟩
        | false =>
          have hwarrants : Warrants options deadline startedAt s i
              (.error (.submission (submissionError .unconfirmed "" {}))) :=
            .inl ⟨err, houtcome, htransient⟩
          exact absurd hwarrants (h i _)
  -- one more of them than the budget has
  have hrun : TransientRun s (k + options.maxConsecutiveTransportErrors)
      (options.maxConsecutiveTransportErrors + 1) :=
    ⟨by omega, fun j _ hj => herrors j (by omega)⟩
  have hwarrants : Warrants options deadline startedAt s
      (k + options.maxConsecutiveTransportErrors)
      (.error (.submission (submissionError .unconfirmed "" {}))) := .inr (.inl hrun)
  exact h _ _ hwarrants

/-- An answer that warrants no result did not find the transaction. -/
theorem answers_notFound (h : ∀ result, ¬ Warrants options deadline startedAt s n result)
    (houtcome : (s n).outcome = .ok response) : (s n).Answers .NOT_FOUND response := by
  refine ⟨houtcome, ?_⟩
  cases hstatus : response.status with
  | NOT_FOUND => rfl
  | SUCCESS =>
    have hwarrants : Warrants options deadline startedAt s n (.ok response) := ⟨houtcome, hstatus⟩
    exact absurd hwarrants (h _)
  | FAILED =>
    have hwarrants : Warrants options deadline startedAt s n
        (.error (.submission (submissionError .failed "" {}))) := ⟨response, houtcome, hstatus⟩
    exact absurd hwarrants (h _)

/-- When time goes on, some outcome warrants a result. -/
theorem exists_warrants (hgrows : TimeGrows s) :
    ∃ n result, Warrants options deadline startedAt s n result := by
  by_contra hnone
  push Not at hnone
  have hexpired {i : ℕ} {response : GetTransactionResponse} (houtcome : (s i).outcome = .ok response)
      (hpast : PastBounds deadline response) : False := by
    have hwarrants : Warrants options deadline startedAt s i
        (.error (.submission (submissionError .expired "" {}))) :=
      ⟨response, answers_notFound (hnone i) houtcome, hpast⟩
    exact hnone i _ hwarrants
  have hanswer := exists_answer hnone 0
  cases hledger : deadline.maxLedger with
  | some bound =>
    obtain ⟨i, -, response, houtcome, x, hx, hlt⟩ := hgrows.ledger bound 0 hanswer
    obtain ⟨l, hl, rfl⟩ := Option.map_eq_some_iff.mp (Option.mem_def.mp hx)
    exact hexpired houtcome (.inl ⟨l, hl, bound, hledger, Int.ofNat_lt.mp hlt⟩)
  | none =>
    cases htime : deadline.maxTime with
    | some bound =>
      obtain ⟨i, -, response, houtcome, x, hx, hlt⟩ := hgrows.closeTime bound 0 hanswer
      obtain ⟨t, ht, rfl⟩ := Option.map_eq_some_iff.mp (Option.mem_def.mp hx)
      exact hexpired houtcome (.inr ⟨t, ht, bound, htime, Int.ofNat_lt.mp hlt⟩)
    | none =>
      -- without a bound the clock decides
      obtain ⟨i, -, response, houtcome, x, hx, hlt⟩ :=
        hgrows.clock (startedAt + options.maxPollDurationMs) 0 hanswer
      obtain rfl := Option.some.inj (Option.mem_def.mp hx)
      have hwarrants : Warrants options deadline startedAt s i
          (.error (.submission (submissionError .unconfirmed "" {}))) :=
        .inr (.inr ⟨hledger, htime, ⟨response, answers_notFound (hnone i) houtcome⟩, by omega⟩)
      exact hnone i _ hwarrants

/-- **For every stream and all bounds, the promise settles at the first outcome that warrants a result,
with such a result, after which no call is made; and it settles if time goes on.** -/
theorem awaitTransactionInclusion_spec (options : SubmitOptions) (deadline : InclusionDeadline)
    (hash : String) (startedAt : ℤ) (s : ℕ → Poll) :
    (∀ i result, SettlesAt options deadline hash startedAt s i result →
      Warrants options deadline startedAt s i result ∧
      (∀ j < i, ∀ result', ¬ Warrants options deadline startedAt s j result') ∧
      ∀ n, Calls options deadline hash startedAt s n → n ≤ i) ∧
    (∀ n result, Warrants options deadline startedAt s n result →
      ∃ i ≤ n, ∃ result', SettlesAt options deadline hash startedAt s i result') ∧
    (TimeGrows s → ∃ i result, SettlesAt options deadline hash startedAt s i result) := by
  have hdecided := pollRound_decided options deadline hash startedAt s
  refine ⟨fun i result hsettles => ?_, fun n result hwarrants => ?_, fun hgrows => ?_⟩
  · obtain ⟨hwarrants, hnone⟩ := hdecided.endsAt hsettles
    exact ⟨hwarrants, hnone, fun n hn => EndsAt.le hsettles hn⟩
  · exact hdecided.exists_endsAt hwarrants
  · obtain ⟨n, result, hwarrants⟩ := exists_warrants hgrows
    obtain ⟨i, -, result', hsettles⟩ := hdecided.exists_endsAt hwarrants
    exact ⟨i, result', hsettles⟩

end StellarForge.Submission
