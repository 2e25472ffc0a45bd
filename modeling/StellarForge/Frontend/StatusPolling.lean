import StellarForge.Frontend.ErrorText
import StellarForge.Submission.Result
import StellarForge.Transition.Throughout

/-!
# The verdict on a submitted transaction

`useTransactionPolling` asks Horizon for a transaction by its hash until it has a verdict, or until the
window of a minute is over.  Horizon's record says `successful`, and has no member `status`; the text of
an error has been rewritten by `parseContractError` when the hook reads it.

* `status_ne_success`: no run ends in `success`;
* `arrived_notFound`: an answer 404 never ends the hook;
* **`throughout_correct_iff`**: the runs in which the verdict is right throughout;
* `not_correct_included`: a successful transaction.
-/

namespace StellarForge.Frontend.StatusPolling

open Submission Text Transition

/-! ### One poll -/

/-- Horizon's record of a transaction. -/
structure HorizonTransaction where
  successful : Bool
  resultXdr : String
  deriving DecidableEq, Repr

/-- What `fetch` and `res.json()` come to: a record, a response that is not `ok`, or an exception. -/
inductive Response
  | json (record : HorizonTransaction)
  | notOk (status : ℕ)
  | thrown (err : Thrown)
  deriving DecidableEq, Repr

/-- The record as the hook reads it, a `Record<string, unknown>`: the members that it looks for, where
they are strings. -/
structure Payload where
  status : Option String := none
  error : Option String := none
  resultXdr : Option String := none
  deriving DecidableEq, Repr

/-- The payload of a failed transaction. -/
def HorizonTransaction.payload (record : HorizonTransaction) : Payload where
  resultXdr := some record.resultXdr

/-- The error for a hash that Horizon does not know. -/
def transactionNotFound (hash : String) : String := "Transaction not found: " ++ hash

/-- The function that `withRetry` calls. -/
def requested (hash : String) : Response → Except Thrown HorizonTransaction
  | .json record => .ok record
  | .notOk status =>
    if status = 404 then .error (thrownError (transactionNotFound hash))
    else .error (.httpError status ("Horizon error " ++ toString status))
  | .thrown err => .error err

/-- The attempts at one request. -/
def DEFAULT_MAX_ATTEMPTS : ℕ := 3

/-- What follows when a request of `getTransaction` has settled. -/
inductive Settled
  | returns (record : HorizonTransaction)
  /-- `withRetry` makes another request after a delay. -/
  | retries
  /-- `getTransaction` throws an `Error` with the message. -/
  | rejects (message : String)
  deriving DecidableEq, Repr

/-- The libraries: how `fromXDR` parses a result, and the text of the `TypeError` that
`isTransientError` throws on an error whose `code` is not a string. -/
structure Platform where
  fromXDR : String → Option TransactionResult
  typeError : String

/-- `toUserFacingError(err).message` -/
def userFacingMessage (err : Thrown) : String := parseContractError err

/-- `withRetry` catches what request number `attempt` has thrown, and `getTransaction` what `withRetry`
throws. -/
def caught (platform : Platform) (attempt : ℕ) (err : Thrown) : Settled :=
  match isTransientError err with
  | none => .rejects (userFacingMessage (thrownError platform.typeError))
  | some false => .rejects (userFacingMessage err)
  | some true =>
    if attempt = DEFAULT_MAX_ATTEMPTS then .rejects (userFacingMessage err) else .retries

/-- `getTransaction`, when request number `attempt` has settled. -/
def getTransaction (platform : Platform) (hash : String) (attempt : ℕ) (response : Response) :
    Settled :=
  match requested hash response with
  | .ok record => .returns record
  | .error err => caught platform attempt err

/-- `/not found/i` -/
def isNotFoundError (message : String) : Bool := includes (toLowerCase message) "not found"

/-! ### The hook -/

/-- The statuses of the hook. -/
inductive TransactionPollStatus
  | pending
  | success
  | failed
  | unconfirmed
  deriving DecidableEq, Repr

/-- What the hook waits for. -/
inductive Waiting
  /-- A timer, after which request number `attempt` of a poll is made. -/
  | timer (attempt : ℕ)
  /-- The answer to a request. -/
  | answer (attempt : ℕ)
  /-- An answer is on its way. -/
  | arrival (attempt : ℕ) (response : Response)
  | nothing
  deriving DecidableEq, Repr

/-- The hook and Horizon. -/
structure Poll where
  status : TransactionPollStatus := .pending
  error : Option String := none
  retryRequirement : Option String := none
  deterministicFailure : Bool := false
  settled : Bool := false
  waiting : Waiting := .timer 1
  /-- The transaction, once a ledger has included it. -/
  included : Option HorizonTransaction := none
  /-- The record that a poll has received before the window was over. -/
  received : Option HorizonTransaction := none
  deriving DecidableEq, Repr

/-- What the hook says when the time is over. -/
def TIMEOUT_MESSAGE : String :=
  "Not confirmed yet — the transaction was submitted but has not been included within " ++
    "the polling window. Check the explorer before submitting it again."

namespace Poll

/-- The transaction has failed, and might succeed if it were sent again. -/
def safeToRetry (s : Poll) : Bool := s.status = .failed && !s.deterministicFailure

/-- `settle()` -/
def settle (s : Poll) : Poll := { s with settled := true, waiting := .nothing }

/-- The hook waits for the timer of the next poll. -/
def scheduleNextPoll (s : Poll) : Poll := { s with waiting := .timer 1 }

/-- The hook gets a record. -/
def resolved (platform : Platform) (payload : Payload) (s : Poll) : Poll :=
  if payload.status = some "success" then { s.settle with status := .success }
  else if payload.status = some "error" ∨ payload.status = some "failed" then
    let failure := decodeTransactionFailure (payload.resultXdr.bind platform.fromXDR) []
      (some (payload.error.getD "Transaction failed"))
    { s.settle with
      status := .failed
      error := some failure.message
      deterministicFailure := failure.deterministic
      retryRequirement := failure.retryRequirement }
  else s.scheduleNextPoll

/-- The hook gets an error. -/
def rejected (message : String) (s : Poll) : Poll :=
  if isNotFoundError message then s.scheduleNextPoll
  else { s.settle with status := .failed, error := some message }

/-- The answer to a request arrives. -/
def arrived (platform : Platform) (hash : String) (attempt : ℕ) (response : Response) (s : Poll) :
    Poll :=
  match getTransaction platform hash attempt response with
  | .returns record =>
    if s.settled then { s with waiting := .nothing }
    else resolved platform record.payload { s with received := some record }
  | .retries => { s with waiting := .timer (attempt + 1) }
  | .rejects message =>
    if s.settled then { s with waiting := .nothing } else s.rejected message

/-- The window of `TIMEOUT_MS` is over. -/
def timedOut (s : Poll) : Poll :=
  if s.settled then s
  else { s with settled := true, status := .unconfirmed, error := some TIMEOUT_MESSAGE }

end Poll

/-- How a single request fails. -/
inductive Fault
  | transport (err : Thrown)
  | http (status : ℕ)
  deriving DecidableEq, Repr

/-- The answer that a fault makes. -/
def Fault.response : Fault → Response
  | .transport err => .thrown err
  | .http status => .notOk status

/-- What may happen to the hook or at Horizon. -/
inductive Event
  /-- A ledger includes the transaction. -/
  | included (record : HorizonTransaction)
  /-- The timer that the hook waits for fires. -/
  | timer
  /-- Horizon answers the request. -/
  | answered
  /-- The request fails. -/
  | fails (fault : Fault)
  /-- The answer arrives. -/
  | arrives
  | deadline
  deriving DecidableEq, Repr

/-- `GET /transactions/{hash}` -/
def horizon (included : Option HorizonTransaction) : Response :=
  included.elim (.notOk 404) .json

/-- One event. -/
def step (platform : Platform) (hash : String) (s : Poll) : Event → Poll
  | .included record => { s with included := s.included.or (some record) }
  | .timer =>
    match s.waiting with
    | .timer attempt =>
      -- the timer between two polls has been cleared; the one of `withRetry` has not
      if s.settled ∧ attempt = 1 then { s with waiting := .nothing }
      else { s with waiting := .answer attempt }
    | _ => s
  | .answered =>
    match s.waiting with
    | .answer attempt => { s with waiting := .arrival attempt (horizon s.included) }
    | _ => s
  | .fails fault =>
    match s.waiting with
    | .answer attempt => { s with waiting := .arrival attempt fault.response }
    | _ => s
  | .arrives =>
    match s.waiting with
    | .arrival attempt response => s.arrived platform hash attempt response
    | _ => s
  | .deadline => s.timedOut

/-! ### The property and the condition -/

/-- A ledger has included the transaction, with success or without. -/
def Poll.IncludedAs (s : Poll) (successful : Bool) : Prop :=
  s.included.map HorizonTransaction.successful = some successful

/-- A poll has received such a record. -/
def Poll.ReceivedAs (s : Poll) (successful : Bool) : Prop :=
  s.received.map HorizonTransaction.successful = some successful

/-- `success` only if the transaction has been included successfully, and whenever a poll has received
the record of that; `failed` only if it has been included and failed, and a retry is offered only when
that has been seen. -/
structure Correct (s : Poll) : Prop where
  included_of_success : s.status = .success → s.IncludedAs true
  success_of_received : s.ReceivedAs true → s.status = .success
  included_of_failed : s.status = .failed → s.IncludedAs false
  received_of_retry : s.safeToRetry = true → s.IncludedAs false ∧ s.ReceivedAs false

/-- A poll that the hook still waits for does not get the record of a successful transaction; and it
ends with an error that does not say "not found" only if the record of a failed transaction has been
received before. -/
def Keeps (platform : Platform) (hash : String) (s : Poll) : Event → Prop
  | .arrives => s.settled = false → ∀ attempt response, s.waiting = .arrival attempt response →
    match getTransaction platform hash attempt response with
    | .returns record => record.successful = false
    | .retries => True
    | .rejects message => isNotFoundError message = false → s.ReceivedAs false
  | _ => True

variable {platform : Platform} {hash : String} {s : Poll} {e : Event}

/-! ### The invariant -/

/-- What holds in every run. -/
structure Honest (s : Poll) : Prop where
  /-- A record comes from the ledger. -/
  received : ∀ record ∈ s.received, s.included = some record
  arriving : ∀ attempt record, s.waiting = .arrival attempt (.json record) →
    s.included = some record
  /-- Horizon's records have no `status`. -/
  ne_success : s.status ≠ .success
  deterministicFailure : s.deterministicFailure = false
  pending : s.settled = false → s.status = .pending

theorem honest_initial : Honest {} where
  received := nofun
  arriving := nofun
  ne_success := nofun
  deterministicFailure := rfl
  pending _ := rfl

/-- The hook does not recognise a record of Horizon's. -/
theorem resolved_payload (record : HorizonTransaction) :
    s.resolved platform record.payload = s.scheduleNextPoll := by
  have hnone : record.payload.status = none := rfl
  rw [Poll.resolved, hnone, if_neg (by simp), if_neg (by simp)]

theorem caught_ne_returns {attempt : ℕ} {err : Thrown} {record : HorizonTransaction} :
    caught platform attempt err ≠ .returns record := by
  unfold caught
  split
  · nofun
  · nofun
  · split_ifs <;> nofun

/-- Only a record can be returned. -/
theorem json_of_returns {attempt : ℕ} {response : Response} {record : HorizonTransaction}
    (h : getTransaction platform hash attempt response = .returns record) :
    response = .json record := by
  unfold getTransaction at h
  cases response with
  | json other =>
    obtain rfl := Settled.returns.inj h
    rfl
  | notOk status =>
    have herror : ∃ err, requested hash (.notOk status) = .error err := by
      unfold requested
      dsimp only
      split_ifs
      · exact ⟨_, rfl⟩
      · exact ⟨_, rfl⟩
    obtain ⟨err, herror⟩ := herror
    rw [herror] at h
    exact absurd h caught_ne_returns
  | thrown err => exact absurd h caught_ne_returns

/-- A transaction stays in its ledger. -/
theorem Honest.included (h : Honest s) (record : HorizonTransaction) :
    Honest { s with included := s.included.or (some record) } := by
  have hkept (r : HorizonTransaction) (hr : s.included = some r) :
      s.included.or (some record) = some r := by
    rw [hr]
    rfl
  constructor
  · exact fun r hr => hkept r (h.received r hr)
  · exact fun attempt r hr => hkept r (h.arriving attempt r hr)
  · exact h.ne_success
  · exact h.deterministicFailure
  · exact h.pending

/-- The hook waits for something else. -/
theorem Honest.wait (h : Honest s) {waiting : Waiting}
    (hwaiting : ∀ attempt record, waiting = .arrival attempt (.json record) →
      s.included = some record) : Honest { s with waiting } where
  received := h.received
  arriving := hwaiting
  ne_success := h.ne_success
  deterministicFailure := h.deterministicFailure
  pending := h.pending

/-- What the hook does with the answer that arrives, in every case. -/
theorem arrived_cases (platform : Platform) (hash : String) (s : Poll) (attempt : ℕ)
    (response : Response) :
    (∃ waiting, s.arrived platform hash attempt response = { s with waiting } ∧
      (∀ n r, waiting ≠ .arrival n r) ∧
      (s.settled = true ∨ getTransaction platform hash attempt response = .retries ∨
        ∃ message, getTransaction platform hash attempt response = .rejects message ∧
          isNotFoundError message = true)) ∨
    (∃ record, getTransaction platform hash attempt response = .returns record ∧
      s.settled = false ∧
      s.arrived platform hash attempt response =
        { s with received := some record, waiting := .timer 1 }) ∨
    ∃ message, getTransaction platform hash attempt response = .rejects message ∧
      s.settled = false ∧ isNotFoundError message = false ∧
      s.arrived platform hash attempt response =
        { s with settled := true, waiting := .nothing, status := .failed, error := some message } := by
  unfold Poll.arrived
  -- the three ends of a request: a record, a retry inside the service, or an error
  rcases hget : getTransaction platform hash attempt response with record | _ | message
  · dsimp only
    rw [resolved_payload]
    by_cases hsettled : s.settled = true
    · rw [if_pos hsettled]
      exact .inl ⟨.nothing, rfl, nofun, .inl hsettled⟩
    · rw [if_neg hsettled]
      exact .inr (.inl ⟨record, rfl, eq_false_of_ne_true hsettled, rfl⟩)
  · exact .inl ⟨.timer (attempt + 1), rfl, nofun, .inr (.inl rfl)⟩
  · dsimp only
    by_cases hsettled : s.settled = true
    · rw [if_pos hsettled]
      exact .inl ⟨.nothing, rfl, nofun, .inl hsettled⟩
    · rw [if_neg hsettled, Poll.rejected]
      -- the hook takes an error with the words as a reason to go on polling
      by_cases hnotFound : isNotFoundError message = true
      · rw [if_pos hnotFound]
        exact .inl ⟨.timer 1, rfl, nofun, .inr (.inr ⟨message, rfl, hnotFound⟩)⟩
      · rw [if_neg hnotFound]
        exact .inr (.inr ⟨message, rfl, eq_false_of_ne_true hsettled,
          eq_false_of_ne_true hnotFound, rfl⟩)

theorem Honest.arrived (h : Honest s) {attempt : ℕ} {response : Response}
    (hwaiting : s.waiting = .arrival attempt response) :
    Honest (s.arrived platform hash attempt response) := by
  rcases arrived_cases platform hash s attempt response with
    ⟨waiting, heq, hno, -⟩ | ⟨record, hget, -, heq⟩ | ⟨message, -, -, -, heq⟩
  · rw [heq]
    exact h.wait fun n r hr => absurd hr (hno n _)
  · rw [heq]
    refine ⟨fun r hr => ?_, nofun, h.ne_success, h.deterministicFailure, h.pending⟩
    obtain rfl := Option.some.inj hr
    exact h.arriving attempt _ (by rw [hwaiting, json_of_returns hget])
  · rw [heq]
    exact ⟨h.received, nofun, nofun, h.deterministicFailure, nofun⟩

/-- The invariant holds after every event. -/
theorem Honest.step (h : Honest s) : Honest (step platform hash s e) := by
  unfold StatusPolling.step
  cases e with
  | included record => exact h.included record
  | timer =>
    dsimp only
    split
    · split_ifs
      · exact h.wait nofun
      · exact h.wait nofun
    · exact h
  | answered =>
    dsimp only
    split
    · refine h.wait fun n record hrecord => ?_
      -- the answer is a record only if there is one
      have hanswer := (Waiting.arrival.inj hrecord).2
      cases hincluded : s.included with
      | none =>
        rw [hincluded] at hanswer
        cases hanswer
      | some r =>
        rw [hincluded] at hanswer
        rw [Response.json.inj hanswer]
    · exact h
  | fails fault =>
    dsimp only
    split
    · refine h.wait fun n record hrecord => ?_
      have hanswer := (Waiting.arrival.inj hrecord).2
      cases fault with
      | transport err => cases hanswer
      | http status => cases hanswer
    · exact h
  | arrives =>
    dsimp only
    split
    · next attempt response hwaiting => exact h.arrived hwaiting
    · exact h
  | deadline =>
    dsimp only
    unfold Poll.timedOut
    split_ifs
    · exact h
    · exact ⟨h.received, h.arriving, nofun, h.deterministicFailure, nofun⟩

/-- **No run ends in `success`.** -/
theorem status_ne_success (platform : Platform) (hash : String) (events : List Event) :
    (events.foldl (step platform hash) {}).status ≠ .success := by
  have h : Honest (events.foldl (step platform hash) {}) :=
    foldl_invariant (I := Honest) (fun h => h.step) honest_initial
  exact h.ne_success

/-! ### Answers 404 -/

/-- The digits of a transaction hash. -/
def hexDigits : List Char :=
  ['0', '1', '2', '3', '4', '5', '6', '7', '8', '9', 'a', 'b', 'c', 'd', 'e', 'f']

/-- What is evaluated on the texts: the words that `parseContractError` looks for do not begin in the
text before the hash and cannot be part of a hash, and no message of the table begins with that text. -/
theorem transactionNotFound_checked :
    ∃ start words texts pattern simulation notFound,
      "Transaction not found: ".toList = start ∧
      (genericRules.flatMap Prod.fst).map String.toList = words ∧
      (CONTRACT_ERROR_MESSAGES.map Prod.snd).map String.toList = texts ∧
      "Error(Contract,".toList = pattern ∧
      "simulation".toList = simulation ∧
      "not found".toList = notFound ∧
      (words.all fun word =>
        apart word (start.map lowerChar) && word.any fun c => !hexDigits.contains c) = true ∧
      (texts.all fun text => !start.isPrefixOf text) = true ∧
      (apart pattern start && pattern.any fun c => !hexDigits.contains c) = true ∧
      (apart simulation start && simulation.any fun c => !hexDigits.contains c) = true ∧
      notFound <:+: start.map lowerChar := by
  -- the texts once, then five closed facts about them
  apply Exists.intro
  apply Exists.intro
  apply Exists.intro
  apply Exists.intro
  apply Exists.intro
  apply Exists.intro
  refine And.intro ?_ (And.intro ?_ (And.intro ?_ (And.intro ?_ (And.intro ?_ (And.intro ?_ ?_)))))
  · exact String.toList_ofList
  · unfold genericRules
    repeat rewrite [List.flatMap_cons]
    rewrite [List.flatMap_nil]
    repeat rewrite [List.cons_append]
    repeat rewrite [List.nil_append]
    repeat apply map_toList_cons
    exact List.map_nil
  · unfold CONTRACT_ERROR_MESSAGES
    repeat apply map_toList_entry
    exact rfl
  · exact String.toList_ofList
  · exact String.toList_ofList
  · exact String.toList_ofList
  · refine And.intro ?_ (And.intro ?_ (And.intro ?_ (And.intro ?_ ?_)))
    · decide +kernel
    · decide +kernel
    · decide +kernel
    · decide +kernel
    · decide +kernel

section NotFound

variable (hhash : ∀ c ∈ hash.toList, c ∈ hexDigits)

include hhash

theorem map_lowerChar_hash : hash.toList.map lowerChar = hash.toList := by
  have hdigits : (hexDigits.all fun c => lowerChar c == c) = true := by decide +kernel
  have hsame : hash.toList.map lowerChar = hash.toList.map id := by
    apply List.map_congr_left
    intro c hc
    exact eq_of_beq (List.all_eq_true.mp hdigits c (hhash c hc))
  rw [hsame, List.map_id]

/-- A pattern that has passed the checks does not occur. -/
theorem not_occurs {pattern text : List Char}
    (h : (apart pattern text && pattern.any fun c => !hexDigits.contains c) = true) :
    occurs pattern (text ++ hash.toList) = false := by
  obtain ⟨hapart, hany⟩ := Bool.and_eq_true_iff.mp h
  obtain ⟨c, hc, hdigit⟩ := List.any_eq_true.mp hany
  apply occurs_append_of_apart hapart hc
  intro hmem
  have hcontains : hexDigits.contains c = true := List.contains_iff_mem.mpr (hhash c hmem)
  rw [hcontains] at hdigit
  cases hdigit

/-- Nothing is found in the text of an answer 404 but that the transaction has not been found. -/
theorem parseContractError_transactionNotFound :
    parseContractError (thrownError (transactionNotFound hash)) = transactionNotFound hash := by
  obtain ⟨start, words, texts, pattern, simulation, _, hstart, hwords, htexts, hpattern, hsimulation,
    _, hquiet, hmessages, hnamed, hsimulated, _⟩ := transactionNotFound_checked
  have htext : (transactionNotFound hash).toList = start ++ hash.toList := by
    unfold transactionNotFound
    rewrite [String.toList_append, hstart]
    exact Eq.refl _
  -- none of the generic words stands in the text: all have a letter that no hash has
  have hnone : (genericRules.find? fun rule =>
      includesAny (toLowerCase (transactionNotFound hash)) rule.1) = none := by
    have hquiet : Quiet (transactionNotFound hash) := by
      rw [quiet_iff hwords, mentions, htext, List.map_append, map_lowerChar_hash hhash,
        List.any_eq_false]
      intro word hword
      rw [not_occurs hhash (List.all_eq_true.mp hquiet word hword)]
      exact Bool.false_ne_true
    rw [List.find?_eq_none]
    intro rule hrule
    rw [hquiet rule hrule]
    exact Bool.false_ne_true
  have hcode : contractErrorCodeFromMessage (some (transactionNotFound hash)) = none := by
    have hfirst : firstMatch contractErrorAt (transactionNotFound hash).toList = none := by
      apply firstMatch_eq_none
      intro rest hrest
      rw [htext] at hrest
      rw [contractErrorAt, afterPrefix, hpattern,
        not_isPrefixOf_of_occurs (not_occurs hhash hnamed) hrest]
      rfl
    -- no message of the table starts as the text does
    have hfind : (CONTRACT_ERROR_MESSAGES.find? fun entry =>
        entry.2 == transactionNotFound hash) = none := by
      rw [List.find?_eq_none]
      rintro ⟨code, message⟩ hentry hequal
      have hstarts := List.all_eq_true.mp hmessages _ (toList_mem htexts hentry)
      have hequal : message = transactionNotFound hash := eq_of_beq hequal
      rw [hequal, htext] at hstarts
      rw [List.isPrefixOf_iff_prefix.mpr (List.prefix_append start _)] at hstarts
      cases hstarts
    simp only [contractErrorCodeFromMessage, Option.bind_eq_bind, Option.bind_some, hfirst,
      Option.none_or, hfind, Option.map_none]
  have hsimulation : includes (transactionNotFound hash) "simulation" = false := by
    rw [includes_eq_occurs, htext, hsimulation]
    exact not_occurs hhash hsimulated
  rw [parseContractError_eq, hnone, hcode, hsimulation]
  rfl

omit hhash in
/-- The error for an unknown hash is taken for one. -/
theorem isNotFoundError_transactionNotFound : isNotFoundError (transactionNotFound hash) = true := by
  obtain ⟨start, _, _, _, _, notFound, hstart, _, _, _, _, hnotFound, _, _, _, _, hinfix⟩ :=
    transactionNotFound_checked
  obtain ⟨before, after, hinfix⟩ := hinfix
  unfold isNotFoundError transactionNotFound
  rewrite [includes_toLowerCase, String.toList_append, hstart, hnotFound, List.map_append, ← hinfix]
  unfold occurs
  rewrite [List.any_eq_true]
  refine ⟨notFound ++ (after ++ hash.toList.map lowerChar), ?_, ?_⟩
  · rw [List.mem_tails]
    exact ⟨before, by simp only [List.append_assoc]⟩
  · exact List.isPrefixOf_iff_prefix.mpr (List.prefix_append ..)

/-- **An answer 404 never ends the hook**, nor does it show anything. -/
theorem arrived_notFound (platform : Platform) (s : Poll) (attempt : ℕ) :
    ∃ waiting, s.arrived platform hash attempt (.notOk 404) = { s with waiting } := by
  have herror : requested hash (.notOk 404) = .error (thrownError (transactionNotFound hash)) := rfl
  -- the text has the words the service retries on
  have htransient : isTransientError (thrownError (transactionNotFound hash)) ≠ none := by
    unfold thrownError isTransientError Property.lowered
    simp only [Option.bind_eq_bind, Option.bind_some]
    split_ifs <;> nofun
  have hmessage : userFacingMessage (thrownError (transactionNotFound hash)) =
      transactionNotFound hash := parseContractError_transactionNotFound hhash
  -- so it is retried inside the service, or handed on with its own text
  have hcaught : getTransaction platform hash attempt (.notOk 404) = .retries ∨
      getTransaction platform hash attempt (.notOk 404) = .rejects (transactionNotFound hash) := by
    unfold getTransaction caught
    rw [herror]
    dsimp only
    rw [hmessage]
    split
    · next hnone => exact absurd hnone htransient
    · exact .inr rfl
    · split_ifs
      · exact .inr rfl
      · exact .inl rfl
  rcases arrived_cases platform hash s attempt (.notOk 404) with
    ⟨waiting, heq, -⟩ | ⟨record, hget, -⟩ | ⟨message, hget, -, hno, -⟩
  · exact ⟨waiting, heq⟩
  · -- neither of the two returns a record
    rcases hcaught with h | h <;> rw [h] at hget <;> cases hget
  · rcases hcaught with h | h
    · rw [h] at hget
      cases hget
    · rw [h] at hget
      obtain rfl := Settled.rejects.inj hget
      rw [isNotFoundError_transactionNotFound] at hno
      cases hno

end NotFound

/-! ### The steps that keep the verdict right -/

/-- What the property depends on. -/
theorem Correct.congr {s' : Poll} (hs : Correct s) (hstatus : s'.status = s.status)
    (hdeterministic : s'.deterministicFailure = s.deterministicFailure)
    (hincluded : s'.included = s.included) (hreceived : s'.received = s.received) : Correct s' := by
  have hretry : s'.safeToRetry = s.safeToRetry := by
    rw [Poll.safeToRetry, hstatus, hdeterministic, Poll.safeToRetry]
  constructor
  · rw [hstatus, Poll.IncludedAs, hincluded]
    exact hs.included_of_success
  · rw [hstatus, Poll.ReceivedAs, hreceived]
    exact hs.success_of_received
  · rw [hstatus, Poll.IncludedAs, hincluded]
    exact hs.included_of_failed
  · rw [hretry, Poll.IncludedAs, hincluded, Poll.ReceivedAs, hreceived]
    exact hs.received_of_retry

theorem Correct.wait (hs : Correct s) (waiting : Waiting) : Correct { s with waiting } :=
  hs.congr rfl rfl rfl rfl

theorem Poll.safeToRetry_of_failed {s : Poll} (hstatus : s.status = .failed)
    (hdeterministic : s.deterministicFailure = false) : s.safeToRetry = true := by
  rw [Poll.safeToRetry, hstatus, hdeterministic]
  rfl

theorem Poll.status_of_safeToRetry {s : Poll} (h : s.safeToRetry = true) : s.status = .failed := by
  unfold Poll.safeToRetry at h
  exact of_decide_eq_true (Bool.and_eq_true_iff.mp h).1

/-- No verdict yet, or none at all. -/
theorem correct_of_no_verdict (hsuccess : s.status ≠ .success) (hfailed : s.status ≠ .failed)
    (hreceived : ¬ s.ReceivedAs true) : Correct s where
  included_of_success h := absurd h hsuccess
  success_of_received h := absurd h hreceived
  included_of_failed h := absurd h hfailed
  received_of_retry h := absurd (Poll.status_of_safeToRetry h) hfailed

/-- A poll gets a record. -/
theorem correct_received_iff (hs : Honest s) (hsettled : s.settled = false)
    (record : HorizonTransaction) :
    Correct { s with received := some record, waiting := .timer 1 } ↔ record.successful = false := by
  have hpending : s.status = .pending := hs.pending hsettled
  constructor
  · intro h
    by_contra hsuccessful
    -- a record of success leaves the hook pending
    have hsuccess := h.success_of_received (congrArg some (eq_true_of_ne_false hsuccessful))
    exact hs.ne_success hsuccess
  · intro hfailed
    refine correct_of_no_verdict hs.ne_success ?_ ?_
    · show s.status ≠ .failed
      rw [hpending]
      nofun
    · intro hreceived
      have heq : record.successful = true := Option.some.inj hreceived
      rw [hfailed] at heq
      cases heq

/-- A poll ends with an error that ends the hook. -/
theorem correct_failed_iff (hs : Honest s) (message : String) :
    Correct { s with settled := true, waiting := .nothing, status := .failed, error := some message } ↔
      s.ReceivedAs false := by
  constructor
  · intro h
    exact (h.received_of_retry (Poll.safeToRetry_of_failed rfl hs.deterministicFailure)).2
  · intro hreceived
    -- what has been received is what the ledger holds
    have hincluded : s.IncludedAs false := by
      obtain ⟨record, hrecord, hfailed⟩ := Option.map_eq_some_iff.mp hreceived
      rw [Poll.IncludedAs, hs.received record hrecord]
      exact congrArg some hfailed
    refine ⟨nofun, fun htrue => ?_, fun _ => hincluded, fun _ => ⟨hincluded, hreceived⟩⟩
    have heq : (some true : Option Bool) = some false := htrue.symm.trans hreceived
    cases heq

/-- **An answer leaves the hook correct exactly under the condition.** -/
theorem correct_arrived_iff (hs : Honest s) (hc : Correct s) {attempt : ℕ} {response : Response}
    (hwaiting : s.waiting = .arrival attempt response) :
    Correct (s.arrived platform hash attempt response) ↔ Keeps platform hash s .arrives := by
  -- the answer that arrives is the one being waited for
  have hkeeps : Keeps platform hash s .arrives ↔ (s.settled = false →
      match getTransaction platform hash attempt response with
      | .returns record => record.successful = false
      | .retries => True
      | .rejects message => isNotFoundError message = false → s.ReceivedAs false) := by
    constructor
    · exact fun h hsettled => h hsettled attempt response hwaiting
    · intro h hsettled n r hr
      obtain ⟨rfl, rfl⟩ := Waiting.arrival.inj (hwaiting.symm.trans hr)
      exact h hsettled
  rw [hkeeps]
  -- the three effects of an answer against the three cases of the condition
  rcases arrived_cases platform hash s attempt response with
    ⟨waiting, heq, -, hcase⟩ | ⟨record, hget, hsettled, heq⟩ | ⟨message, hget, hsettled, hno, heq⟩
  · rw [heq]
    refine iff_of_true (hc.wait waiting) fun hsettled => ?_
    rcases hcase with htrue | hget | ⟨message, hget, hnotFound⟩
    · rw [hsettled] at htrue
      cases htrue
    · rw [hget]
      trivial
    · rw [hget]
      intro hno
      rw [hnotFound] at hno
      cases hno
  · rw [heq, hget, correct_received_iff hs hsettled]
    exact ⟨fun h _ => h, fun h => h hsettled⟩
  · rw [heq, hget, correct_failed_iff hs]
    exact ⟨fun h _ _ => h, fun h => h hsettled hno⟩

/-- **The steps that keep the verdict right.** -/
theorem correct_step_iff (hs : Honest s) (hc : Correct s) :
    Correct (step platform hash s e) ↔ Keeps platform hash s e := by
  have hreceived : ¬ s.ReceivedAs true := fun h => hs.ne_success (hc.success_of_received h)
  unfold StatusPolling.step
  cases e with
  -- the node may include the transaction at any time, once
  | included record =>
    refine iff_of_true ?_ trivial
    have hkept (successful : Bool) (h : s.IncludedAs successful) :
        Poll.IncludedAs { s with included := s.included.or (some record) } successful := by
      obtain ⟨r, hr, hsuccessful⟩ := Option.map_eq_some_iff.mp h
      show (s.included.or (some record)).map _ = _
      rw [hr]
      exact congrArg some hsuccessful
    refine ⟨fun h => hkept true (hc.included_of_success h), hc.success_of_received,
      fun h => hkept false (hc.included_of_failed h), fun h => ?_⟩
    obtain ⟨hincluded, hreceived⟩ := hc.received_of_retry h
    exact ⟨hkept false hincluded, hreceived⟩
  | timer =>
    refine iff_of_true ?_ trivial
    dsimp only
    split
    · split_ifs
      · exact hc.wait _
      · exact hc.wait _
    · exact hc
  | answered =>
    refine iff_of_true ?_ trivial
    dsimp only
    split
    · exact hc.wait _
    · exact hc
  | fails fault =>
    refine iff_of_true ?_ trivial
    dsimp only
    split
    · exact hc.wait _
    · exact hc
  -- only an answer can bring a verdict
  | arrives =>
    dsimp only
    split
    · next attempt response hwaiting => exact correct_arrived_iff hs hc hwaiting
    · next hother =>
      exact iff_of_true hc fun _ attempt response hwaiting => absurd hwaiting (hother attempt response)
  -- the deadline settles without a verdict
  | deadline =>
    refine iff_of_true ?_ trivial
    dsimp only
    unfold Poll.timedOut
    split_ifs
    · exact hc
    · exact correct_of_no_verdict nofun nofun hreceived

/-- **The verdict is right throughout a run if and only if no poll gets the record of a successful
transaction and none ends the hook with an error before it has the record of a failed one.** -/
theorem throughout_correct_iff (platform : Platform) (hash : String) (events : List Event) :
    Throughout (step platform hash) Correct {} events ↔
      Kept (step platform hash) (Keeps platform hash) {} events :=
  throughout_iff_kept (I := Honest) (fun h => h.step) correct_step_iff honest_initial
    (correct_of_no_verdict nofun nofun nofun)

/-- A transaction succeeds, and the first poll gets its record. -/
theorem not_correct_included :
    ¬ ∀ platform hash events, Throughout (step platform hash) Correct {} events := by
  intro h
  have hlast := (h ⟨fun _ => none, ""⟩ "00" [.included ⟨true, ""⟩, .timer, .answered, .arrives]).last
  have hsuccess := hlast.success_of_received rfl
  revert hsuccess
  decide

end StellarForge.Frontend.StatusPolling
