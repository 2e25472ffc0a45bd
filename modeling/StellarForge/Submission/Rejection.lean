import StellarForge.Submission.Result

/-!
# Whose rejection is reported

The calls that a factory call makes may fail with codes of their own, which `try_transfer` catches.
Their diagnostic events stand before the ones of the factory call, and the codes of all contracts are
numbers of the same kind.

* `decode_eq`: which event the verdict is read from;
* `attributed_iff`: **when the reported rejection is the one of the factory**;
* `not_attributed_sampleEvents`: a treasury that cannot take the fee token.
-/

namespace StellarForge.Submission

/-! ### Failed invocations -/

/-- Which call failed with the code that an event carries: the factory call itself, or a call of
another contract below it. -/
inductive Reporter
  | factoryCall
  | subCall (contract : String)
  deriving DecidableEq, Repr

/-- A diagnostic event as it is received, with the call whose code it carries. -/
structure Reported where
  event : Option DiagnosticEvent
  reporter : Option Reporter
  reporter_isSome :
    reporter.isSome = (event.bind DiagnosticEvent.contractErrorCode).isSome

/-- The code an event carries. -/
def Reported.code (e : Reported) : Option ℕ := e.event.bind DiagnosticEvent.contractErrorCode

/-- The events of an invocation that failed with `code`, if it was with a code of the contract: all
events of the factory call itself carry it, and there is one. -/
structure FailedInvocation (code : Option ℕ) (events : List Reported) : Prop where
  carries : ∀ e ∈ events, e.reporter = some .factoryCall → e.code = code
  reports : code.isSome → ∃ e ∈ events, e.reporter = some .factoryCall

/-- The verdict is about the code with which the factory call failed, and the event it is read from
is one of that call. -/
structure Attributed (result : Option TransactionResult) (fallbackMessage : Option String)
    (code : Option ℕ) (events : List Reported) : Prop where
  reported :
    (decodeTransactionFailure result (events.map Reported.event) fallbackMessage).contractErrorCode =
      code
  message : ∀ n, code = some n →
    (decodeTransactionFailure result (events.map Reported.event) fallbackMessage).message =
      contractErrorMessage n
  own : ∀ e, (events.find? fun e => e.code.isSome) = some e → e.reporter = some .factoryCall

/-! ### The event that is read -/

variable {result : Option TransactionResult} {fallbackMessage : Option String} {code : Option ℕ}
  {events : List Reported}

theorem decode_code {diagnosticEvents : List (Option DiagnosticEvent)} :
    (decodeTransactionFailure result diagnosticEvents fallbackMessage).contractErrorCode =
      (contractErrorCodeFromDiagnosticEvents diagnosticEvents).or
        (contractErrorCodeFromMessage fallbackMessage) := by
  rw [decodeTransactionFailure]
  cases (contractErrorCodeFromDiagnosticEvents diagnosticEvents).or
    (contractErrorCodeFromMessage fallbackMessage) with
  | none => rfl
  | some code => rfl

theorem decode_message {diagnosticEvents : List (Option DiagnosticEvent)} {n : ℕ}
    (h : (decodeTransactionFailure result diagnosticEvents fallbackMessage).contractErrorCode =
      some n) :
    (decodeTransactionFailure result diagnosticEvents fallbackMessage).message =
      contractErrorMessage n := by
  rw [decode_code] at h
  rw [decodeTransactionFailure, h]

/-- The verdict is read from the first event that carries a code. -/
theorem contractErrorCodeFromDiagnosticEvents_map :
    contractErrorCodeFromDiagnosticEvents (events.map Reported.event) =
      (events.find? fun e => e.code.isSome).bind Reported.code := by
  rw [contractErrorCodeFromDiagnosticEvents, List.findSome?_map]
  induction events with
  | nil => rfl
  | cons e events ih =>
    rw [List.findSome?_cons, List.find?_cons, Function.comp_apply]
    cases hcode : e.code with
    | none =>
      have hnone : e.event.bind DiagnosticEvent.contractErrorCode = none := hcode
      simp only [hnone, Option.isSome_none]
      exact ih
    | some code =>
      have hsome : e.event.bind DiagnosticEvent.contractErrorCode = some code := hcode
      simp only [hsome, Option.isSome_some, Option.bind_some, hcode]

theorem Reported.code_isSome {e : Reported} {reporter : Reporter}
    (h : e.reporter = some reporter) : e.code.isSome = true := by
  rw [Reported.code, ← e.reporter_isSome, h]
  rfl

/-- A code that is read is one that some call failed with. -/
theorem Reported.exists_reporter {e : Reported} (h : e.code.isSome = true) :
    ∃ reporter, e.reporter = some reporter := by
  rw [Reported.code, ← e.reporter_isSome] at h
  exact Option.isSome_iff_exists.mp h

/-! ### Attribution -/

/-- The reported rejection is the one of the factory call exactly when no call below it has left a
code before it; without a code of its own the text of the network must not name one either. -/
theorem attributed_iff (h : FailedInvocation code events) :
    Attributed result fallbackMessage code events ↔
      (∀ earlier e later, events = earlier ++ e :: later → ∀ contract,
        e.reporter = some (.subCall contract) →
          ∃ own ∈ earlier, own.reporter = some .factoryCall) ∧
      (code = none → contractErrorCodeFromMessage fallbackMessage = none) := by
  constructor
  · intro hattributed
    constructor
    · intro earlier e later hsplit contract hsub
      by_contra hnone
      -- then an event of a call below is the first with a code
      have hread : (events.find? fun e => e.code.isSome).isSome = true := by
        rw [List.find?_isSome]
        refine ⟨e, ?_, Reported.code_isSome hsub⟩
        rw [hsplit]
        exact List.mem_append_right _ List.mem_cons_self
      obtain ⟨first, hfirst⟩ := Option.isSome_iff_exists.mp hread
      have hown := hattributed.own first hfirst
      rw [hsplit, List.find?_append, Option.or_eq_some_iff] at hfirst
      rcases hfirst with hbefore | ⟨-, hafter⟩
      · exact hnone ⟨first, List.mem_of_find?_eq_some hbefore, hown⟩
      · simp only [List.find?_cons, Reported.code_isSome hsub, Option.some.injEq] at hafter
        rw [← hafter, hsub] at hown
        cases hown
    · intro hcode
      have hreported := hattributed.reported
      rw [decode_code, hcode, Option.or_eq_none_iff] at hreported
      exact hreported.2
  · rintro ⟨hbelow, htext⟩
    have hown : ∀ e, (events.find? fun e => e.code.isSome) = some e →
        e.reporter = some .factoryCall := by
      intro e hfirst
      obtain ⟨hcode, earlier, later, hsplit, hbefore⟩ := List.find?_eq_some_iff_append.mp hfirst
      obtain ⟨reporter, hreporter⟩ := Reported.exists_reporter hcode
      cases reporter with
      | factoryCall => exact hreporter
      | subCall contract =>
        obtain ⟨own, hmem, hfactory⟩ := hbelow earlier e later hsplit contract hreporter
        have hsilent := hbefore own hmem
        rw [Reported.code_isSome hfactory] at hsilent
        cases hsilent
    have hreported : (decodeTransactionFailure result (events.map Reported.event)
        fallbackMessage).contractErrorCode = code := by
      rw [decode_code, contractErrorCodeFromDiagnosticEvents_map]
      cases hfirst : events.find? fun e => e.code.isSome with
      | some e =>
        have hcode := h.carries e (List.mem_of_find?_eq_some hfirst) (hown e hfirst)
        have hsome := Reported.code_isSome (hown e hfirst)
        rw [hcode] at hsome
        rw [Option.bind_some, hcode, Option.or_of_isSome hsome]
      | none =>
        have hcode : code = none := by
          rw [← Option.not_isSome_iff_eq_none]
          intro hsome
          obtain ⟨e, he, hfactory⟩ := h.reports hsome
          exact List.find?_eq_none.mp hfirst e he (Reported.code_isSome hfactory)
        rw [Option.bind_none, Option.none_or, hcode]
        exact htext hcode
    refine ⟨hreported, ?_, hown⟩
    intro n hn
    rw [hn] at hreported
    exact decode_message hreported

/-! ### A refused fee -/

/-- An event of the host for a call that failed with `code`. -/
def errorEvent (code : ℕ) (reporter : Reporter) : Reported where
  event := some { version := 0, topics := [.other, .contractError code], data := .vec [.other] }
  reporter := some reporter
  reporter_isSome := rfl

/-- The factory call alone: its code is the one that is reported. -/
theorem attributed_paused :
    FailedInvocation (some 10) [errorEvent 10 .factoryCall] ∧
      Attributed none none (some 10) [errorEvent 10 .factoryCall] := by
  have hfailed : FailedInvocation (some 10) [errorEvent 10 .factoryCall] := by
    constructor
    · intro e he _
      rw [List.mem_singleton.mp he]
      rfl
    · intro _
      exact ⟨_, List.mem_singleton_self _, rfl⟩
  refine ⟨hfailed, (attributed_iff hfailed).mpr ⟨?_, nofun⟩⟩
  -- no call below it has left an event
  intro earlier e later hsplit contract hsub
  have hmem : e ∈ [errorEvent 10 .factoryCall] := by
    rw [hsplit]
    exact List.mem_append_right _ List.mem_cons_self
  rw [List.mem_singleton.mp hmem] at hsub
  cases hsub

/-- The treasury cannot hold the fee token: the transfer fails with the `BalanceError` of the token,
and the factory call with `TreasuryTransferFailed`. -/
def sampleEvents : List Reported :=
  [errorEvent 10 (.subCall "fee_token"), errorEvent 24 .factoryCall]

/-- The error of the token is taken for one of the factory. -/
theorem not_attributed_sampleEvents :
    ¬ ∀ (result : Option TransactionResult) (fallbackMessage : Option String) (code : Option ℕ)
      (events : List Reported), FailedInvocation code events →
        Attributed result fallbackMessage code events := by
  intro h
  have hfailed : FailedInvocation (some 24) sampleEvents := by
    constructor
    · intro e he hfactory
      rw [sampleEvents, List.mem_cons, List.mem_singleton] at he
      rcases he with rfl | rfl
      · cases hfactory
      · rfl
    · intro _
      exact ⟨_, List.mem_cons_of_mem _ (List.mem_singleton_self _), rfl⟩
  have hreported := (h none none (some 24) sampleEvents hfailed).reported
  rw [decode_code, contractErrorCodeFromDiagnosticEvents_map] at hreported
  cases hreported

end StellarForge.Submission
