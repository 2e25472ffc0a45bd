import Mathlib.Logic.Relation
import StellarForge.Submission.Client
import StellarForge.Transition.Run

/-!
# The network under a submission

A node may accept the envelope in any call of `sendTransaction`, also in one whose response never
arrives.  Ledgers close on their own; a pending envelope may be included in one that its bounds
admit, with success or without.  `Step` interleaves the closing of ledgers with the answers that
`submitAndConfirm` waits for, and `Submits` is a run from the first call.

* `Network.neverApplies_iff`: when the envelope can no longer be applied.
-/

namespace StellarForge.Submission

open Transition

/-! ### Ledgers -/

/-- The number and the close time of a closed ledger. -/
structure Header where
  sequence : ℕ
  closeTime : ℕ
  deriving DecidableEq, Repr

/-- `h` closes after `h'`. -/
def Header.After (h h' : Header) : Prop :=
  h'.sequence < h.sequence ∧ h'.closeTime < h.closeTime

instance (h h' : Header) : Decidable (h.After h') :=
  inferInstanceAs (Decidable (_ ∧ _))

/-- A bound of an envelope: absent and `0` both mean that there is none. -/
def withinBound (bound : Option ℕ) (value : ℕ) : Prop :=
  ∀ b ∈ bound, 0 < b → value ≤ b

instance (bound : Option ℕ) (value : ℕ) : Decidable (withinBound bound value) :=
  inferInstanceAs (Decidable (∀ b ∈ bound, _))

/-- The transaction whose bounds count. -/
def SignedTransaction.inner : SignedTransaction → Transaction
  | .transaction tx => tx
  | .feeBump innerTransaction => innerTransaction

/-- The bounds of the envelope admit the ledger. -/
def SignedTransaction.Admits (signedTx : SignedTransaction) (h : Header) : Prop :=
  withinBound signedTx.inner.maxLedger h.sequence ∧ withinBound signedTx.inner.maxTime h.closeTime

instance (signedTx : SignedTransaction) (h : Header) : Decidable (signedTx.Admits h) :=
  inferInstanceAs (Decidable (_ ∧ _))

/-- What the network has done with the envelope. -/
inductive Envelope
  | unknown
  | pending
  | included (header : Header) (applied : Bool)
  deriving DecidableEq, Repr

/-- The closed ledgers, newest first, and the envelope. -/
structure Network (signedTx : SignedTransaction) where
  closed : List Header
  envelope : Envelope
  ordered : closed.Pairwise Header.After
  admitted : ∀ h applied, envelope = .included h applied → h ∈ closed ∧ signedTx.Admits h

namespace Network

variable {signedTx : SignedTransaction} {n n' : Network signedTx} {h : Header}

/-- The envelope has been applied with success. -/
def Applied (n : Network signedTx) : Prop :=
  ∃ h, n.envelope = .included h true

/-- The envelope has been included in a ledger and rejected there. -/
def Rejected (n : Network signedTx) : Prop :=
  ∃ h, n.envelope = .included h false

/-- The earliest header that the next ledger can have. -/
def next (n : Network signedTx) : Header :=
  match n.closed with
  | [] => ⟨0, 0⟩
  | h :: _ => ⟨h.sequence + 1, h.closeTime + 1⟩

/-- No later ledger may include the envelope. -/
def Passed (n : Network signedTx) : Prop :=
  ¬ signedTx.Admits n.next

/-- The envelope still waits, and no later ledger may include it. -/
def Lapsed (n : Network signedTx) : Prop :=
  n.envelope = .pending ∧ n.Passed

/-- A node takes the envelope into its queue. -/
def accept (n : Network signedTx) : Network signedTx where
  closed := n.closed
  envelope := if n.envelope = .unknown then .pending else n.envelope
  ordered := n.ordered
  admitted h applied heq := by
    split at heq
    · cases heq
    · exact n.admitted h applied heq

/-- A ledger closes without the envelope. -/
def close (n : Network signedTx) (h : Header) (hafter : ∀ h' ∈ n.closed, h.After h') :
    Network signedTx where
  closed := h :: n.closed
  envelope := n.envelope
  ordered := List.pairwise_cons.mpr ⟨hafter, n.ordered⟩
  admitted k applied heq := by
    obtain ⟨hmem, hadm⟩ := n.admitted k applied heq
    exact ⟨List.mem_cons_of_mem _ hmem, hadm⟩

/-- A ledger closes that includes the envelope. -/
def closeWith (n : Network signedTx) (h : Header) (applied : Bool)
    (hafter : ∀ h' ∈ n.closed, h.After h') (hadm : signedTx.Admits h) : Network signedTx where
  closed := h :: n.closed
  envelope := .included h applied
  ordered := List.pairwise_cons.mpr ⟨hafter, n.ordered⟩
  admitted k b heq := by
    cases heq
    exact ⟨List.mem_cons_self .., hadm⟩

/-- One ledger closes: with the envelope, if it is pending and the ledger within its bounds, or
without. -/
inductive Closes (n : Network signedTx) (h : Header) : Option Bool → Network signedTx → Prop
  | without (hafter : ∀ h' ∈ n.closed, h.After h') : n.Closes h none (n.close h hafter)
  | including (applied : Bool) (hafter : ∀ h' ∈ n.closed, h.After h') (hadm : signedTx.Admits h)
      (hpending : n.envelope = .pending) :
      n.Closes h (some applied) (n.closeWith h applied hafter hadm)

/-- The envelope has not been applied, and is not applied in any continuation. -/
def NeverApplies (n : Network signedTx) : Prop :=
  ∀ n', Relation.ReflTransGen (fun a b => ∃ h inclusion, a.Closes h inclusion b) n n' →
    ¬ n'.Applied

/-! ### What the bounds still allow -/

theorem withinBound_of_le {bound : Option ℕ} {a b : ℕ} (hab : a ≤ b)
    (hb : withinBound bound b) : withinBound bound a :=
  fun c hc hpos => hab.trans (hb c hc hpos)

/-- A ledger that the bounds admit may as well close earlier. -/
theorem admits_of_le {h h' : Header} (hseq : h'.sequence ≤ h.sequence)
    (htime : h'.closeTime ≤ h.closeTime) (hadm : signedTx.Admits h) : signedTx.Admits h' :=
  ⟨withinBound_of_le hseq hadm.1, withinBound_of_le htime hadm.2⟩

/-- Of two closed ledgers the one with the greater number closed later. -/
theorem after_of_sequence_lt {h h' : Header} (hmem : h ∈ n.closed) (hmem' : h' ∈ n.closed)
    (hlt : h'.sequence < h.sequence) : h.After h' := by
  have hordered := n.ordered
  generalize n.closed = closed at hmem hmem' hordered
  induction hordered with
  | nil => cases hmem
  | cons hnewest _ ih =>
    rcases List.mem_cons.mp hmem with rfl | hold <;> rcases List.mem_cons.mp hmem' with rfl | hold'
    · exact absurd hlt (Nat.lt_irrefl _)
    · exact hnewest h' hold'
    · exact absurd (hnewest h hold).1 (Nat.lt_asymm hlt)
    · exact ih hold hold'

/-- The earliest next header comes after every closed ledger. -/
theorem next_after (n : Network signedTx) : ∀ h' ∈ n.closed, n.next.After h' := by
  intro h' hmem
  have hordered := n.ordered
  rw [next]
  rcases hclosed : n.closed with _ | ⟨newest, older⟩
  · rw [hclosed] at hmem
    cases hmem
  · rw [hclosed] at hmem hordered
    rcases List.mem_cons.mp hmem with rfl | hold
    · exact ⟨Nat.lt_succ_self _, Nat.lt_succ_self _⟩
    · have hlt : newest.After h' := List.rel_of_pairwise_cons hordered hold
      exact ⟨Nat.lt_succ_of_lt hlt.1, Nat.lt_succ_of_lt hlt.2⟩

/-- Every ledger that can close is at or after the earliest next header. -/
theorem next_le (hafter : ∀ h' ∈ n.closed, h.After h') :
    n.next.sequence ≤ h.sequence ∧ n.next.closeTime ≤ h.closeTime := by
  rw [next]
  rcases hclosed : n.closed with _ | ⟨newest, older⟩
  · exact ⟨Nat.zero_le _, Nat.zero_le _⟩
  · have hnew : h.After newest := hafter newest (hclosed ▸ List.mem_cons_self ..)
    exact ⟨hnew.1, hnew.2⟩

/-- Once the network has passed the bounds no ledger includes the envelope. -/
theorem Passed.not_admits (hpassed : n.Passed) (hafter : ∀ h' ∈ n.closed, h.After h') :
    ¬ signedTx.Admits h := by
  intro hadm
  obtain ⟨hseq, htime⟩ := next_le hafter
  exact hpassed (admits_of_le hseq htime hadm)

/-- A transaction whose time has passed is in no later ledger. -/
theorem Passed.closes {inclusion : Option Bool} (hpassed : n.Passed)
    (hcloses : n.Closes h inclusion n') : n'.Passed ∧ n'.envelope = n.envelope := by
  cases hcloses with
  | without hafter =>
    refine ⟨fun hadm => ?_, rfl⟩
    -- the next header moves forward with the ledger
    have hle := next_after (n.close h hafter) h (List.mem_cons_self ..)
    exact hpassed.not_admits hafter (admits_of_le hle.1.le hle.2.le hadm)
  | including applied hafter hadm hpending => exact absurd hadm (hpassed.not_admits hafter)

/-- **When the envelope can no longer be applied**: it has not been, and if it still waits the
network has passed its bounds. -/
theorem neverApplies_iff :
    n.NeverApplies ↔ ¬ n.Applied ∧ (n.envelope = .pending → n.Passed) := by
  constructor
  · intro hnever
    refine ⟨hnever n .refl, fun hpending hadm => ?_⟩
    -- otherwise the next ledger may include it with success
    have hcloses : n.Closes n.next (some true) (n.closeWith n.next true n.next_after hadm) :=
      .including true n.next_after hadm hpending
    exact hnever _ (.single ⟨_, _, hcloses⟩) ⟨n.next, rfl⟩
  · rintro ⟨hnot, hpassed⟩ n' hreach
    suffices hinv : ¬ n'.Applied ∧ (n'.envelope = .pending → n'.Passed) from hinv.1
    induction hreach with
    | refl => exact ⟨hnot, hpassed⟩
    | tail _ hstep ih =>
      obtain ⟨h, inclusion, hcloses⟩ := hstep
      obtain ⟨hnotb, hpassedb⟩ := ih
      cases hcloses with
      | without hafter =>
        refine ⟨hnotb, fun hpending => ?_⟩
        exact ((hpassedb hpending).closes (.without hafter)).1
      | including applied hafter hadm hpending =>
        exact absurd hadm ((hpassedb hpending).not_admits hafter)

end Network

/-! ### Answers -/

/-- A result that says the sequence number has been used. -/
def badSequence : TransactionResult → Bool
  | .code name => name = "txBadSeq"
  | .feeBumpInnerFailed (.code name) => name = "txBadSeq"
  | _ => false

/-- How a node answers `sendTransaction`; `accepted` says whether the call put the envelope into a
queue.  The response of a call that did may be lost like any other. -/
def Network.AnswersSend {signedTx : SignedTransaction} (n : Network signedTx) (accepted : Bool) :
    Except Thrown SendTransactionResponse → Prop
  | .error _ => True
  | .ok response =>
    match response.status with
    | .PENDING => accepted = true
    | .DUPLICATE => accepted = false ∧ n.envelope = .pending
    | .TRY_AGAIN_LATER => accepted = false
    | .ERROR =>
      accepted = false ∧ (n.envelope = .pending → n.Passed) ∧
        ((∃ h applied, n.envelope = .included h applied) →
          ∃ result ∈ response.errorResult, badSequence result = true)
    | .other _ => True

/-- How a node answers `getTransaction` when it searches the ledgers from number `oldest` on. -/
def Network.AnswersGet {signedTx : SignedTransaction} (n : Network signedTx) (oldest : ℕ) :
    Except Thrown GetTransactionResponse → Prop
  | .error _ => True
  | .ok response =>
    match response.status with
    | .SUCCESS => n.Applied
    | .FAILED => n.Rejected
    | .NOT_FOUND =>
      ∃ latest ∈ n.closed, (∀ l ∈ response.latestLedger, l = latest.sequence) ∧
        (∀ t ∈ response.latestLedgerCloseTime, t = latest.closeTime) ∧
        ∀ h applied, n.envelope = .included h applied →
          h.sequence < oldest ∨ latest.sequence < h.sequence

/-! ### Runs -/

/-- What happens in a run. -/
inductive Event
  | ledger (h : Header) (inclusion : Option Bool)
  | send (accepted : Bool) (now : ℤ) (outcome : Except Thrown SendTransactionResponse)
  | get (oldest : ℕ) (now : ℤ) (outcome : Except Thrown GetTransactionResponse)

/-- The statuses reported so far, where `submitAndConfirm` is, and the network. -/
structure System (signedTx : SignedTransaction) where
  reported : List TransactionLifecycleStatus
  phase : Phase
  network : Network signedTx

variable {signedTx : SignedTransaction} {options : SubmitOptions}

/-- The first call is about to be made. -/
def System.start (options : SubmitOptions) (n : Network signedTx) : System signedTx where
  reported := (submitAndConfirm options).1
  phase := (submitAndConfirm options).2
  network := n

/-- `submitAndConfirm` goes on to another phase. -/
def System.resume (s : System signedTx) (r : Reporting Phase) (n : Network signedTx) :
    System signedTx where
  reported := s.reported ++ r.1
  phase := r.2
  network := n

/-- One event: a ledger closes, or the call that `submitAndConfirm` waits for settles. -/
inductive Step (options : SubmitOptions) (s : System signedTx) : Event → System signedTx → Prop
  | ledger {h : Header} {inclusion : Option Bool} {n : Network signedTx}
      (hcloses : s.network.Closes h inclusion n) :
      Step options s (.ledger h inclusion) { s with network := n }
  | send {state : SendState} {accepted : Bool} {now : ℤ}
      {outcome : Except Thrown SendTransactionResponse}
      (hphase : s.phase = .sending state) (hanswers : s.network.AnswersSend accepted outcome) :
      Step options s (.send accepted now outcome)
        (s.resume (Phase.afterSend now (sendAttempt options state outcome))
          (if accepted then s.network.accept else s.network))
  | get {state : PollState} {oldest : ℕ} {now : ℤ}
      {outcome : Except Thrown GetTransactionResponse}
      (hphase : s.phase = .polling state) (hanswers : s.network.AnswersGet oldest outcome) :
      Step options s (.get oldest now outcome)
        (s.resume (Phase.afterPoll state.hash
          (pollAttempt options (inclusionDeadlineOf signedTx) state now outcome)) s.network)

/-- A run of `submitAndConfirm` on a network that does not know the envelope yet. -/
def Submits (options : SubmitOptions) (n₀ : Network signedTx) (h : List Event)
    (s : System signedTx) : Prop :=
  n₀.envelope = .unknown ∧ Run (Step options) (System.start options n₀) h s

end StellarForge.Submission
