import StellarForge.Frontend.Page
import StellarForge.Submission.RetrySafety

/-!
# Success after confirmation

A form presents a write as done only in a submission whose call has been applied, with one exception:
the panel of `TokenDetail` that sets the metadata calls nothing and presents it as set.

* `handle_spec`, `settled_spec`: what a handler presents, and what it waits for;
* **`successConfirmed_of_run`**: without a confirmation in that panel, every success is confirmed;
* `not_successConfirmed_panel`: a confirmation in that panel.
-/

namespace StellarForge.Frontend

open Transition

/-- The chain has applied a call of the submission that does the write. -/
def Confirmed (chain : List (ℕ × Call)) (id : ℕ) (write : Write) : Prop :=
  ∃ call, (id, call) ∈ chain ∧ call.write = write

/-- What a submission presents as done has been applied in it. -/
def SuccessConfirmed (s : App) : Prop :=
  ∀ e ∈ s.page.successes, Confirmed s.chain e.1 e.2.write

/-- The write that a handler presents when its call has settled. -/
def Work.write : Work → Option Write
  | .mint _ => some .mint
  | .burn _ => some .burn
  | .deploy _ name symbol _ => some (.deploy name symbol)
  | .refreshBalance name symbol => some (.deploy name symbol)
  | .upload .. => none
  | .link _ metadataUri => some (.setMetadata metadataUri)
  | .updateFees _ => some .updateFees
  | .whitelist _ next => some (.setWhitelist next)

/-- The awaited call does the write that is to be presented. -/
def Fits (work : Work) (call : Option Call) : Prop := ∀ c ∈ call, work.write = some c.write

/-- A handler waits for a fitting call; one that refreshes the balance has seen its call confirmed. -/
def Pending.Backed (chain : List (ℕ × Call)) (q : Pending) : Prop :=
  Fits q.work q.call ∧
    ∀ name symbol, q.work = .refreshBalance name symbol → Confirmed chain q.id (.deploy name symbol)

/-- The successes shown are confirmed, and what is pending is known to the chain. -/
structure Bookkeeping (s : App) : Prop where
  confirmed : SuccessConfirmed s
  backed : ∀ q ∈ s.pending, q.Backed s.chain

variable {fmt : Formatting} {p p' : Page} {id : ℕ} {write : Write} {work : Work}
  {call : Call} {chain : List (ℕ × Call)} {s s' : App} {h : List Happening}

/-! ### What handlers present -/

section

variable (p) (generation : ℕ)

@[simp] theorem successes_updateMintForm (f : SupplyForm → SupplyForm) :
    (p.updateMintForm generation f).successes = p.successes := rfl

@[simp] theorem successes_updateBurnForm (f : SupplyForm → SupplyForm) :
    (p.updateBurnForm generation f).successes = p.successes := rfl

@[simp] theorem successes_updateCreateToken (f : CreateToken → CreateToken) :
    (p.updateCreateToken generation f).successes = p.successes := rfl

@[simp] theorem successes_updateMetadataForm (f : MetadataForm → MetadataForm) :
    (p.updateMetadataForm generation f).successes = p.successes := rfl

@[simp] theorem successes_updateAdminPanel (f : AdminPanel → AdminPanel) :
    (p.updateAdminPanel generation f).successes = p.successes := rfl

@[simp] theorem successes_updateTokenDetail (f : TokenDetail → TokenDetail) :
    (p.updateTokenDetail generation f).successes = p.successes := rfl

@[simp] theorem successes_updateSetMetadataForm (f : SetMetadataForm → SetMetadataForm) :
    (p.updateSetMetadataForm generation f).successes = p.successes := rfl

@[simp] theorem successes_addToast (message : String) (kind : ToastKind) :
    (p.addToast message kind).successes = p.successes := rfl

@[simp] theorem successes_present (write : Write) (display : Display) :
    (p.present id write display).successes = (id, ⟨write, display⟩) :: p.successes := rfl

@[simp] theorem successes_succeed (write : Write) (message : String) :
    (p.succeed id write message).successes = (id, ⟨write, .toast message⟩) :: p.successes := rfl

@[simp] theorem successes_openModal (form : TosForm) :
    (openModal p generation form).successes = p.successes := by
  cases form <;> rfl

@[simp] theorem successes_requireTos (form : TosForm) :
    (requireTos p generation form).successes = p.successes := by
  unfold requireTos
  split_ifs
  · exact successes_openModal p generation form
  · rfl

@[simp] theorem successes_acceptTos : (acceptTos p).successes = p.successes := by
  unfold acceptTos
  dsimp only
  split
  · exact successes_openModal ..
  · rfl

@[simp] theorem successes_onSuccess (panelOf : Option ℕ) :
    (onSuccess p panelOf).successes = p.successes := by
  cases panelOf <;> rfl

@[simp] theorem successes_populate (state : FactoryState) :
    (AdminPanel.populate fmt p state).successes = p.successes := rfl

@[simp] theorem successes_setAmbient (ambient : Ambient) :
    (setAmbient fmt p ambient).successes = p.successes := by
  unfold setAmbient
  dsimp only
  split_ifs
  · rfl
  · split <;> rfl

@[simp] theorem successes_mounted : (AdminPanel.mounted fmt p).successes = p.successes := by
  unfold AdminPanel.mounted
  dsimp only
  split <;> rfl

end

/-- What a handler is left with before anything has settled: nothing is presented, and it waits for a
call that fits, or for none. -/
def Starts (p : Page) (r : Handled) : Prop :=
  r.1.successes = p.successes ∧
    ∀ w ∈ r.2, Fits w.1 w.2 ∧ ∀ name symbol, w.1 ≠ .refreshBalance name symbol

theorem starts_ends (h : p'.successes = p.successes) : Starts p (ends p') :=
  ⟨h, fun _ hw => nomatch hw⟩

theorem starts_invokes (h : p'.successes = p.successes) (hfits : work.write = some call.write)
    (hwork : ∀ name symbol, work ≠ .refreshBalance name symbol) : Starts p (invokes p' work call) := by
  refine ⟨h, fun w hw => ?_⟩
  obtain rfl := Option.some.inj hw
  refine ⟨fun c hc => ?_, hwork⟩
  obtain rfl := Option.some.inj hc
  exact hfits

theorem starts_confirmMint : Starts p (MintForm.handleConfirm p) := by
  unfold MintForm.handleConfirm
  split
  · exact starts_ends rfl
  · split_ifs
    · exact starts_invokes rfl rfl nofun
    · exact starts_ends rfl

theorem starts_confirmBurn : Starts p (BurnForm.handleConfirm p) := by
  unfold BurnForm.handleConfirm
  split
  · exact starts_ends rfl
  · split_ifs
    · exact starts_invokes rfl rfl nofun
    · exact starts_ends rfl

theorem starts_submitCreate (params : TokenParams) (salt : String) :
    Starts p (CreateToken.handleTokenFormSubmit p params salt) := by
  unfold CreateToken.handleTokenFormSubmit
  split
  · exact starts_ends rfl
  · split_ifs
    · exact starts_ends rfl
    · exact starts_invokes rfl rfl nofun

/-- Confirming the metadata form starts an upload. -/
theorem starts_confirmMetadata : Starts p (MetadataForm.handleConfirm p) := by
  unfold MetadataForm.handleConfirm
  split
  · exact starts_ends rfl
  · split_ifs
    · -- an upload waits for no call of the factory
      refine ⟨rfl, fun w hw => ?_⟩
      obtain rfl := Option.some.inj hw
      exact ⟨nofun, nofun⟩
    · exact starts_ends rfl

theorem starts_confirmFees : Starts p (AdminPanel.handleConfirm fmt p) := by
  unfold AdminPanel.handleConfirm
  split
  · exact starts_ends rfl
  · split_ifs
    · exact starts_invokes rfl rfl nofun
    · exact starts_ends rfl

theorem starts_toggleWhitelist : Starts p (AdminPanel.handleWhitelistToggle p) := by
  unfold AdminPanel.handleWhitelistToggle
  split
  · exact starts_ends rfl
  · split_ifs
    · exact starts_ends rfl
    · exact starts_invokes rfl rfl nofun

/-- Submitting shows no success. -/
theorem successes_submitMint : (MintForm.onValid p).successes = p.successes := by
  unfold MintForm.onValid
  split
  · rfl
  · split_ifs
    · rfl
    · rfl
    · exact successes_requireTos ..

theorem successes_submitBurn : (BurnForm.onValid p).successes = p.successes := by
  unfold BurnForm.onValid
  split
  · rfl
  · split_ifs
    · rfl
    · rfl
    · exact successes_requireTos ..

theorem successes_submitMetadata : (MetadataForm.handleSubmit p).successes = p.successes := by
  unfold MetadataForm.handleSubmit
  split
  · rfl
  · split_ifs
    · rfl
    · rfl
    · rfl
    · rfl
    · exact successes_requireTos ..

theorem successes_submitFees : (AdminPanel.handleSubmit fmt p).successes = p.successes := by
  unfold AdminPanel.handleSubmit
  split
  · rfl
  · split_ifs <;> rfl

theorem successes_togglePanel (panel : ActivePanel) :
    (TokenDetail.togglePanel p panel).successes = p.successes := by
  unfold TokenDetail.togglePanel
  split
  · rfl
  · split_ifs <;> rfl

theorem successes_submitSetMetadata : (SetMetadataForm.handleSubmit p).successes = p.successes := by
  unfold SetMetadataForm.handleSubmit
  split
  · rfl
  · split_ifs <;> rfl

/-- **What an act presents**: nothing, unless it confirms the panel that sets the metadata. -/
theorem handle_spec (a : Act) (ha : a ≠ .confirmSetMetadata) : Starts p (a.handle fmt p id) := by
  cases a with
  | confirmSetMetadata => exact absurd rfl ha
  | confirmMint => exact starts_confirmMint
  | confirmBurn => exact starts_confirmBurn
  | submitCreate params salt => exact starts_submitCreate params salt
  | confirmMetadata => exact starts_confirmMetadata
  | confirmFees => exact starts_confirmFees
  | toggleWhitelist => exact starts_toggleWhitelist
  | submitMint => exact starts_ends successes_submitMint
  | submitBurn => exact starts_ends successes_submitBurn
  | submitMetadata => exact starts_ends successes_submitMetadata
  | submitFees => exact starts_ends successes_submitFees
  | togglePanel panel => exact starts_ends (successes_togglePanel panel)
  | submitSetMetadata => exact starts_ends successes_submitSetMetadata
  | ambient changed => exact starts_ends (successes_setAmbient p changed)
  | mountAdmin => exact starts_ends (successes_mounted p)
  | acceptTos => exact starts_ends (successes_acceptTos p)
  | _ => exact starts_ends rfl

/-- What a handler presents, and what it waits for, once its call has settled. -/
structure Ends (p : Page) (id : ℕ) (work : Work) (outcome : Except CallError CallResult)
    (r : Handled) : Prop where
  successes : ∀ e ∈ r.1.successes, e ∈ p.successes ∨
    (∃ result, outcome = .ok result) ∧ e.1 = id ∧ work.write = some e.2.write
  next : ∀ w ∈ r.2, (∃ result, outcome = .ok result) ∧ w.2 = none ∧ ∃ name symbol,
    w.1 = .refreshBalance name symbol ∧ work.write = some (.deploy name symbol)

/-- After a result, only the write of the call is presented. -/
theorem ends_ok {result : CallResult} (hwork : work.write = some write)
    (h : ∀ e ∈ p'.successes, e ∈ p.successes ∨ e.1 = id ∧ e.2.write = write) :
    Ends p id work (.ok result) (ends p') where
  successes e he := by
    rcases h e he with hold | ⟨hid, hwrite⟩
    · exact .inl hold
    · exact .inr ⟨⟨result, rfl⟩, hid, by rw [hwork, hwrite]⟩
  next w hw := nomatch hw

/-- After an error nothing is presented. -/
theorem ends_quiet {outcome : Except CallError CallResult} (h : p'.successes = p.successes) :
    Ends p id work outcome (ends p') where
  successes e he := by
    rw [ends, h] at he
    exact .inl he
  next w hw := nomatch hw

/-- How a mint ends. -/
theorem ends_mint (generation : ℕ) (outcome : Except CallError CallResult) :
    Ends p id (.mint generation) outcome (ends (MintForm.settled p id generation outcome)) := by
  unfold MintForm.settled
  dsimp only
  split_ifs with hmounted
  · rcases outcome with err | result
    · exact ends_quiet rfl
    · apply ends_ok rfl
      intro e he
      simp only [successes_onSuccess, successes_present, successes_succeed, successes_updateMintForm,
        List.mem_cons] at he
      rcases he with rfl | rfl | rfl | hold
      · exact .inr ⟨rfl, rfl⟩
      · exact .inr ⟨rfl, rfl⟩
      · exact .inr ⟨rfl, rfl⟩
      · exact .inl hold
  · exact ends_quiet rfl

/-- How a burn ends. -/
theorem ends_burn (generation : ℕ) (outcome : Except CallError CallResult) :
    Ends p id (.burn generation) outcome (ends (BurnForm.settled p id generation outcome)) := by
  unfold BurnForm.settled
  dsimp only
  split_ifs with hmounted
  · rcases outcome with err | result
    · exact ends_quiet rfl
    · apply ends_ok rfl
      intro e he
      simp only [successes_onSuccess, successes_present, successes_succeed, successes_updateBurnForm,
        List.mem_cons] at he
      rcases he with rfl | rfl | rfl | hold
      · exact .inr ⟨rfl, rfl⟩
      · exact .inr ⟨rfl, rfl⟩
      · exact .inr ⟨rfl, rfl⟩
      · exact .inl hold
  · exact ends_quiet rfl

/-- A failure shows no success. -/
theorem successes_failed (generation : ℕ) (err : CallError) :
    (CreateToken.failed p generation err).successes = p.successes := by
  cases err with
  | submission error =>
    unfold CreateToken.failed
    dsimp only
    split_ifs
    · rfl
    · split <;> rfl
  | other message => rfl

/-- How a creation ends. -/
theorem ends_deploy (generation : ℕ) (name symbol : String) (raced : Bool)
    (outcome : Except CallError CallResult) :
    Ends p id (.deploy generation name symbol raced) outcome
      (CreateToken.settled p id generation name symbol raced outcome) := by
  unfold CreateToken.settled
  dsimp only
  -- a deadline that has passed already showed its own text
  split_ifs with hraced
  · exact ends_quiet rfl
  · rcases outcome with err | result
    · exact ends_quiet (successes_failed generation err)
    · constructor
      · intro e he
        simp only [successes_present, successes_succeed, successes_updateCreateToken,
          List.mem_cons] at he
        rcases he with rfl | rfl | hold
        · exact .inr ⟨⟨result, rfl⟩, rfl, rfl⟩
        · exact .inr ⟨⟨result, rfl⟩, rfl, rfl⟩
        · exact .inl hold
      · intro w hw
        obtain rfl := Option.some.inj hw
        exact ⟨⟨result, rfl⟩, rfl, name, symbol, rfl, rfl⟩

/-- How the call behind an upload ends. -/
theorem ends_link (generation : ℕ) (metadataUri : String)
    (outcome : Except CallError CallResult) :
    Ends p id (.link generation metadataUri) outcome
      (ends (MetadataForm.settled p id generation metadataUri outcome)) := by
  rcases outcome with err | result
  · exact ends_quiet rfl
  · apply ends_ok rfl
    intro e he
    simp only [MetadataForm.settled, successes_present, successes_succeed,
      successes_updateMetadataForm, List.mem_cons] at he
    rcases he with rfl | rfl | rfl | hold
    · exact .inr ⟨rfl, rfl⟩
    · exact .inr ⟨rfl, rfl⟩
    · exact .inr ⟨rfl, rfl⟩
    · exact .inl hold

/-- How an update of the fees ends. -/
theorem ends_updateFees (generation : ℕ) (outcome : Except CallError CallResult) :
    Ends p id (.updateFees generation) outcome (ends (AdminPanel.settled p id generation outcome)) := by
  rcases outcome with err | result
  · exact ends_quiet rfl
  · apply ends_ok rfl
    intro e he
    simp only [AdminPanel.settled, successes_present, successes_succeed, successes_updateAdminPanel,
      List.mem_cons] at he
    rcases he with rfl | rfl | hold
    · exact .inr ⟨rfl, rfl⟩
    · exact .inr ⟨rfl, rfl⟩
    · exact .inl hold

/-- How the switch of the whitelist ends. -/
theorem ends_whitelist (generation : ℕ) (next : Bool) (outcome : Except CallError CallResult) :
    Ends p id (.whitelist generation next) outcome
      (ends (AdminPanel.toggled p id generation next outcome)) := by
  rcases outcome with err | result
  · exact ends_quiet rfl
  · apply ends_ok rfl
    intro e he
    simp only [AdminPanel.toggled, successes_present, successes_succeed, successes_updateAdminPanel,
      List.mem_cons] at he
    rcases he with rfl | rfl | rfl | hold
    · exact .inr ⟨rfl, rfl⟩
    · exact .inr ⟨rfl, rfl⟩
    · exact .inr ⟨rfl, rfl⟩
    · exact .inl hold

/-- **What is presented when a call settles**: the write of the call, if it has been confirmed. -/
theorem settled_spec (work : Work) (outcome : Except CallError CallResult) :
    Ends p id work outcome (work.settled p id outcome) := by
  cases work with
  | mint generation => exact ends_mint generation outcome
  | burn generation => exact ends_burn generation outcome
  | deploy generation name symbol raced => exact ends_deploy generation name symbol raced outcome
  | link generation metadataUri => exact ends_link generation metadataUri outcome
  | updateFees generation => exact ends_updateFees generation outcome
  | whitelist generation next => exact ends_whitelist generation next outcome
  | refreshBalance name symbol => exact ends_quiet rfl
  | upload generation tokenAddress feePayment => exact ends_quiet rfl

/-! ### Runs -/

theorem Confirmed.applies {applied : Bool} {i : ℕ} (h : Confirmed chain id write) :
    Confirmed (applies i call applied chain) id write := by
  obtain ⟨c, hmem, hwrite⟩ := h
  unfold Frontend.applies
  split_ifs
  · exact ⟨c, List.mem_cons_of_mem _ hmem, hwrite⟩
  · exact ⟨c, hmem, hwrite⟩

theorem Pending.Backed.applies {applied : Bool} {i : ℕ} {q : Pending} (h : q.Backed chain) :
    q.Backed (applies i call applied chain) :=
  ⟨h.1, fun name symbol hwork => (h.2 name symbol hwork).applies⟩

/-- What the handler waits for next is backed, and so is everything that was pending. -/
theorem backed_waits {next : Option (Work × Option Call)} {pending : List Pending}
    (hpending : ∀ q ∈ pending, q.Backed chain)
    (hnext : ∀ w ∈ next, Pending.Backed chain ⟨id, w.1, w.2⟩) :
    ∀ q ∈ pending ++ waits id next, q.Backed chain := by
  intro q hq
  rcases List.mem_append.mp hq with hold | hnew
  · exact hpending q hold
  · rcases next with _ | w
    · cases hnew
    · obtain rfl := List.mem_singleton.mp hnew
      exact hnext w rfl

/-- What the user does confirms nothing by itself. -/
theorem Bookkeeping.act {a : Act} (ha : a ≠ .confirmSetMetadata) (hbook : Bookkeeping s) :
    Bookkeeping (s.act fmt a) := by
  have hspec : Starts s.page (a.handle fmt s.page s.nextId) := handle_spec a ha
  obtain ⟨hquiet, hnext⟩ := hspec
  constructor
  · intro e he
    rw [App.act, App.handled, hquiet] at he
    exact hbook.confirmed e he
  · apply backed_waits hbook.backed
    intro w hw
    obtain ⟨hfits, hwork⟩ := hnext w hw
    exact ⟨hfits, fun name symbol heq => absurd heq (hwork name symbol)⟩

/-- **A call that settles shows a success only when it has been applied.** -/
theorem Bookkeeping.settles {i : ℕ} {q : Pending} {outcome : Except CallError CallResult}
    {applied : Bool} (hpending : s.pending[i]? = some q) (hcall : q.call = some call)
    (hsettles : Settles outcome applied) (hbook : Bookkeeping s) :
    Bookkeeping ({ s with chain := applies q.id call applied s.chain }.handled q.id
      (q.work.settled s.page q.id outcome) (s.pending.eraseIdx i)) := by
  have hspec : Ends s.page q.id q.work outcome _ := settled_spec q.work outcome
  have hwrite : q.work.write = some call.write :=
    (hbook.backed q (List.mem_of_getElem? hpending)).1 call hcall
  -- a result comes with the call on the chain
  have hconfirmed : (∃ result, outcome = .ok result) →
      Confirmed (applies q.id call applied s.chain) q.id call.write := by
    rintro ⟨result, rfl⟩
    obtain rfl := applied_of_settles hsettles
    exact ⟨call, List.mem_cons_self .., rfl⟩
  constructor
  · intro e he
    rcases hspec.successes e he with hold | ⟨hok, hid, hpresented⟩
    · exact (hbook.confirmed e hold).applies
    · rw [hid, ← Option.some.inj (hwrite.symm.trans hpresented)]
      exact hconfirmed hok
  · apply backed_waits
    · intro q' hq'
      exact (hbook.backed q' (List.mem_of_mem_eraseIdx hq')).applies
    · intro w hw
      obtain ⟨hok, hnone, name, symbol, hwork, hdeploy⟩ := hspec.next w hw
      refine ⟨fun c hc => ?_, fun name' symbol' hwork' => ?_⟩
      · rw [hnone] at hc
        cases hc
      · rw [hwork] at hwork'
        obtain ⟨rfl, rfl⟩ := Work.refreshBalance.inj hwork'
        rw [← Option.some.inj (hwrite.symm.trans hdeploy)]
        exact hconfirmed hok

/-- An upload shows no success of a call. -/
theorem Bookkeeping.uploads {i generation : ℕ} {tokenAddress feePayment : String}
    {outcome : Except String String} (hbook : Bookkeeping s) :
    Bookkeeping (s.handled id (MetadataForm.uploaded s.page generation tokenAddress feePayment outcome)
      (s.pending.eraseIdx i)) := by
  have herase : ∀ q ∈ s.pending.eraseIdx i, q.Backed s.chain := by
    intro q hq
    exact hbook.backed q (List.mem_of_mem_eraseIdx hq)
  rcases outcome with message | metadataUri
  · exact ⟨hbook.confirmed, backed_waits herase nofun⟩
  · refine ⟨hbook.confirmed, backed_waits herase fun w hw => ?_⟩
    obtain rfl := Option.some.inj hw
    refine ⟨fun c hc => ?_, nofun⟩
    obtain rfl := Option.some.inj hc
    rfl

/-- A refreshed balance belongs to a creation that has been applied. -/
theorem Bookkeeping.refreshes {i : ℕ} {name symbol : String} {outcome : Except String Unit}
    (hpending : s.pending[i]? = some ⟨id, .refreshBalance name symbol, none⟩)
    (hbook : Bookkeeping s) :
    Bookkeeping (s.handled id (ends (CreateToken.refreshed s.page id name symbol outcome))
      (s.pending.eraseIdx i)) := by
  have hbacked := (hbook.backed _ (List.mem_of_getElem? hpending)).2 name symbol rfl
  have herase : ∀ q ∈ s.pending.eraseIdx i, q.Backed s.chain := by
    intro q hq
    exact hbook.backed q (List.mem_of_mem_eraseIdx hq)
  refine ⟨?_, backed_waits herase nofun⟩
  rcases outcome with message | ⟨⟩
  · exact hbook.confirmed
  · intro e he
    rcases List.mem_cons.mp he with rfl | hold
    · exact hbacked
    · exact hbook.confirmed e hold

theorem Bookkeeping.deployTimeout {i generation : ℕ} {name symbol : String} {call? : Option Call}
    (hpending : s.pending[i]? = some ⟨id, .deploy generation name symbol false, call?⟩)
    (hbook : Bookkeeping s) :
    Bookkeeping (s.handled id (ends (CreateToken.timedOut s.page generation))
      (s.pending.set i ⟨id, .deploy generation name symbol true, call?⟩)) := by
  refine ⟨hbook.confirmed, backed_waits (fun q hq => ?_) nofun⟩
  rcases List.mem_or_eq_of_mem_set hq with hold | rfl
  · exact hbook.backed q hold
  · exact ⟨(hbook.backed _ (List.mem_of_getElem? hpending)).1, nofun⟩

/-- **Success after confirmation**: in every run in which the panel of `TokenDetail` that sets the
metadata is not confirmed, what is presented as done has been applied. -/
theorem successConfirmed_of_run (hrun : Run (Step fmt) {} h s)
    (hpanel : ∀ l ∈ h, l ≠ .act .confirmSetMetadata) : SuccessConfirmed s := by
  suffices hbook : Bookkeeping s from hbook.confirmed
  induction hrun with
  | nil => exact ⟨nofun, nofun⟩
  | snoc hrun hs ih =>
    have hbook := ih fun l hl => hpanel l (List.mem_cons_of_mem _ hl)
    cases hs with
    | act a =>
      refine hbook.act ?_
      rintro rfl
      exact hpanel _ (List.mem_cons_self ..) rfl
    | settles hpending hcall hsettles => exact hbook.settles hpending hcall hsettles
    | uploads hpending => exact hbook.uploads
    | refreshes hpending => exact hbook.refreshes hpending
    | deployTimeout hpending => exact hbook.deployTimeout hpending

/-! ### A confirmed mint -/

section

open Submission

/-- The node has taken the transaction. -/
def pendingResponse : SendTransactionResponse where
  status := .PENDING
  hash := "a1"
  errorResult := none
  diagnosticEvents := []

/-- The transaction is in a ledger. -/
def successResponse : GetTransactionResponse where
  status := .SUCCESS
  latestLedger := some 101
  latestLedgerCloseTime := some 1005
  resultXdr := none
  diagnosticEventsXdr := []

/-- The envelope is accepted, ledger `101` applies it, and the next answer says so. -/
def confirmedMint : List Event :=
  [.get 1 1000 (.ok successResponse), .ledger ⟨101, 1005⟩ (some true),
    .send true 0 (.ok pendingResponse)]

/-- A mint that the node takes and a ledger includes. -/
theorem submits_confirmedMint :
    ∃ s, Submits {} sampleNetwork confirmedMint s ∧
      s.phase = .settled (.ok ("a1", successResponse)) ∧ s.network.Applied := by
  -- sent and accepted, applied by one ledger, then found by the first poll
  let start : System sampleTransaction := System.start {} sampleNetwork
  let waiting := start.resume ([.submitted, .polling], .polling { hash := "a1", startedAt := 0 })
    sampleNetwork.accept
  have hsent : Submission.Step {} start (.send true 0 (.ok pendingResponse)) waiting := by
    have hphase : start.phase = .sending {} := rfl
    have hanswers : start.network.AnswersSend true (.ok pendingResponse) := rfl
    exact .send hphase hanswers
  have hafter : ∀ h' ∈ waiting.network.closed, (⟨101, 1005⟩ : Header).After h' := by decide
  have hadm : sampleTransaction.Admits ⟨101, 1005⟩ := by decide
  let applied := waiting.network.closeWith ⟨101, 1005⟩ true hafter hadm
  have hclosed : Submission.Step {} waiting (.ledger ⟨101, 1005⟩ (some true))
      { waiting with network := applied } :=
    .ledger (.including true hafter hadm rfl)
  have hanswered : Submission.Step {} { waiting with network := applied } (.get 1 1000 (.ok successResponse))
      (System.resume { waiting with network := applied }
        ([.confirmed], .settled (.ok ("a1", successResponse))) applied) := by
    have hphase : waiting.phase = .polling { hash := "a1", startedAt := 0 } := rfl
    have hanswers : applied.AnswersGet 1 (.ok successResponse) := ⟨⟨101, 1005⟩, rfl⟩
    exact Submission.Step.get (s := { waiting with network := applied }) hphase hanswers
  exact ⟨_, ⟨rfl, .snoc (.snoc (.snoc .nil hsent) hclosed) hanswered⟩, rfl, ⟨101, 1005⟩, rfl⟩

end

/-- Formatters that change nothing, and a check that passes. -/
def sampleFormatting : Formatting := ⟨fun text => text, fun text => text, fun _ => true⟩

/-- A mint, up to its call. -/
def mintActs : List Act := [
  .ambient { wallet := some "GADMIN", tosAccepted := true }, .mountMint {},
  .editMint "CTOKEN" "GRECIPIENT" "5", .submitMint, .confirmMint]

/-- A mint that has been confirmed before its success is shown. -/
theorem successConfirmed_of_run_mint :
    ∃ h s, (∃ l ∈ h, l = .settles 0 (.ok ⟨"a1", none⟩) true) ∧ Run (Step sampleFormatting) {} h s ∧
      SuccessConfirmed s := by
  obtain ⟨envelope, hsubmits, hphase, happlied⟩ := submits_confirmedMint
  have hsettles : Settles (.ok ⟨"a1", none⟩) true :=
    .sent hsubmits hphase (.confirmed none) (iff_of_true rfl happlied)
  have hwaits : (App.acts sampleFormatting {} mintActs).pending[0]? =
      some ⟨4, .mint 1, some (.mintTokens "CTOKEN" "GRECIPIENT" "5" "100000")⟩ := by
    decide +kernel
  have hrun := (run_acts sampleFormatting {} mintActs).snoc (.settles hwaits rfl hsettles)
  refine ⟨_, _, ⟨_, List.mem_cons_self .., rfl⟩, hrun, successConfirmed_of_run hrun ?_⟩
  intro l hl
  rcases List.mem_cons.mp hl with rfl | hact
  · nofun
  · obtain ⟨a, ha, rfl⟩ := List.mem_map.mp hact
    intro heq
    obtain rfl := Happening.act.inj heq
    rcases ha with _ | ⟨_, _ | ⟨_, _ | ⟨_, _ | ⟨_, _ | ⟨_, ha⟩⟩⟩⟩⟩
    cases ha

/-! ### The panel of `TokenDetail` -/

/-- The creator sets the metadata of a token in the panel. -/
def panelActs : List Act := [
  .ambient { wallet := some "GADMIN" }, .mountDetail, .loadToken ⟨"GADMIN", none⟩,
  .togglePanel .metadata, .mountSetMetadata "CTOKEN",
  .editSetMetadata "CTOKEN" "ipfs://QmYwAPJzv5CZsnA625s3Xf2nemtYgPpHdWEz79ojWnPbdG",
  .submitSetMetadata, .confirmSetMetadata]

/-- The panel of a token's page tells of metadata that was never set. -/
theorem not_successConfirmed_panel :
    ∃ h s, Run (Step sampleFormatting) {} h s ∧ ¬ SuccessConfirmed s := by
  refine ⟨_, _, run_acts sampleFormatting {} panelActs, fun hconfirmed => ?_⟩
  have hpresented : (7, ⟨.setMetadata "ipfs://QmYwAPJzv5CZsnA625s3Xf2nemtYgPpHdWEz79ojWnPbdG",
      .metadataUri⟩) ∈ (App.acts sampleFormatting {} panelActs).page.successes := by
    decide +kernel
  obtain ⟨call, hcall, -⟩ := hconfirmed _ hpresented
  have hchain : (App.acts sampleFormatting {} panelActs).chain = [] := rfl
  rw [hchain] at hcall
  cases hcall

end StellarForge.Frontend
