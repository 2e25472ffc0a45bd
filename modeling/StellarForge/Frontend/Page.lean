import StellarForge.Frontend.Handlers
import StellarForge.Transition.Run

/-!
# The page at work

`App` is the page, what its handlers wait for, and the calls that the chain has applied.  In a step the
user acts, something around the page changes, or something that a handler waits for settles, in any
order.  A submission has the number of the step that started it, up to its end.
-/

namespace StellarForge.Frontend

open Transition

/-- What a handler of submission `id` waits for; `call` is there for a call of the factory. -/
structure Pending where
  id : ℕ
  work : Work
  call : Option Call
  deriving DecidableEq, Repr

/-- The page, the calls and uploads that it waits for, and the chain. -/
structure App where
  page : Page := {}
  pending : List Pending := []
  /-- The calls that have been applied, with their submissions. -/
  chain : List (ℕ × Call) := []
  nextId : ℕ := 0

/-- What the user does, or what changes around the page. -/
inductive Act
  | ambient (ambient : Ambient)
  | mountMint (init : SupplyForm)
  | mountBurn (init : SupplyForm)
  | mountCreate
  | mountMetadata (tokenAddress : String)
  | mountAdmin
  | mountDetail
  | mountSetMetadata (tokenAddress : String)
  | unmountMint
  | unmountBurn
  | unmountCreate
  | unmountMetadata
  | unmountAdmin
  | unmountDetail
  | unmountSetMetadata
  | editMint (tokenAddress recipient amount : String)
  | editBurn (tokenAddress amount : String)
  | editMetadata (tokenAddress description : String) (imageFile : Option String)
  | editAdmin (baseFee metadataFee : String)
  | editSetMetadata (tokenAddress metadataUri : String)
  | acceptTos
  | declineTos
  | submitMint
  | cancelMint
  | confirmMint
  | submitBurn
  | cancelBurn
  | confirmBurn
  | submitCreate (params : TokenParams) (salt : String)
  | submitMetadata
  | cancelMetadata
  | confirmMetadata
  | resetMetadata
  | submitFees
  | cancelFees
  | confirmFees
  | toggleWhitelist
  | loadToken (token : TokenInfo)
  | togglePanel (panel : ActivePanel)
  | submitSetMetadata
  | cancelSetMetadata
  | confirmSetMetadata

/-- The state that a form starts with. -/
def SupplyForm.initial (init : SupplyForm) : SupplyForm :=
  { tokenAddress := init.tokenAddress, panelOf := init.panelOf }

/-- Something around the page changes; the state of the factory fills the form of the admin. -/
def setAmbient (fmt : Formatting) (p : Page) (ambient : Ambient) : Page :=
  let changed := { p with ambient }
  if ambient.factoryState = p.ambient.factoryState then changed
  else
    match ambient.factoryState with
    | some state => AdminPanel.populate fmt changed state
    | none => changed

/-- `AdminPanel` appears, filled from the state of the factory. -/
def AdminPanel.mounted (fmt : Formatting) (p : Page) : Page :=
  let mounted := { p with adminPanel := p.adminPanel.mount {} }
  match p.ambient.factoryState with
  | some state => AdminPanel.populate fmt mounted state
  | none => mounted

/-- The handler of an act. -/
def Act.handle (fmt : Formatting) (p : Page) (id : ℕ) : Act → Handled
  | .ambient changed => ends (setAmbient fmt p changed)
  -- forms mount with the values their parents pass and lose them when they unmount
  | .mountMint init => ends { p with mintForm := p.mintForm.mount init.initial }
  | .mountBurn init => ends { p with burnForm := p.burnForm.mount init.initial }
  | .mountCreate => ends { p with createToken := p.createToken.mount {} }
  | .mountMetadata tokenAddress =>
    ends { p with metadataForm := p.metadataForm.mount { tokenAddress } }
  | .mountAdmin => ends (AdminPanel.mounted fmt p)
  | .mountDetail => ends { p with tokenDetail := p.tokenDetail.mount {} }
  | .mountSetMetadata tokenAddress =>
    ends { p with setMetadataForm := p.setMetadataForm.mount { tokenAddress } }
  | .unmountMint => ends { p with mintForm := p.mintForm.unmount }
  | .unmountBurn => ends { p with burnForm := p.burnForm.unmount }
  | .unmountCreate => ends { p with createToken := p.createToken.unmount }
  | .unmountMetadata => ends { p with metadataForm := p.metadataForm.unmount }
  | .unmountAdmin => ends { p with adminPanel := p.adminPanel.unmount }
  | .unmountDetail => ends { p with tokenDetail := p.tokenDetail.unmount }
  | .unmountSetMetadata => ends { p with setMetadataForm := p.setMetadataForm.unmount }
  -- an edit reaches the form that is mounted, whatever its dialogs show
  | .editMint tokenAddress recipient amount =>
    ends (p.updateMintForm p.mintForm.generation fun form =>
      { form with tokenAddress, recipient, amount })
  | .editBurn tokenAddress amount =>
    ends (p.updateBurnForm p.burnForm.generation fun form => { form with tokenAddress, amount })
  | .editMetadata tokenAddress description imageFile =>
    ends (p.updateMetadataForm p.metadataForm.generation fun form =>
      { form with tokenAddress, description, imageFile })
  | .editAdmin baseFee metadataFee =>
    ends (p.updateAdminPanel p.adminPanel.generation fun form => { form with baseFee, metadataFee })
  | .editSetMetadata tokenAddress metadataUri =>
    ends (p.updateSetMetadataForm p.setMetadataForm.generation fun form =>
      { form with tokenAddress, metadataUri })
  | .acceptTos => ends (Frontend.acceptTos p)
  | .declineTos => ends (Frontend.declineTos p)
  -- submitting validates and opens a dialog; confirming starts a handler that may wait
  | .submitMint => ends (MintForm.onValid p)
  | .cancelMint =>
    ends (p.updateMintForm p.mintForm.generation fun form => { form with pending := false })
  | .confirmMint => MintForm.handleConfirm p
  | .submitBurn => ends (BurnForm.onValid p)
  | .cancelBurn =>
    ends (p.updateBurnForm p.burnForm.generation fun form => { form with pending := false })
  | .confirmBurn => BurnForm.handleConfirm p
  | .submitCreate params salt => CreateToken.handleTokenFormSubmit p params salt
  | .submitMetadata => ends (MetadataForm.handleSubmit p)
  | .cancelMetadata =>
    ends (p.updateMetadataForm p.metadataForm.generation fun form =>
      { form with pendingConfirm := false })
  | .confirmMetadata => MetadataForm.handleConfirm p
  | .resetMetadata => ends (MetadataForm.handleReset p)
  | .submitFees => ends (AdminPanel.handleSubmit fmt p)
  | .cancelFees =>
    ends (p.updateAdminPanel p.adminPanel.generation fun form => { form with showConfirm := false })
  | .confirmFees => AdminPanel.handleConfirm fmt p
  | .toggleWhitelist => AdminPanel.handleWhitelistToggle p
  -- the detail page and its metadata form submit to the page, not to the contract
  | .loadToken token => ends (TokenDetail.loaded p token)
  | .togglePanel panel => ends (TokenDetail.togglePanel p panel)
  | .submitSetMetadata => ends (SetMetadataForm.handleSubmit p)
  | .cancelSetMetadata =>
    ends (p.updateSetMetadataForm p.setMetadataForm.generation fun form =>
      { form with pending := false })
  | .confirmSetMetadata => ends (SetMetadataForm.handleConfirm p id)

/-- A call of the factory settles. -/
def Work.settled (p : Page) (id : ℕ) (outcome : Except CallError CallResult) : Work → Handled
  | .mint generation => ends (MintForm.settled p id generation outcome)
  | .burn generation => ends (BurnForm.settled p id generation outcome)
  | .deploy generation name symbol raced =>
    CreateToken.settled p id generation name symbol raced outcome
  | .link generation metadataUri => ends (MetadataForm.settled p id generation metadataUri outcome)
  | .updateFees generation => ends (AdminPanel.settled p id generation outcome)
  | .whitelist generation next => ends (AdminPanel.toggled p id generation next outcome)
  | .refreshBalance .. | .upload .. => ends p

/-- What a handler of submission `id` waits for next. -/
def waits (id : ℕ) (next : Option (Work × Option Call)) : List Pending :=
  (next.map fun w => ⟨id, w.1, w.2⟩).toList

/-- The handler has gone on, up to its next `await`. -/
def App.handled (s : App) (id : ℕ) (r : Handled) (pending : List Pending) : App :=
  { s with page := r.1, pending := pending ++ waits id r.2 }

/-- The submissions whose calls have been applied. -/
def applies (id : ℕ) (call : Call) (applied : Bool) (chain : List (ℕ × Call)) : List (ℕ × Call) :=
  if applied then (id, call) :: chain else chain

/-- What the user does, or what the page has waited for. -/
inductive Happening
  | act (a : Act)
  | settles (index : ℕ) (outcome : Except CallError CallResult) (applied : Bool)
  | uploads (index : ℕ) (outcome : Except String String)
  | refreshes (index : ℕ) (outcome : Except String Unit)
  | deployTimeout (index : ℕ)

/-- An act, which starts a submission. -/
def App.act (fmt : Formatting) (s : App) (a : Act) : App :=
  { s with nextId := s.nextId + 1 }.handled s.nextId (a.handle fmt s.page s.nextId) s.pending

/-- One step of the page or of the chain. -/
inductive Step (fmt : Formatting) (s : App) : Happening → App → Prop
  | act (a : Act) : Step fmt s (.act a) (s.act fmt a)
  /-- A call settles, and has been applied by then or not. -/
  | settles {i : ℕ} {q : Pending} {call : Call} {outcome : Except CallError CallResult}
    {applied : Bool} (hpending : s.pending[i]? = some q) (hcall : q.call = some call)
    (hsettles : Settles outcome applied) :
    Step fmt s (.settles i outcome applied)
      ({ s with chain := applies q.id call applied s.chain }.handled q.id
        (q.work.settled s.page q.id outcome) (s.pending.eraseIdx i))
  | uploads {i id generation : ℕ} {tokenAddress feePayment : String}
    {outcome : Except String String}
    (hpending : s.pending[i]? = some ⟨id, .upload generation tokenAddress feePayment, none⟩) :
    Step fmt s (.uploads i outcome)
      (s.handled id (MetadataForm.uploaded s.page generation tokenAddress feePayment outcome)
        (s.pending.eraseIdx i))
  | refreshes {i id : ℕ} {name symbol : String} {outcome : Except String Unit}
    (hpending : s.pending[i]? = some ⟨id, .refreshBalance name symbol, none⟩) :
    Step fmt s (.refreshes i outcome)
      (s.handled id (ends (CreateToken.refreshed s.page id name symbol outcome))
        (s.pending.eraseIdx i))
  | deployTimeout {i id generation : ℕ} {name symbol : String} {call : Option Call}
    (hpending : s.pending[i]? = some ⟨id, .deploy generation name symbol false, call⟩) :
    Step fmt s (.deployTimeout i)
      (s.handled id (ends (CreateToken.timedOut s.page generation))
        (s.pending.set i ⟨id, .deploy generation name symbol true, call⟩))

/-- Acts in a row. -/
def App.acts (fmt : Formatting) (s : App) (as : List Act) : App := as.foldl (App.act fmt) s

theorem run_acts (fmt : Formatting) (s : App) (as : List Act) :
    Run (Step fmt) s (as.reverse.map .act) (s.acts fmt as) := by
  induction as using List.reverseRecOn with
  | nil => exact .nil
  | append_singleton as a ih =>
    rw [List.reverse_append, App.acts, List.foldl_append]
    exact .snoc ih (.act a)

end StellarForge.Frontend
