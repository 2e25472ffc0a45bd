import StellarForge.Frontend.Calls

/-!
# The write forms

The components from which calls of the factory start.  A handler runs up to its first `await` when the
user acts (`handleConfirm` and the like), and from an `await` on when what it waits for settles
(`settled`).  Components appear and disappear at any moment, by navigation or with their panel.

`Page.successes` is no state of the page: it notes what has presented a write as done, and in which
submission.
-/

namespace StellarForge.Frontend

/-! ### Components -/

/-- A component: each mounting starts a new generation of its state. -/
structure Component (σ : Type) where
  generation : ℕ := 0
  state : Option σ := none

namespace Component

variable {σ : Type}

/-- The component appears, as a new generation. -/
def mount (c : Component σ) (init : σ) : Component σ := ⟨c.generation + 1, some init⟩

/-- The component disappears; the next one is of another generation. -/
def unmount (c : Component σ) : Component σ := ⟨c.generation, none⟩

/-- The setter of one generation; it has no effect after that one has been unmounted. -/
def update (c : Component σ) (generation : ℕ) (f : σ → σ) : Component σ :=
  if c.generation = generation then { c with state := c.state.map f } else c

/-- `mountedRef.current` of one generation. -/
def mounted (c : Component σ) (generation : ℕ) : Bool :=
  c.generation = generation && c.state.isSome

end Component

/-! ### `useTransaction` -/

/-- The statuses of `useTransaction`. -/
inductive TransactionStatus
  | idle
  | simulating
  | signing
  | submitting
  | submitted
  | retrying
  | polling
  | success
  | error
  | dropped
  | expired
  | unconfirmed
  deriving DecidableEq, Repr

/-- The statuses in which the form is locked. -/
def IN_FLIGHT_STATUSES : List TransactionStatus :=
  [.simulating, .signing, .submitting, .submitted, .retrying, .polling]

/-- The transaction has not come to an end. -/
def isTransactionInFlight (status : TransactionStatus) : Bool := status ∈ IN_FLIGHT_STATUSES

/-- `toFailure(err).kind` -/
def CallError.kind : CallError → TransactionStatus
  | .submission error =>
    match error.status with
    | .failed => .error
    | .dropped => .dropped
    | .expired => .expired
    | .unconfirmed => .unconfirmed
  | .other _ => .error

/-- The status that `execute` ends with. -/
def executed : Except CallError CallResult → TransactionStatus
  | .ok _ => .success
  | .error err => err.kind

/-! ### State -/

/-- The kinds of a toast. -/
inductive ToastKind
  | success
  | error
  | warning
  deriving DecidableEq, Repr

/-- A message that disappears by itself. -/
structure Toast where
  message : String
  kind : ToastKind
  deriving DecidableEq, Repr

/-- The state of the factory, as `useFactoryState` decodes it. -/
structure FactoryState where
  admin : String
  baseFee : String
  metadataFee : String
  whitelistEnabled : Bool
  deriving DecidableEq, Repr

/-- What the components read of contexts and other hooks; it may change at any moment. -/
structure Ambient where
  /-- The connected address. -/
  wallet : Option String := none
  factoryState : Option FactoryState := none
  hasSufficientBalance : Bool := true
  amountExceedsBalance : Bool := false
  networkBlocked : Bool := false
  tosAccepted : Bool := false
  ipfsReady : Bool := true

/-- Conversions through floating point numbers. -/
structure Formatting where
  stroopsToDisplay : String → String
  displayToStroops : String → String
  isValidFee : String → Bool

/-- `MintForm` and `BurnForm`. -/
structure SupplyForm where
  tokenAddress : String := ""
  recipient : String := ""
  amount : String := ""
  pending : Bool := false
  status : TransactionStatus := .idle
  txHash : Option String := none
  /-- The `TokenDetail` whose panel the form is in: `onSuccess` closes that panel. -/
  panelOf : Option ℕ := none

/-- The token that the success panel tells of. -/
structure DeployedToken where
  address : String
  name : String
  symbol : String

/-- The state of `CreateToken`. -/
structure CreateToken where
  status : TransactionStatus := .idle
  deployedToken : Option DeployedToken := none
  showTimeoutBanner : Bool := false

/-- What the token form hands over. -/
structure TokenParams where
  name : String
  symbol : String
  decimals : ℕ
  initialSupply : String
  maxSupply : Option String

/-- `Step` of `MetadataForm`. -/
inductive MetadataStep
  | idle
  | uploadingIpfs
  | confirmingStellar
  | done
  | error
  deriving DecidableEq, Repr

/-- The state of `MetadataForm`. -/
structure MetadataForm where
  tokenAddress : String := ""
  description : String := ""
  imageFile : Option String := none
  step : MetadataStep := .idle
  pendingConfirm : Bool := false
  finalUri : Option String := none
  txHash : Option String := none
  errorMsg : Option String := none

/-- The state of `AdminPanel`. -/
structure AdminPanel where
  baseFee : String := ""
  metadataFee : String := ""
  showConfirm : Bool := false
  status : TransactionStatus := .idle
  whitelistEnabled : Bool := false
  whitelistPending : Bool := false

/-- The state of `SetMetadataForm`. -/
structure SetMetadataForm where
  tokenAddress : String := ""
  metadataUri : String := ""
  loading : Bool := false
  pending : Bool := false

/-- The panels of a token's page. -/
inductive ActivePanel
  | mint
  | burn
  | metadata
  deriving DecidableEq, Repr

/-- What the page of a token looks at. -/
structure TokenInfo where
  creator : String
  metadataUri : Option String

/-- The state of `TokenDetail`. -/
structure TokenDetail where
  token : Option TokenInfo := none
  activePanel : Option ActivePanel := none

/-- How a write is presented as done. -/
inductive Display
  | toast (message : String)
  | transactionHash (hash : String)
  | deployedToken (address : String)
  | whitelistFlag
  | metadataUri
  | callback
  deriving DecidableEq, Repr

/-- A success, with where it is shown. -/
structure Success where
  write : Write
  display : Display
  deriving DecidableEq, Repr

/-- A form whose modal opens once the terms are accepted. -/
inductive TosForm
  | mint
  | burn
  | metadata
  deriving DecidableEq, Repr

/-- The forms, and what they have in common. -/
structure Page where
  ambient : Ambient := {}
  /-- `pendingAction` of `TosProvider`. -/
  pendingAction : Option (ℕ × TosForm) := none
  mintForm : Component SupplyForm := {}
  burnForm : Component SupplyForm := {}
  createToken : Component CreateToken := {}
  metadataForm : Component MetadataForm := {}
  adminPanel : Component AdminPanel := {}
  tokenDetail : Component TokenDetail := {}
  setMetadataForm : Component SetMetadataForm := {}
  toasts : List Toast := []
  successes : List (ℕ × Success) := []

namespace Page

/-! The setters of each component's state. -/

/-- A setter of a mint form, without effect when another one has taken its place; likewise below. -/
def updateMintForm (p : Page) (generation : ℕ) (f : SupplyForm → SupplyForm) : Page :=
  { p with mintForm := p.mintForm.update generation f }

/-- A setter of a burn form. -/
def updateBurnForm (p : Page) (generation : ℕ) (f : SupplyForm → SupplyForm) : Page :=
  { p with burnForm := p.burnForm.update generation f }

/-- A setter of `CreateToken`. -/
def updateCreateToken (p : Page) (generation : ℕ) (f : CreateToken → CreateToken) : Page :=
  { p with createToken := p.createToken.update generation f }

/-- A setter of `MetadataForm`. -/
def updateMetadataForm (p : Page) (generation : ℕ) (f : MetadataForm → MetadataForm) : Page :=
  { p with metadataForm := p.metadataForm.update generation f }

/-- A setter of `AdminPanel`. -/
def updateAdminPanel (p : Page) (generation : ℕ) (f : AdminPanel → AdminPanel) : Page :=
  { p with adminPanel := p.adminPanel.update generation f }

/-- A setter of `TokenDetail`. -/
def updateTokenDetail (p : Page) (generation : ℕ) (f : TokenDetail → TokenDetail) : Page :=
  { p with tokenDetail := p.tokenDetail.update generation f }

/-- A setter of `SetMetadataForm`. -/
def updateSetMetadataForm (p : Page) (generation : ℕ) (f : SetMetadataForm → SetMetadataForm) : Page :=
  { p with setMetadataForm := p.setMetadataForm.update generation f }

/-- `addToast`, for what is no success. -/
def addToast (p : Page) (message : String) (kind : ToastKind) : Page :=
  { p with toasts := ⟨message, kind⟩ :: p.toasts }

/-- Submission `id` presents the write as done. -/
def present (p : Page) (id : ℕ) (write : Write) (display : Display) : Page :=
  { p with successes := (id, ⟨write, display⟩) :: p.successes }

/-- `addToast` with the kind `success`. -/
def succeed (p : Page) (id : ℕ) (write : Write) (message : String) : Page :=
  (p.addToast message .success).present id write (.toast message)

end Page

/-- What a handler waits for at an `await`. -/
inductive Work
  | mint (generation : ℕ)
  | burn (generation : ℕ)
  /-- `raced`: the timeout has come first. -/
  | deploy (generation : ℕ) (name symbol : String) (raced : Bool)
  | refreshBalance (name symbol : String)
  | upload (generation : ℕ) (tokenAddress feePayment : String)
  | link (generation : ℕ) (metadataUri : String)
  | updateFees (generation : ℕ)
  | whitelist (generation : ℕ) (next : Bool)
  deriving DecidableEq, Repr

/-- The page after a handler, and what it waits for, with the call of the factory if it is one. -/
abbrev Handled := Page × Option (Work × Option Call)

/-- A handler that has ended. -/
def ends (p : Page) : Handled := (p, none)

/-- A handler that waits for a call. -/
def invokes (p : Page) (work : Work) (call : Call) : Handled := (p, some (work, some call))

/-! ### Terms of service -/

/-- The action given to `requireTos`: `() => setPending(true)` of one generation of the form. -/
def openModal (p : Page) (generation : ℕ) : TosForm → Page
  | .mint => p.updateMintForm generation fun form => { form with pending := true }
  | .burn => p.updateBurnForm generation fun form => { form with pending := true }
  | .metadata => p.updateMetadataForm generation fun form => { form with pendingConfirm := true }

/-- The confirmation opens, or waits until the terms have been accepted. -/
def requireTos (p : Page) (generation : ℕ) (form : TosForm) : Page :=
  if p.ambient.tosAccepted then openModal p generation form
  else { p with pendingAction := some (generation, form) }

/-- `handleAccept` -/
def acceptTos (p : Page) : Page :=
  let accepted := { p with ambient := { p.ambient with tosAccepted := true }, pendingAction := none }
  match p.pendingAction with
  | some (generation, form) => openModal accepted generation form
  | none => accepted

/-- `handleDecline` -/
def declineTos (p : Page) : Page := { p with pendingAction := none }

end StellarForge.Frontend
