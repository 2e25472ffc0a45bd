import StellarForge.Frontend.Forms
import StellarForge.Ipfs.Metadata

/-!
# The handlers of the forms

Each handler is split at its `await`s: `handleConfirm` and the like run when the user acts, `settled`
and the like run when the awaited call settles.  `disabled` buttons and closed modals give the guards.
A text that is translated stands as its key.
-/

namespace StellarForge.Frontend

variable (fmt : Formatting) (p : Page) (id : ℕ)

/-! ### `MintForm` -/

namespace MintForm

/-- The fee that is offered while the state of the factory is not known. -/
def BASE_FEE_STROOPS : String := "100000"

/-- `onValid`, when the form's button is enabled. -/
def onValid : Page :=
  match p.mintForm.state with
  | none => p
  | some form =>
    if isTransactionInFlight form.status || !p.ambient.hasSufficientBalance ||
        p.ambient.networkBlocked then p
    else if p.ambient.wallet.isNone then p.addToast "Connect your wallet first" .error
    else requireTos p p.mintForm.generation .mint

/-- `handleConfirm`, up to the call. -/
def handleConfirm : Handled :=
  match p.mintForm.state with
  | none => ends p
  | some form =>
    if form.pending then
      -- the fee is the one loaded last, with a default before the first load
      let feePayment := (p.ambient.factoryState.map (·.baseFee)).getD BASE_FEE_STROOPS
      invokes
        (p.updateMintForm p.mintForm.generation fun form =>
          { form with pending := false, status := .simulating })
        (.mint p.mintForm.generation)
        (.mintTokens form.tokenAddress (Text.trim form.recipient) form.amount feePayment)
    else ends p

end MintForm

/-- `onSuccess` of a form in a panel: it closes the panel. -/
def onSuccess (panelOf : Option ℕ) : Page :=
  match panelOf with
  | some generation => p.updateTokenDetail generation fun detail => { detail with activePanel := none }
  | none => p

namespace MintForm

/-- `handleConfirm`, once `executeMint` has settled. -/
def settled (generation : ℕ) (outcome : Except CallError CallResult) : Page :=
  let p := p.updateMintForm generation fun form => { form with status := executed outcome }
  -- a form that was unmounted meanwhile shows nothing any more
  if p.mintForm.mounted generation then
    match outcome with
    | .ok result =>
      let p := p.updateMintForm generation fun form => { form with txHash := some result.hash }
      let p := p.present id .mint (.transactionHash result.hash)
      let p := p.succeed id .mint "Tokens minted successfully"
      onSuccess (p.present id .mint .callback) (p.mintForm.state.bind (·.panelOf))
    | .error err => p.addToast err.message .error
  else p

end MintForm

/-! ### `BurnForm` -/

namespace BurnForm

/-- `onValid`, when the form's button is enabled. -/
def onValid : Page :=
  match p.burnForm.state with
  | none => p
  | some form =>
    if isTransactionInFlight form.status || p.ambient.amountExceedsBalance ||
        !p.ambient.hasSufficientBalance || p.ambient.networkBlocked then p
    else if p.ambient.wallet.isNone then p.addToast "Connect your wallet first" .error
    else requireTos p p.burnForm.generation .burn

/-- `handleConfirm`, up to the call. -/
def handleConfirm : Handled :=
  match p.burnForm.state with
  | none => ends p
  | some form =>
    if form.pending then
      invokes
        (p.updateBurnForm p.burnForm.generation fun form =>
          { form with pending := false, status := .simulating })
        (.burn p.burnForm.generation) (.burnTokens form.tokenAddress form.amount)
    else ends p

/-- `handleConfirm`, once `executeBurn` has settled. -/
def settled (generation : ℕ) (outcome : Except CallError CallResult) : Page :=
  let p := p.updateBurnForm generation fun form => { form with status := executed outcome }
  -- as in the mint form, only while it is mounted
  if p.burnForm.mounted generation then
    match outcome with
    | .ok result =>
      let p := p.updateBurnForm generation fun form => { form with txHash := some result.hash }
      let p := p.present id .burn (.transactionHash result.hash)
      let p := p.succeed id .burn "Tokens burned successfully"
      onSuccess (p.present id .burn .callback) (p.burnForm.state.bind (·.panelOf))
    | .error err => p.addToast err.message .error
  else p

end BurnForm

/-! ### `CreateToken` -/

namespace CreateToken

/-- `handleTokenFormSubmit`, for valid parameters, when the button is enabled; `salt` is random. -/
def handleTokenFormSubmit (params : TokenParams) (salt : String) : Handled :=
  match p.createToken.state with
  | none => ends p
  | some form =>
    if p.ambient.wallet.isNone || isTransactionInFlight form.status || p.ambient.networkBlocked then
      ends p
    else
      let feePayment := (p.ambient.factoryState.map (·.baseFee)).getD "100000"
      invokes
        (p.updateCreateToken p.createToken.generation fun form =>
          { form with showTimeoutBanner := false, status := .simulating })
        (.deploy p.createToken.generation params.name params.symbol false)
        (.deployToken params.name params.symbol params.decimals params.initialSupply
          params.maxSupply salt feePayment)

/-- The banner of a transaction whose end is not known. -/
def warnUnconfirmed (generation : ℕ) (message : String) : Page :=
  (p.updateCreateToken generation fun form => { form with showTimeoutBanner := true }).addToast
    message .warning

/-- The timeout wins the race. -/
def timedOut (generation : ℕ) : Page :=
  warnUnconfirmed p generation
    "Transaction submitted but not yet confirmed. Check the explorer for the final status."

/-- The `catch`, for an error of the call. -/
def failed (generation : ℕ) : CallError → Page
  | .submission error =>
    if error.status = .unconfirmed then warnUnconfirmed p generation error.message
    else
      match error.retryRequirement with
      | some requirement => p.addToast (error.message ++ " " ++ requirement) .error
      | none => p.addToast error.message .error
  | .other message => p.addToast message .error

/-- `execute` settles; nothing more happens if the timeout has come first. -/
def settled (generation : ℕ) (name symbol : String) (raced : Bool)
    (outcome : Except CallError CallResult) : Handled :=
  let p := p.updateCreateToken generation fun form => { form with status := executed outcome }
  -- the deadline was shown already, so the outcome is not
  if raced then ends p
  else
    match outcome with
    | .ok result =>
      let address := result.returnValue.getD ""
      let p := p.updateCreateToken generation fun form =>
        { form with deployedToken := some ⟨address, name, symbol⟩ }
      let p := p.present id (.deploy name symbol) (.deployedToken address)
      -- the callback has to wait for the balance
      (p.succeed id (.deploy name symbol) "tokenForm.deploySuccess",
        some (.refreshBalance name symbol, none))
    | .error err => ends (failed p generation err)

/-- `refreshBalance` settles. -/
def refreshed (name symbol : String) : Except String Unit → Page
  | .ok () => p.present id (.deploy name symbol) .callback
  | .error message => p.addToast message .error

end CreateToken

/-! ### `MetadataForm` -/

namespace MetadataForm

/-- `handleSubmit`, when the button is enabled. -/
def handleSubmit : Page :=
  match p.metadataForm.state with
  | none => p
  | some form =>
    if !p.ambient.ipfsReady || form.step ≠ .idle || !p.ambient.hasSufficientBalance ||
        p.ambient.networkBlocked then p
    else if form.imageFile.isNone then p.addToast "Please select an image file" .error
    else if Text.trim form.tokenAddress = "" then p.addToast "Please enter a token address" .error
    else if Ipfs.utf16Length form.description > Ipfs.MAX_METADATA_DESCRIPTION_LENGTH then
      p.addToast ("Description must be " ++ toString Ipfs.MAX_METADATA_DESCRIPTION_LENGTH ++
        " characters or fewer") .error
    else requireTos p p.metadataForm.generation .metadata

/-- `handleConfirm`, up to the upload. -/
def handleConfirm : Handled :=
  match p.metadataForm.state with
  | none => ends p
  | some form =>
    if form.pendingConfirm then
      let feePayment := (p.ambient.factoryState.map (·.metadataFee)).getD "100000"
      let p := p.updateMetadataForm p.metadataForm.generation fun form =>
        { form with pendingConfirm := false, errorMsg := none, finalUri := none, txHash := none,
                    step := .uploadingIpfs }
      (p, some (.upload p.metadataForm.generation form.tokenAddress feePayment, none))
    else ends p

/-- The upload settles, with the URI of the metadata. -/
def uploaded (generation : ℕ) (tokenAddress feePayment : String) : Except String String → Handled
  | .ok metadataUri =>
    -- the URI is shown before it is linked
    invokes
      (p.updateMetadataForm generation fun form =>
        { form with finalUri := some metadataUri, step := .confirmingStellar })
      (.link generation metadataUri)
      (.setMetadata (Text.trim tokenAddress) metadataUri feePayment)
  | .error message =>
    let p := p.updateMetadataForm generation fun form =>
      { form with step := .error, errorMsg := some message }
    ends (p.addToast message .error)

/-- `setMetadata` settles. -/
def settled (generation : ℕ) (metadataUri : String) : Except CallError CallResult → Page
  | .ok result =>
    let p := p.updateMetadataForm generation fun form =>
      { form with txHash := some result.hash, step := .done }
    let p := p.present id (.setMetadata metadataUri) (.transactionHash result.hash)
    let p := p.present id (.setMetadata metadataUri) .metadataUri
    p.succeed id (.setMetadata metadataUri) "Metadata linked on-chain!"
  | .error err =>
    let p := p.updateMetadataForm generation fun form =>
      { form with step := .error, errorMsg := some err.message }
    -- the text keeps the URI, so that the upload is not lost with the failure
    p.addToast ("Metadata pinned at " ++ metadataUri ++ " but on-chain linking failed: " ++
      err.message) .error

/-- `handleReset` -/
def handleReset : Page := p.updateMetadataForm p.metadataForm.generation fun _ => {}

end MetadataForm

/-! ### `AdminPanel` -/

namespace AdminPanel

/-- The authorization guard. -/
def isAdmin (a : Ambient) : Bool :=
  a.wallet.any fun wallet => a.factoryState.any fun state => wallet = state.admin

/-- The effect that fills the form from the state of the factory. -/
def populate (state : FactoryState) : Page :=
  p.updateAdminPanel p.adminPanel.generation fun form =>
    { form with
      baseFee := fmt.stroopsToDisplay state.baseFee
      metadataFee := fmt.stroopsToDisplay state.metadataFee
      whitelistEnabled := state.whitelistEnabled }

/-- `handleSubmit`, when the button is enabled. -/
def handleSubmit : Page :=
  match p.adminPanel.state with
  | none => p
  | some form =>
    if !isAdmin p.ambient || isTransactionInFlight form.status || p.ambient.networkBlocked then p
    else if fmt.isValidFee form.baseFee && fmt.isValidFee form.metadataFee then
      p.updateAdminPanel p.adminPanel.generation fun form => { form with showConfirm := true }
    else p

/-- `handleConfirm`, up to the call. -/
def handleConfirm : Handled :=
  match p.adminPanel.state with
  | none => ends p
  | some form =>
    -- the dialog confirms what the fields say now, not what they said when it was opened
    if form.showConfirm then
      invokes
        (p.updateAdminPanel p.adminPanel.generation fun form =>
          { form with showConfirm := false, status := .simulating })
        (.updateFees p.adminPanel.generation)
        (.updateFees (fmt.displayToStroops form.baseFee) (fmt.displayToStroops form.metadataFee))
    else ends p

/-- `handleConfirm`, once `execute` has settled. -/
def settled (generation : ℕ) (outcome : Except CallError CallResult) : Page :=
  let p := p.updateAdminPanel generation fun form => { form with status := executed outcome }
  match outcome with
  | .ok _ => (p.succeed id .updateFees "Fees updated successfully.").present id .updateFees .callback
  | .error err => p.addToast err.message .error

/-- `handleWhitelistToggle`, up to the call, when the switch is enabled. -/
def handleWhitelistToggle : Handled :=
  match p.adminPanel.state with
  | none => ends p
  | some form =>
    if !isAdmin p.ambient || form.whitelistPending || p.ambient.networkBlocked then ends p
    else
      invokes
        (p.updateAdminPanel p.adminPanel.generation fun form => { form with whitelistPending := true })
        (.whitelist p.adminPanel.generation (!form.whitelistEnabled))
        (.setWhitelistEnabled (!form.whitelistEnabled))

/-- `handleWhitelistToggle`, once `setWhitelistEnabled` has settled. -/
def toggled (generation : ℕ) (next : Bool) (outcome : Except CallError CallResult) : Page :=
  let p := p.updateAdminPanel generation fun form => { form with whitelistPending := false }
  match outcome with
  | .ok _ =>
    -- the switch moves only once the call has succeeded
    let p := p.updateAdminPanel generation fun form => { form with whitelistEnabled := next }
    let p := p.present id (.setWhitelist next) .whitelistFlag
    let p := p.succeed id (.setWhitelist next)
      (if next then
        "Whitelist enforcement enabled. Only whitelisted addresses may create tokens."
      else "Whitelist enforcement disabled. Factory is open to all creators.")
    p.present id (.setWhitelist next) .callback
  | .error err => p.addToast err.message .error

end AdminPanel

/-! ### `TokenDetail` -/

namespace TokenDetail

/-- `resolveTokenInfoByAddress` resolves to a token. -/
def loaded (token : TokenInfo) : Page :=
  p.updateTokenDetail p.tokenDetail.generation fun detail => { detail with token := some token }

/-- The connected wallet has created the token of the page. -/
def isCreator (detail : TokenDetail) : Bool :=
  detail.token.any fun token => p.ambient.wallet.any fun wallet => token.creator = wallet

/-- `togglePanel`, when the panel's button is there. -/
def togglePanel (panel : ActivePanel) : Page :=
  match p.tokenDetail.state with
  | none => p
  | some detail =>
    -- the metadata panel is offered until there is a URI
    if !isCreator p detail || (panel = .metadata && (detail.token.bind (·.metadataUri)).isSome) then p
    else
      p.updateTokenDetail p.tokenDetail.generation fun detail =>
        { detail with activePanel := if detail.activePanel = some panel then none else some panel }

/-- `handleSetMetadata`, which the panel gets as its `onSubmit`. -/
def handleSetMetadata (uri : String) : Page :=
  -- success is shown although nothing was sent to the contract
  let p := p.succeed id (.setMetadata uri) ("Metadata URI set: " ++ uri)
  let p := p.updateTokenDetail p.tokenDetail.generation fun detail =>
    { detail with token := detail.token.map fun token => { token with metadataUri := some uri }
                  activePanel := none }
  p.present id (.setMetadata uri) .metadataUri

end TokenDetail

/-! ### `SetMetadataForm` -/

namespace SetMetadataForm

/-- `handleSubmit`, when the button is enabled. -/
def handleSubmit : Page :=
  match p.setMetadataForm.state with
  | none => p
  | some form =>
    if form.loading || !p.ambient.hasSufficientBalance || p.ambient.networkBlocked then p
    else if Ipfs.isValidIPFSUri form.metadataUri then
      p.updateSetMetadataForm p.setMetadataForm.generation fun form => { form with pending := true }
    else p.addToast "setMetadata.invalidUri" .error

/-- `handleConfirm`.  Its `onSubmit` waits for nothing, so that there is no call to split it at. -/
def handleConfirm : Page :=
  match p.setMetadataForm.state with
  | none => p
  | some form =>
    if form.pending then
      let p := p.updateSetMetadataForm p.setMetadataForm.generation fun form =>
        { form with pending := false, loading := false }
      let p := TokenDetail.handleSetMetadata p id form.metadataUri
      p.succeed id (.setMetadata form.metadataUri) "setMetadata.success"
    else p

end SetMetadataForm

end StellarForge.Frontend
