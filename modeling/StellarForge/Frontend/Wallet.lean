import Mathlib.Tactic.Common

/-!
# The wallet session

The connected account is kept in three places: the state of `WalletContext`, the `walletService`, and
`localStorage`.  An asynchronous function is a `Task` while it waits for Freighter; it goes on up to
its next `await` when the answer is there.  A function that returns and the caller that awaits it go on
in the same step.
-/

namespace StellarForge.Frontend.Wallet

/-! ### `WalletService` -/

/-- What `isConnected()` of Freighter resolves to. -/
structure ConnectedResult where
  isConnected : Bool
  error : Option String

/-- What `getAddress()` of Freighter resolves to; the address may be empty. -/
structure AddressResult where
  address : String
  error : Option String

/-- The service, with `localStorage`: `storage` says whether that is available. -/
structure WalletService where
  connectedAddress : Option String
  storage : Bool
  savedAddress : Option String

namespace WalletService

/-- Where the extension is to be found. -/
def FREIGHTER_INSTALL_URL : String := "https://www.freighter.app/"

variable (service : WalletService)

/-- The address is stored, where there is a storage. -/
def saveAddress (address : String) : WalletService :=
  if service.storage then { service with savedAddress := some address } else service

/-- The stored address is removed, where there is a storage. -/
def clearAddress : WalletService :=
  if service.storage then { service with savedAddress := none } else service

/-- An empty address counts as none. -/
def getSavedAddress : Option String :=
  if service.storage then service.savedAddress.filter (· ≠ "") else none

/-- `isInstalled`, from the answer it waits for. -/
def isInstalled : Except String ConnectedResult → Bool
  | .ok result => result.isConnected
  | .error _ => false

/-- The address is taken over. -/
def adopt (address : String) : WalletService :=
  { service with connectedAddress := some address }.saveAddress address

/-- The service forgets the wallet. -/
def disconnect : WalletService := { service with connectedAddress := none }.clearAddress

/-- `connect`, from the answer of `getAddress`. -/
def connected : Except String AddressResult → Except String String × WalletService
  | .error message => (.error message, service)
  | .ok result =>
    match result.error with
    | some message => (.error message, service)
    | none =>
      if result.address = "" then
        (.error ("Freighter wallet is not available. Please install or unlock it from " ++
          FREIGHTER_INSTALL_URL), service)
      else (.ok result.address, service.adopt result.address)

/-- The address that the service holds. -/
def getConnectedAddress : Option String := service.connectedAddress

end WalletService

/-- Where `checkExistingConnection` waits. -/
inductive CheckStage
  | installed
  | connected
  | address
  deriving DecidableEq, Repr

/-- What Freighter or Horizon answers. -/
inductive Answer
  | connected (result : Except String ConnectedResult)
  | address (result : Except String AddressResult)
  | balance (result : Except String String)

/-- `checkExistingConnection` waits at another stage, or returns. -/
inductive CheckStep
  | again (stage : CheckStage)
  | returns (address : Option String)

namespace WalletService

variable (service : WalletService)

/-- `checkExistingConnection`, from the answer it waits for; none if that is not the answer. -/
def check : CheckStage → Answer → Option (CheckStep × WalletService)
  | .installed, .connected result =>
    if isInstalled result then
      match service.getSavedAddress with
      | none => some (.returns none, service)
      | some _ => some (.again .connected, service)
    else some (.returns none, service)
  | .connected, .connected result =>
    match result with
    | .error _ => some (.returns none, service.clearAddress)
    | .ok result =>
      if result.error.isSome || !result.isConnected then some (.returns none, service.clearAddress)
      else some (.again .address, service)
  | .address, .address result =>
    match result with
    | .error _ => some (.returns none, service.clearAddress)
    | .ok result =>
      if result.error.isSome || result.address = "" then some (.returns none, service.clearAddress)
      else some (.returns (some result.address), service.adopt result.address)
  | _, _ => none

end WalletService

/-! ### `WalletContext` -/

/-- The wallet, as the page shows it. -/
structure WalletState where
  address : Option String := none
  isConnected : Bool := false
  balance : Option String := none
  deriving DecidableEq, Repr

/-- What an effect has seen of the wallet when it ran. -/
structure Closure where
  address : Option String
  isConnected : Bool
  deriving DecidableEq, Repr

/-- An asynchronous function, where it waits. -/
inductive Task
  /-- `connect`, in `isInstalled` of the service. -/
  | connectInstalled
  /-- `connect`, in `getAddress`. -/
  | connectAddress
  /-- `connect`, in its `fetchBalance`. -/
  | connectBalance
  /-- `initWallet`, in its own `isInstalled`. -/
  | initInstalled
  /-- `initWallet`, in `checkExistingConnection`. -/
  | initCheck (stage : CheckStage)
  /-- `handleAccountChanged`, in `checkExistingConnection`. -/
  | accountChanged (closure : Closure) (stage : CheckStage)
  /-- `fetchBalance` anywhere else. -/
  | fetchBalance
  deriving DecidableEq, Repr

/-- The provider of the page, with what it waits for. -/
structure Session where
  wallet : WalletState := {}
  isConnecting : Bool := false
  error : Option String := none
  isInstalled : Bool := true
  service : WalletService
  /-- `WatchWalletChanges` is available. -/
  watches : Bool
  tasks : List Task := [.initInstalled]
  /-- What the effects that have started a watcher had seen. -/
  closures : List Closure := []
  /-- `disconnect` has been called, and `connect` not since. -/
  closed : Bool := false

namespace Session

variable (s : Session)

/-- `WalletProvider` is mounted on a fresh page, with what `localStorage` has. -/
def mounted (storage : Bool) (savedAddress : Option String) (watches : Bool) : Session where
  service := ⟨none, storage, savedAddress⟩
  watches := watches
  closures := if watches then [⟨none, false⟩] else []

/-- `setWallet({ address, isConnected: true, balance: undefined })` -/
def setConnected (address : String) : Session :=
  { s with wallet := { address := some address, isConnected := true } }

/-- `setWallet({ address: null, isConnected: false, balance: undefined })` -/
def setDisconnected : Session := { s with wallet := {} }

/-- A task begins. -/
def spawn (task : Task) : Session := { s with tasks := s.tasks ++ [task] }

/-- `connect`, up to its first `await`. -/
def connect : Session :=
  { s with isConnecting := true, error := none, closed := false }.spawn .connectInstalled

/-- The `catch` and the `finally` of `connect`. -/
def connectFailed (message : String) : Session :=
  { s.setDisconnected with error := some message, isConnecting := false }

/-- The user disconnects. -/
def disconnect : Session :=
  { s.setDisconnected with service := s.service.disconnect, error := none, closed := true }

/-- `fetchBalance` gets its answer. -/
def balanceFetched : Except String String → Session
  | .ok balance => { s with wallet := { s.wallet with balance := some balance } }
  | .error _ => s

/-- `walletService.connect()` settles in `connect`. -/
def connectSettled (result : Except String String × WalletService) : Session :=
  match result.1 with
  | .ok address => ({ s with service := result.2 }.setConnected address).spawn .connectBalance
  | .error message => { s with service := result.2 }.connectFailed message

/-- `checkExistingConnection` returns in `initWallet`. -/
def initReturned (address : Option String) : Session :=
  match address with
  | some address => (s.setConnected address).spawn .fetchBalance
  | none => s

/-- `checkExistingConnection` returns in `handleAccountChanged`. -/
def accountReturned (closure : Closure) (address : Option String) : Session :=
  match address with
  | some address =>
    if some address ≠ closure.address then (s.setConnected address).spawn .fetchBalance else s
  | none => if closure.isConnected then s.disconnect else s

/-- The task goes on with the answer, if it is one that it waits for. -/
def resume : Task → Answer → Option Session
  | .connectInstalled, .connected result =>
    some (if WalletService.isInstalled result then s.spawn .connectAddress
      else s.connectFailed ("Freighter wallet is not installed. Please install it from " ++
        WalletService.FREIGHTER_INSTALL_URL))
  | .connectAddress, .address result => some (s.connectSettled (s.service.connected result))
  | .connectBalance, .balance result => some { s.balanceFetched result with isConnecting := false }
  | .initInstalled, .connected result =>
    let installed := WalletService.isInstalled result
    let s := { s with isInstalled := installed }
    some (if installed then s.spawn (.initCheck .installed) else s)
  -- the two checks of the extension run in stages of their own
  | .initCheck stage, answer =>
    match s.service.check stage answer with
    | none => none
    | some (.again next, service) => some ({ s with service }.spawn (.initCheck next))
    | some (.returns address, service) => some ({ s with service }.initReturned address)
  | .accountChanged closure stage, answer =>
    match s.service.check stage answer with
    | none => none
    | some (.again next, service) => some ({ s with service }.spawn (.accountChanged closure next))
    | some (.returns address, service) => some ({ s with service }.accountReturned closure address)
  | .fetchBalance, .balance result => some (s.balanceFetched result)
  -- an answer of the wrong kind answers nothing
  | _, _ => none

/-- Freighter's network has changed. -/
def networkChanged (isConnected : Bool) : Session :=
  let warning := "Network changed in Freighter. Please verify you are on the correct network."
  if isConnected then { s with error := some warning } else s

/-- The callback of a watcher. -/
def watched (closure : Closure) (address network : String) : Session :=
  let s := if address ≠ "" ∧ some address ≠ closure.address then
    (s.setConnected address).spawn .fetchBalance else s
  s.networkChanged (network ≠ "" && closure.isConnected)

/-- The effect runs again: a watcher starts with what there is to see. -/
def render : Session :=
  if s.isInstalled && s.watches then
    { s with closures := ⟨s.wallet.address, s.wallet.isConnected⟩ :: s.closures }
  else s

end Session

/-- What may happen to the page. -/
inductive Event
  | connect
  | disconnect
  | reload
  /-- The network is switched: `initWallet` runs again. -/
  | switchNetwork
  /-- The balance is fetched again. -/
  | refreshBalance
  /-- The watcher that has started with a closure calls back. -/
  | watched (index : ℕ) (address network : String)
  /-- The events of the fallback. -/
  | accountChanged
  | networkChanged
  /-- What a task waits for is there. -/
  | resume (index : ℕ) (answer : Answer)

namespace Session

variable (s : Session)

/-- One event, without the effects after it; nothing happens where the event cannot. -/
def handle : Event → Session
  | .connect => s.connect
  | .disconnect => s.disconnect
  | .reload => mounted s.service.storage s.service.savedAddress s.watches
  | .switchNetwork => s.spawn .initInstalled
  | .refreshBalance => if s.wallet.isConnected then s.spawn .fetchBalance else s
  | .watched i address network =>
    match s.closures[i]? with
    | some closure => s.watched closure address network
    | none => s
  | .accountChanged =>
    if s.isInstalled && !s.watches then
      s.spawn (.accountChanged ⟨s.wallet.address, s.wallet.isConnected⟩ .installed)
    else s
  | .networkChanged =>
    if s.isInstalled && !s.watches then s.networkChanged s.wallet.isConnected else s
  | .resume i answer =>
    match s.tasks[i]? with
    | some task => ({ s with tasks := s.tasks.eraseIdx i }.resume task answer).getD s
    | none => s

/-- One event, and the effects of the render after it. -/
def step (e : Event) : Session := (s.handle e).render

end Session

end StellarForge.Frontend.Wallet
