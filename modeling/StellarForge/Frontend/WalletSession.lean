import StellarForge.Frontend.Wallet
import StellarForge.Transition.Throughout

/-!
# The coherence of the wallet session

The address on display is the one that the service holds, and a session that is closed stays closed.
Both can be lost in three ways: a watcher delivers another account than the service holds, an
asynchronous function that has started earlier obtains an address after `disconnect`, and a handler of
the fallback obtains the address that its effect has seen while another one is on display.

* `sound_handle_iff`: the events that keep the session sound;
* **`throughout_sound_iff`**: the runs in which the session is sound throughout;
* `not_sound_accountSwitch`: an account is switched under a watcher.
-/

namespace StellarForge.Frontend.Wallet

open Session Transition

/-- The address on display is the one that transactions are built for and signed by. -/
def Coherent (s : Session) : Prop :=
  ∀ address ∈ s.wallet.address, s.service.getConnectedAddress = some address

/-- After `disconnect` nothing is connected until `connect` is called. -/
def StaysClosed (s : Session) : Prop :=
  s.closed = true → s.wallet.address = none ∧ s.wallet.isConnected = false

/-- The page shows what the service holds, and a wallet that was disconnected stays so. -/
def Sound (s : Session) : Prop := Coherent s ∧ StaysClosed s

instance (s : Session) : Decidable (Sound s) :=
  inferInstanceAs (Decidable ((∀ address ∈ s.wallet.address, _ = _) ∧ (_ → _ ∧ _)))

/-! ### The condition -/

/-- The address that an answer of `getAddress` delivers. -/
def obtained : Except String AddressResult → Option String
  | .error _ => none
  | .ok result => if result.error.isSome || result.address = "" then none else some result.address

/-- An asynchronous function obtains no address once the session is closed; and a handler of the
fallback does not obtain the address that its effect has seen while another one is on display. -/
def TaskKeeps (s : Session) : Task → Answer → Prop
  | .connectAddress, .address result => (obtained result).isSome → s.closed = false
  | .initCheck .address, .address result => (obtained result).isSome → s.closed = false
  | .accountChanged closure .address, .address result => ∀ address ∈ obtained result,
    if some address ≠ closure.address then s.closed = false
    else ∀ shown ∈ s.wallet.address, shown = address
  | _, _ => True

/-- A watcher delivers an account that its effect has not seen only if the service holds it. -/
def Keeps (s : Session) : Event → Prop
  | .watched i address _ => ∀ closure ∈ s.closures[i]?, address ≠ "" → some address ≠ closure.address →
    s.closed = false ∧ s.service.getConnectedAddress = some address
  | .resume i answer => ∀ task ∈ s.tasks[i]?, TaskKeeps s task answer
  | _ => True

variable {s s' : Session} {address : String} {service : WalletService}

/-! ### What the property depends on -/

theorem sound_congr (hwallet : s'.wallet.address = s.wallet.address)
    (hconnected : s'.wallet.isConnected = s.wallet.isConnected)
    (hservice : s'.service.connectedAddress = s.service.connectedAddress)
    (hclosed : s'.closed = s.closed) : Sound s' ↔ Sound s := by
  unfold Sound Coherent StaysClosed WalletService.getConnectedAddress
  rw [hwallet, hconnected, hservice, hclosed]

theorem sound_of_none (haddress : s.wallet.address = none) (hconnected : s.wallet.isConnected = false) :
    Sound s := by
  refine ⟨fun address h => ?_, fun _ => ⟨haddress, hconnected⟩⟩
  rw [haddress] at h
  cases h

/-- What it takes to show an address. -/
theorem sound_setConnected_iff :
    Sound (s.setConnected address) ↔
      s.closed = false ∧ s.service.getConnectedAddress = some address := by
  constructor
  · rintro ⟨hcoherent, hcloses⟩
    refine ⟨eq_false_of_ne_true fun hclosed => ?_, hcoherent address rfl⟩
    cases (hcloses hclosed).1
  · rintro ⟨hclosed, hservice⟩
    refine ⟨fun shown hshown => ?_, fun hclosed' => ?_⟩
    · obtain rfl := Option.some.inj hshown
      exact hservice
    · exact absurd (hclosed.symm.trans hclosed') Bool.false_ne_true

@[simp] theorem connectedAddress_saveAddress :
    (service.saveAddress address).connectedAddress = service.connectedAddress := by
  unfold WalletService.saveAddress
  split_ifs <;> rfl

@[simp] theorem connectedAddress_clearAddress :
    service.clearAddress.connectedAddress = service.connectedAddress := by
  unfold WalletService.clearAddress
  split_ifs <;> rfl

@[simp] theorem connectedAddress_adopt :
    (service.adopt address).connectedAddress = some address :=
  connectedAddress_saveAddress

/-- What `checkExistingConnection` does with the answer of `getAddress`. -/
theorem check_address (service : WalletService) (result : Except String AddressResult) :
    ∃ service', service.check .address (.address result) =
        some (.returns (obtained result), service') ∧
      service'.connectedAddress = (obtained result).or service.connectedAddress := by
  rcases result with message | result
  · exact ⟨_, rfl, connectedAddress_clearAddress⟩
  · unfold WalletService.check obtained
    dsimp only
    split_ifs
    · exact ⟨_, rfl, connectedAddress_clearAddress⟩
    · exact ⟨_, rfl, connectedAddress_adopt⟩

/-- Before that `checkExistingConnection` returns nothing, and leaves the connected address alone. -/
theorem check_before {stage : CheckStage} {answer : Answer} {next : CheckStep}
    (hstage : stage ≠ .address) (h : service.check stage answer = some (next, service')) :
    (∀ address, next ≠ .returns (some address)) ∧
      service'.connectedAddress = service.connectedAddress := by
  -- only the last of the three stages can return an address
  cases stage with
  | address => exact absurd rfl hstage
  | installed =>
    cases answer with
    | connected result =>
      unfold WalletService.check at h
      dsimp only at h
      split_ifs at h
      · split at h <;> obtain ⟨rfl, rfl⟩ := Prod.mk.inj (Option.some.inj h) <;> exact ⟨nofun, rfl⟩
      · obtain ⟨rfl, rfl⟩ := Prod.mk.inj (Option.some.inj h)
        exact ⟨nofun, rfl⟩
    | address result => cases h
    | balance result => cases h
  | connected =>
    cases answer with
    | connected result =>
      unfold WalletService.check at h
      dsimp only at h
      -- a lost permission clears the stored address, not the one connected
      split at h
      · obtain ⟨rfl, rfl⟩ := Prod.mk.inj (Option.some.inj h)
        exact ⟨nofun, connectedAddress_clearAddress⟩
      · split_ifs at h <;> obtain ⟨rfl, rfl⟩ := Prod.mk.inj (Option.some.inj h)
        · exact ⟨nofun, connectedAddress_clearAddress⟩
        · exact ⟨nofun, rfl⟩
    | address result => cases h
    | balance result => cases h

/-- What `connect` of the service does with the answer of `getAddress`. -/
theorem connected_spec (result : Except String AddressResult) :
    (∃ message, service.connected result = (.error message, service) ∧ obtained result = none) ∨
      ∃ address, service.connected result = (.ok address, service.adopt address) ∧
        obtained result = some address := by
  rcases result with message | ⟨address, _ | message⟩
  · exact .inl ⟨message, rfl, rfl⟩
  · by_cases haddress : address = ""
    · left
      unfold WalletService.connected obtained
      dsimp only
      rw [if_pos haddress]
      exact ⟨_, rfl, by simp [haddress]⟩
    · right
      unfold WalletService.connected obtained
      dsimp only
      rw [if_neg haddress]
      exact ⟨address, rfl, by simp [haddress]⟩
  · exact .inl ⟨message, rfl, rfl⟩

/-! ### Events -/

theorem sound_spawn_iff {task : Task} : Sound (s.spawn task) ↔ Sound s :=
  sound_congr rfl rfl rfl rfl

/-- The connected address of the service is what counts of it. -/
theorem sound_service_iff (hservice : service.connectedAddress = s.service.connectedAddress) :
    Sound { s with service } ↔ Sound s :=
  sound_congr rfl rfl hservice rfl

theorem sound_disconnect : Sound s.disconnect := sound_of_none rfl rfl

theorem sound_connect (hs : Sound s) : Sound s.connect := by
  refine ⟨hs.1, fun hclosed => ?_⟩
  cases hclosed

theorem sound_balanceFetched_iff {result : Except String String} :
    Sound (s.balanceFetched result) ↔ Sound s := by
  cases result <;> exact sound_congr rfl rfl rfl rfl

theorem sound_networkChanged_iff {isConnected : Bool} :
    Sound (s.networkChanged isConnected) ↔ Sound s := by
  unfold Session.networkChanged
  dsimp only
  split_ifs
  · exact sound_congr rfl rfl rfl rfl
  · rfl

/-- A watcher's news are sound exactly when the service holds the new address. -/
theorem sound_watched_iff (hs : Sound s) {closure : Closure} {network : String} :
    Sound (s.watched closure address network) ↔
      (address ≠ "" → some address ≠ closure.address →
        s.closed = false ∧ s.service.getConnectedAddress = some address) := by
  unfold Session.watched
  dsimp only
  rw [sound_networkChanged_iff]
  split_ifs with hnew
  · rw [sound_spawn_iff, sound_setConnected_iff]
    exact ⟨fun h _ _ => h, fun h => h hnew.1 hnew.2⟩
  · exact iff_of_true hs fun hnonempty hother => absurd ⟨hnonempty, hother⟩ hnew

/-- `connect` obtains an address, or it does not. -/
theorem sound_connectSettled_iff {result : Except String AddressResult} :
    Sound (s.connectSettled (s.service.connected result)) ↔
      ((obtained result).isSome → s.closed = false) := by
  rcases connected_spec result with ⟨message, hconnected, hnone⟩ | ⟨address, hconnected, hsome⟩
  · rw [hconnected, hnone]
    exact iff_of_true (sound_of_none rfl rfl) nofun
  · rw [hconnected, hsome]
    unfold Session.connectSettled
    rw [sound_spawn_iff, sound_setConnected_iff]
    exact ⟨fun h _ => h.1, fun h => ⟨h rfl, connectedAddress_adopt⟩⟩

/-- `initWallet` gets the connected account, or none. -/
theorem sound_initReturned_iff (hs : Sound s) {found : Option String}
    (hservice : service.connectedAddress = found.or s.service.connectedAddress) :
    Sound ({ s with service }.initReturned found) ↔ (found.isSome → s.closed = false) := by
  rcases found with _ | address
  · exact iff_of_true ((sound_service_iff hservice).mpr hs) nofun
  · unfold Session.initReturned
    rw [sound_spawn_iff, sound_setConnected_iff]
    exact ⟨fun h _ => h.1, fun h => ⟨h rfl, hservice⟩⟩

/-- A handler of the fallback gets the connected account, or none. -/
theorem sound_accountReturned_iff (hs : Sound s) {closure : Closure} {found : Option String}
    (hservice : service.connectedAddress = found.or s.service.connectedAddress) :
    Sound ({ s with service }.accountReturned closure found) ↔ ∀ address ∈ found,
      if some address ≠ closure.address then s.closed = false
      else ∀ shown ∈ s.wallet.address, shown = address := by
  rcases found with _ | address
  · refine iff_of_true ?_ nofun
    unfold Session.accountReturned
    dsimp only
    split_ifs
    · exact sound_disconnect
    · exact (sound_service_iff hservice).mpr hs
  · unfold Session.accountReturned
    dsimp only
    constructor
    · intro hsound address' haddress'
      obtain rfl := Option.some.inj haddress'
      split_ifs at hsound ⊢ with hseen
      · rw [sound_spawn_iff, sound_setConnected_iff] at hsound
        exact hsound.1
      · intro shown hshown
        -- the service has taken over the address that the effect has seen
        have hheld := hsound.1 shown hshown
        exact (Option.some.inj (hservice.symm.trans hheld)).symm
    · intro hkeeps
      have hkept := hkeeps address rfl
      split_ifs at hkept ⊢ with hseen
      · rw [sound_spawn_iff, sound_setConnected_iff]
        exact ⟨hkept, hservice⟩
      · refine ⟨fun shown hshown => ?_, hs.2⟩
        rw [hkept shown hshown]
        exact hservice

/-- Before `getAddress` answers, `initWallet` changes nothing that counts. -/
theorem sound_initCheck (hs : Sound s) (stage : CheckStage) (hstage : stage ≠ .address)
    (answer : Answer) : Sound ((s.resume (.initCheck stage) answer).getD s) := by
  rcases hcheck : s.service.check stage answer with _ | ⟨next | found, service⟩
  · simp only [Session.resume, hcheck, Option.getD_none]
    exact hs
  · obtain ⟨-, hservice⟩ := check_before hstage hcheck
    simp only [Session.resume, hcheck, Option.getD_some]
    exact sound_spawn_iff.mpr ((sound_service_iff hservice).mpr hs)
  · obtain ⟨hreturns, hservice⟩ := check_before hstage hcheck
    simp only [Session.resume, hcheck, Option.getD_some]
    rcases found with _ | address
    · exact (sound_service_iff hservice).mpr hs
    · exact absurd rfl (hreturns address)

/-- Before `getAddress` answers, a handler of the fallback at most disconnects. -/
theorem sound_accountCheck (hs : Sound s) {closure : Closure} (stage : CheckStage)
    (hstage : stage ≠ .address) (answer : Answer) :
    Sound ((s.resume (.accountChanged closure stage) answer).getD s) := by
  rcases hcheck : s.service.check stage answer with _ | ⟨next | found, service⟩
  · simp only [Session.resume, hcheck, Option.getD_none]
    exact hs
  · obtain ⟨-, hservice⟩ := check_before hstage hcheck
    simp only [Session.resume, hcheck, Option.getD_some]
    exact sound_spawn_iff.mpr ((sound_service_iff hservice).mpr hs)
  · obtain ⟨hreturns, hservice⟩ := check_before hstage hcheck
    simp only [Session.resume, hcheck, Option.getD_some]
    rcases found with _ | address
    · exact (sound_accountReturned_iff hs hservice).mpr nofun
    · exact absurd rfl (hreturns address)

/-- **The answers that keep the session sound.** -/
theorem sound_resume_iff (hs : Sound s) (task : Task) (answer : Answer) :
    Sound ((s.resume task answer).getD s) ↔ TaskKeeps s task answer := by
  -- an answer of the wrong kind is no answer to the task
  cases task with
  | connectInstalled =>
    cases answer with
    | connected result =>
      refine iff_of_true ?_ trivial
      show Sound (if _ then _ else _)
      split_ifs
      · exact sound_spawn_iff.mpr hs
      · exact sound_of_none rfl rfl
    | address result => exact iff_of_true hs trivial
    | balance result => exact iff_of_true hs trivial
  | connectAddress =>
    cases answer with
    | connected result => exact iff_of_true hs trivial
    | address result => exact sound_connectSettled_iff
    | balance result => exact iff_of_true hs trivial
  | connectBalance =>
    cases answer with
    | connected result => exact iff_of_true hs trivial
    | address result => exact iff_of_true hs trivial
    -- the balance that comes with a connection says nothing about the account
    | balance result =>
      refine iff_of_true ?_ trivial
      have hfetched : Sound (s.balanceFetched result) := sound_balanceFetched_iff.mpr hs
      exact (sound_congr rfl rfl rfl rfl).mpr hfetched
  | initInstalled =>
    cases answer with
    | connected result =>
      refine iff_of_true ?_ trivial
      have hinstalled : Sound { s with isInstalled := WalletService.isInstalled result } :=
        (sound_congr rfl rfl rfl rfl).mpr hs
      show Sound (if _ then _ else _)
      split_ifs
      · exact sound_spawn_iff.mpr hinstalled
      · exact hinstalled
    | address result => exact iff_of_true hs trivial
    | balance result => exact iff_of_true hs trivial
  | initCheck stage =>
    cases stage with
    | address =>
      cases answer with
      | connected result => exact iff_of_true hs trivial
      -- here the extension names the account, and the condition is about that name
      | address result =>
        obtain ⟨service, hcheck, hservice⟩ := check_address s.service result
        simp only [Session.resume, hcheck, Option.getD_some]
        exact sound_initReturned_iff hs hservice
      | balance result => exact iff_of_true hs trivial
    | installed =>
      have hbefore := sound_initCheck hs .installed nofun answer
      cases answer <;> exact iff_of_true hbefore trivial
    | connected =>
      have hbefore := sound_initCheck hs .connected nofun answer
      cases answer <;> exact iff_of_true hbefore trivial
  | accountChanged closure stage =>
    cases stage with
    | address =>
      cases answer with
      | connected result => exact iff_of_true hs trivial
      | address result =>
        obtain ⟨service, hcheck, hservice⟩ := check_address s.service result
        simp only [Session.resume, hcheck, Option.getD_some]
        exact sound_accountReturned_iff hs hservice
      | balance result => exact iff_of_true hs trivial
    | installed =>
      have hbefore : Sound ((s.resume (.accountChanged closure .installed) answer).getD s) :=
        sound_accountCheck hs .installed nofun answer
      cases answer <;> exact iff_of_true hbefore trivial
    | connected =>
      have hbefore : Sound ((s.resume (.accountChanged closure .connected) answer).getD s) :=
        sound_accountCheck hs .connected nofun answer
      cases answer <;> exact iff_of_true hbefore trivial
  | fetchBalance =>
    cases answer with
    | connected result => exact iff_of_true hs trivial
    | address result => exact iff_of_true hs trivial
    | balance result => exact iff_of_true (sound_balanceFetched_iff.mpr hs) trivial

/-- **The events that keep the session sound.** -/
theorem sound_handle_iff (hs : Sound s) (e : Event) : Sound (s.handle e) ↔ Keeps s e := by
  cases e with
  | connect => exact iff_of_true (sound_connect hs) trivial
  | disconnect => exact iff_of_true sound_disconnect trivial
  | reload => exact iff_of_true (sound_of_none rfl rfl) trivial
  | switchNetwork => exact iff_of_true (sound_spawn_iff.mpr hs) trivial
  | refreshBalance =>
    refine iff_of_true ?_ trivial
    unfold Session.handle
    dsimp only
    split_ifs
    · exact sound_spawn_iff.mpr hs
    · exact hs
  -- the report goes to the closure that registered it
  | watched i address network =>
    unfold Session.handle Keeps
    dsimp only
    rcases hclosure : s.closures[i]? with _ | closure
    · exact iff_of_true hs nofun
    · rw [sound_watched_iff hs]
      constructor
      · intro hkeeps other hother
        obtain rfl := Option.some.inj hother
        exact hkeeps
      · exact fun hkeeps => hkeeps closure rfl
  | accountChanged =>
    refine iff_of_true ?_ trivial
    unfold Session.handle
    dsimp only
    split_ifs
    · exact sound_spawn_iff.mpr hs
    · exact hs
  | networkChanged =>
    refine iff_of_true ?_ trivial
    unfold Session.handle
    dsimp only
    split_ifs
    · exact sound_networkChanged_iff.mpr hs
    · exact hs
  | resume i answer =>
    unfold Session.handle Keeps
    dsimp only
    rcases htask : s.tasks[i]? with _ | task
    · exact iff_of_true hs nofun
    · -- the task is taken off before it is resumed
      have hwaiting : Sound { s with tasks := s.tasks.eraseIdx i } :=
        (sound_congr rfl rfl rfl rfl).mpr hs
      have hresume := sound_resume_iff hwaiting task answer
      have hkeeps : TaskKeeps { s with tasks := s.tasks.eraseIdx i } task answer ↔
          ∀ other ∈ some task, TaskKeeps s other answer := by
        constructor
        · intro hkept other hother
          obtain rfl := Option.some.inj hother
          exact hkept
        · exact fun hkept => hkept task rfl
      rw [← hkeeps, ← hresume]
      show Sound ((Session.resume { s with tasks := s.tasks.eraseIdx i } task answer).getD s) ↔ _
      rcases Session.resume { s with tasks := s.tasks.eraseIdx i } task answer with _ | resumed
      · exact iff_of_true hs hwaiting
      · rfl

theorem sound_step_iff (hs : Sound s) (e : Event) : Sound (s.step e) ↔ Keeps s e := by
  rw [← sound_handle_iff hs e]
  unfold Session.step Session.render
  split_ifs
  · exact sound_congr rfl rfl rfl rfl
  · rfl

/-! ### Runs -/

/-- **The runs in which the session is sound throughout**, from a fresh page. -/
theorem throughout_sound_iff (storage : Bool) (savedAddress : Option String) (watches : Bool)
    (events : List Event) :
    Throughout step Sound (mounted storage savedAddress watches) events ↔
      Kept step Keeps (mounted storage savedAddress watches) events :=
  throughout_iff_kept (I := fun _ => True) (fun h => h) (fun _ hs => sound_step_iff hs _) trivial
    (sound_of_none rfl rfl)

/-! ### An account switch -/

/-- `GA` is connected, and then `GB` is selected in Freighter. -/
def accountSwitch : List Event := [
  .connect, .resume 1 (.connected (.ok ⟨true, none⟩)), .resume 1 (.address (.ok ⟨"GA", none⟩)),
  .watched 0 "GB" "TESTNET"]

/-- The page keeps the wallet that it had when another one is selected. -/
theorem not_sound_accountSwitch : ¬ Throughout step Sound (mounted true none true) accountSwitch := by
  intro hsound
  exact absurd hsound.last (by decide)

end StellarForge.Frontend.Wallet
