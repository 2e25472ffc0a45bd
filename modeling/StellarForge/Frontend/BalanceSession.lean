import Mathlib.Data.List.InsertIdx
import StellarForge.Frontend.Wallet
import StellarForge.Transition.Throughout

/-!
# Whose balance is on display

`WalletProvider` asks for a balance when `connect`, `initWallet` or a watcher has obtained an address,
when the address or the network has changed, and on request.  The answer goes into whatever state there
is when it arrives.  A `Provider` is a session of the wallet in which every task knows the network of
the `fetchBalance` that it holds and, while it waits for a balance, the account that it has asked for.

* `erase_handle`: without that it is the session of the wallet;
* **`throughout_right_iff`**: the runs in which the balance is that of the account on display, and in the
  end on the network on display;
* `not_right_disconnected`: a balance arrives after `disconnect`.
-/

namespace StellarForge.Frontend.Balance

open Wallet
open Transition (Throughout Kept throughout_iff_kept)

/-! ### Tasks with their requests -/

/-- The task waits for a balance. -/
def isFetch : Task → Bool
  | .connectBalance | .fetchBalance => true
  | _ => false

/-- A balance has arrived. -/
def arrived : Answer → Bool
  | .balance (.ok _) => true
  | _ => false

/-- The network of the `fetchBalance` that a function holds, and the account on display since it waits:
that is the one whose balance it waits for. -/
structure Tag where
  network : String
  address : Option String
  deriving DecidableEq, Repr

/-- The state of `WalletProvider`.  The tasks and the closures of `session` are kept in the lists
here, with the networks. -/
structure Provider where
  session : Session
  network : String
  tasks : List (Task × Tag) := []
  closures : List (Closure × String) := []
  /-- The request that the balance on display has answered. -/
  origin : Option Tag := none

namespace Provider

variable (s : Provider)

/-- The session goes on; the tasks that it starts hold the `fetchBalance` of the network. -/
def absorb (session : Session) (network : String) : Provider :=
  { s with
    session := { session with tasks := [] }
    tasks := s.tasks ++ session.tasks.map fun task => (task, ⟨network, session.wallet.address⟩)
    origin := if session.wallet.balance = none then none else s.origin }

/-- The watcher starts with what there is to see. -/
def watch : Provider :=
  if s.session.isInstalled && s.session.watches then
    { s with
      closures := (⟨s.session.wallet.address, s.session.wallet.isConnected⟩, s.network) :: s.closures }
  else s

/-- `WalletProvider` is mounted on a fresh page. -/
def mounted (storage : Bool) (savedAddress : Option String) (watches : Bool) (network : String) :
    Provider :=
  let session := Session.mounted storage savedAddress watches
  ({ session := { session with tasks := [], closures := [] }, network : Provider }.absorb
    { session with closures := [] } network).watch

/-- `fetchBalance(wallet.address)`, if there is an address. -/
def refreshBalance : Provider :=
  if s.session.wallet.isConnected then s.absorb (s.session.spawn .fetchBalance) s.network else s

/-- A task gets its answer. -/
def resume (i : ℕ) (answer : Answer) : Provider :=
  match s.tasks[i]? with
  | none => s
  | some (task, tag) =>
    match s.session.resume task answer with
    | none => s
    | some session =>
      let origin := if isFetch task && arrived answer then some tag else s.origin
      { s with tasks := s.tasks.eraseIdx i, origin }.absorb session tag.network

end Provider

/-- What may happen to the page of a wallet. -/
inductive Event
  | connect
  | disconnect
  | reload
  | switchNetwork (network : String)
  | refreshBalance
  /-- The watcher that has started with a closure calls back. -/
  | watched (index : ℕ) (address network : String)
  /-- The events of the fallback. -/
  | accountChanged
  | networkChanged
  /-- What a task waits for is there. -/
  | resume (index : ℕ) (answer : Answer)

namespace Provider

variable (s : Provider)

/-- One event, without the effects after it. -/
def handle : Event → Provider
  | .connect => s.absorb s.session.connect s.network
  | .disconnect => s.absorb s.session.disconnect s.network
  | .reload =>
    mounted s.session.service.storage s.session.service.savedAddress s.session.watches s.network
  | .switchNetwork network =>
    -- choosing the network already chosen does nothing
    if network = s.network then s
    else { s with network }.absorb (s.session.spawn .initInstalled) network
  | .refreshBalance => s.refreshBalance
  | .watched i address network =>
    match s.closures[i]? with
    | some (closure, fetches) => s.absorb (s.session.watched closure address network) fetches
    | none => s
  | .accountChanged =>
    -- the events of the extension are listened to only where there is no watcher
    if s.session.isInstalled && !s.session.watches then
      s.absorb (s.session.spawn (.accountChanged
        ⟨s.session.wallet.address, s.session.wallet.isConnected⟩ .installed)) s.network
    else s
  | .networkChanged =>
    if s.session.isInstalled && !s.session.watches then
      s.absorb (s.session.networkChanged s.session.wallet.isConnected) s.network
    else s
  | .resume i answer => s.resume i answer

/-- What the effect that fetches the balance depends on. -/
def dependencies : String × Bool × Option String :=
  (s.network, s.session.wallet.isConnected, s.session.wallet.address)

/-- One event, with the refresh that a change of the wallet calls for, and the watcher after it. -/
def step (e : Event) : Provider :=
  let s' := s.handle e
  (if s'.dependencies = s.dependencies then s' else s'.refreshBalance).watch

end Provider

/-! ### The property and the condition -/

/-- A task waits for a balance. -/
def Awaits (tasks : List (Task × Tag)) : Prop := ∃ task ∈ tasks, isFetch task.1 = true

instance {tasks : List (Task × Tag)} : Decidable (Awaits tasks) :=
  inferInstanceAs (Decidable (∃ task ∈ tasks, _))

/-- The balance on display is that of the account on display; and when no request is on its way, it is
the one on the network on display. -/
structure Right (s : Provider) : Prop where
  account : s.session.wallet.balance.isSome → ∃ tag ∈ s.origin, ∃ address ∈ tag.address,
    s.session.wallet.address = some address
  network : ¬ Awaits s.tasks → s.session.wallet.balance.isSome →
    ∃ tag ∈ s.origin, tag.network = s.network

/-- A balance that arrives is that of the account on display; and the last answer leaves a balance of
the network on display, or none. -/
def AnswerKeeps (s : Provider) (tag : Tag) (others : List (Task × Tag)) : Except String String → Prop
  | .ok _ => (∃ address ∈ tag.address, s.session.wallet.address = some address) ∧
    (Awaits others ∨ tag.network = s.network)
  | .error _ => Awaits others ∨ (s.session.wallet.balance.isSome →
    ∃ shown ∈ s.origin, shown.network = s.network)

/-- The answers to the requests keep to the condition. -/
def Keeps (s : Provider) : Event → Prop
  | .resume i (.balance result) => ∀ task ∈ s.tasks[i]?, isFetch task.1 = true →
    AnswerKeeps s task.2 (s.tasks.eraseIdx i) result
  | _ => True

/-! ### What a session does to its wallet -/

section

variable {s s' : Session} {task : Task} {answer : Answer}

/-- A wallet that is connected has an address, and no other one has. -/
def Coupled (wallet : WalletState) : Prop := wallet.isConnected = wallet.address.isSome

/-- The session has obtained an address, or has none: there is no balance. -/
def Cleared (s : Session) : Prop := s.wallet.balance = none ∧ Coupled s.wallet

/-- The watcher leaves the wallet as it is, or clears it. -/
theorem watched_cases (closure : Closure) (address network : String) :
    (s.watched closure address network).wallet = s.wallet ∨
      Cleared (s.watched closure address network) := by
  unfold Session.watched Session.networkChanged
  dsimp only
  split_ifs
  · exact .inr ⟨rfl, rfl⟩
  · exact .inl rfl
  · exact .inr ⟨rfl, rfl⟩
  · exact .inl rfl

/-- **What an answer does to the wallet.** -/
theorem resume_cases (h : s.resume task answer = some s') :
    (isFetch task = true ∧ ∃ result, answer = .balance result ∧
      s'.wallet = (s.balanceFetched result).wallet ∧ s'.tasks = s.tasks) ∨
    (isFetch task = false ∧ (s'.wallet = s.wallet ∨ Cleared s')) := by
  -- a case a task: the two that fetch a balance, and five that may only clear it
  cases task with
  | connectInstalled =>
    right
    cases answer with
    | connected result =>
      obtain rfl := Option.some.inj h
      refine ⟨rfl, ?_⟩
      split_ifs
      · exact .inl rfl
      · exact .inr ⟨rfl, rfl⟩
    | address result => cases h
    | balance result => cases h
  | connectAddress =>
    right
    cases answer with
    | connected result => cases h
    | address result =>
      obtain rfl := Option.some.inj h
      refine ⟨rfl, .inr ?_⟩
      unfold Session.connectSettled
      split <;> exact ⟨rfl, rfl⟩
    | balance result => cases h
  | connectBalance =>
    left
    cases answer with
    | connected result => cases h
    | address result => cases h
    | balance result =>
      obtain rfl := Option.some.inj h
      refine ⟨rfl, result, rfl, rfl, ?_⟩
      cases result <;> rfl
  | initInstalled =>
    right
    cases answer with
    | connected result =>
      obtain rfl := Option.some.inj h
      refine ⟨rfl, .inl ?_⟩
      split_ifs <;> rfl
    | address result => cases h
    | balance result => cases h
  -- the start-up check either does not find the wallet or sets it without a balance
  | initCheck stage =>
    right
    refine ⟨rfl, ?_⟩
    unfold Session.resume at h
    dsimp only at h
    split at h
    · cases h
    · obtain rfl := Option.some.inj h
      exact .inl rfl
    · next address service hcheck =>
      obtain rfl := Option.some.inj h
      cases address with
      | none => exact .inl rfl
      | some address => exact .inr ⟨rfl, rfl⟩
  -- another account clears the balance, the same account leaves all as it is
  | accountChanged closure stage =>
    right
    refine ⟨rfl, ?_⟩
    unfold Session.resume at h
    dsimp only at h
    split at h
    · cases h
    · obtain rfl := Option.some.inj h
      exact .inl rfl
    · next address service hcheck =>
      obtain rfl := Option.some.inj h
      unfold Session.accountReturned
      cases address with
      | none =>
        dsimp only
        split_ifs
        · exact .inr ⟨rfl, rfl⟩
        · exact .inl rfl
      | some address =>
        dsimp only
        split_ifs
        · exact .inr ⟨rfl, rfl⟩
        · exact .inl rfl
  | fetchBalance =>
    left
    cases answer with
    | connected result => cases h
    | address result => cases h
    | balance result =>
      obtain rfl := Option.some.inj h
      refine ⟨rfl, result, rfl, rfl, ?_⟩
      cases result <;> rfl

end

/-! ### The session without the requests -/

section

variable (rest : List Task) (closures : List Closure)

/-- The session beside other tasks. -/
def within (s : Session) : Session := { s with tasks := rest ++ s.tasks, closures }

variable (s : Session)

theorem within_spawn (task : Task) :
    (within rest closures s).spawn task = within rest closures (s.spawn task) := by
  unfold Session.spawn within
  dsimp only
  rw [List.append_assoc]

theorem within_networkChanged (isConnected : Bool) :
    (within rest closures s).networkChanged isConnected =
      within rest closures (s.networkChanged isConnected) := by
  unfold Session.networkChanged
  dsimp only
  split_ifs <;> rfl

theorem within_watched (closure : Closure) (address network : String) :
    (within rest closures s).watched closure address network =
      within rest closures (s.watched closure address network) := by
  unfold Session.watched
  dsimp only
  rw [← within_networkChanged]
  split_ifs
  · rw [← within_spawn]
    rfl
  · rfl

/-- Other tasks do not change what an answer does to its own. -/
theorem within_resume (task : Task) (answer : Answer) :
    (within rest closures s).resume task answer =
      (s.resume task answer).map (within rest closures) := by
  have hservice : (within rest closures s).service = s.service := rfl
  -- in every task the session goes on in the same way; only the lists around it differ
  cases task with
  | connectInstalled =>
    cases answer with
    | connected result =>
      show some (if _ then _ else _) = some (within rest closures (if _ then _ else _))
      split_ifs
      · rw [within_spawn]
      · rfl
    | address result => rfl
    | balance result => rfl
  | connectAddress =>
    cases answer with
    | connected result => rfl
    | address result =>
      show some _ = some (within rest closures _)
      unfold Session.connectSettled
      rw [hservice]
      split
      · rw [← within_spawn]
        rfl
      · rfl
    | balance result => rfl
  | connectBalance =>
    cases answer with
    | connected result => rfl
    | address result => rfl
    | balance result => cases result <;> rfl
  | initInstalled =>
    cases answer with
    | connected result =>
      show some (if _ then _ else _) = some (within rest closures (if _ then _ else _))
      split_ifs
      · rw [← within_spawn]
        rfl
      · rfl
    | address result => rfl
    | balance result => rfl
  -- the checks are loops of their own, which see the service and nothing of the lists
  | initCheck stage =>
    unfold Session.resume
    dsimp only
    rw [hservice]
    split
    · rfl
    · rw [Option.map_some, ← within_spawn]
      rfl
    · next address service hcheck =>
      cases address with
      | none => rfl
      | some address =>
        unfold Session.initReturned
        rw [Option.map_some, ← within_spawn]
        rfl
  | accountChanged closure stage =>
    unfold Session.resume
    dsimp only
    rw [hservice]
    split
    · rfl
    · rw [Option.map_some, ← within_spawn]
      rfl
    · next address service hcheck =>
      unfold Session.accountReturned
      cases address with
      | none =>
        dsimp only
        split_ifs <;> rfl
      | some address =>
        dsimp only
        split_ifs
        · rw [Option.map_some, ← within_spawn]
          rfl
        · rfl
  | fetchBalance =>
    cases answer with
    | connected result => rfl
    | address result => rfl
    | balance result => cases result <;> rfl

end

/-- The session of the wallet, without the networks and the requests. -/
def Provider.erase (s : Provider) : Session :=
  within (s.tasks.map Prod.fst) (s.closures.map Prod.fst) s.session

/-- The event of the session. -/
def Event.session : Event → Wallet.Event
  | .connect => .connect
  | .disconnect => .disconnect
  | .reload => .reload
  | .switchNetwork _ => .switchNetwork
  | .refreshBalance => .refreshBalance
  | .watched i address network => .watched i address network
  | .accountChanged => .accountChanged
  | .networkChanged => .networkChanged
  | .resume i answer => .resume i answer

theorem erase_absorb (s : Provider) (session : Session) (network : String) :
    (s.absorb session network).erase =
      within (s.tasks.map Prod.fst) (s.closures.map Prod.fst) session := by
  unfold Provider.erase Provider.absorb within
  dsimp only
  rw [List.map_append, List.map_map, List.append_nil]
  congr 2
  exact List.map_id _

theorem erase_refreshBalance (s : Provider) :
    s.refreshBalance.erase = s.erase.handle .refreshBalance := by
  show _ = if s.session.wallet.isConnected then s.erase.spawn .fetchBalance else s.erase
  unfold Provider.refreshBalance
  split_ifs
  · rw [erase_absorb]
    exact (within_spawn ..).symm
  · rfl

/-- Without the balance, a resumed task is one of the session. -/
theorem erase_resume {s : Provider} (htasks : s.session.tasks = []) (i : ℕ) (answer : Answer) :
    (s.resume i answer).erase = s.erase.handle (.resume i answer) := by
  -- without tasks of its own the session has those of the provider
  have hlist : s.erase.tasks = s.tasks.map Prod.fst := by
    unfold Provider.erase within
    dsimp only
    rw [htasks, List.append_nil]
  have hwaiting : { s.erase with tasks := (s.tasks.map Prod.fst).eraseIdx i } =
      within ((s.tasks.map Prod.fst).eraseIdx i) (s.closures.map Prod.fst) s.session := by
    unfold Provider.erase within
    dsimp only
    rw [htasks, List.append_nil]
  unfold Session.handle
  dsimp only
  rw [hlist, List.getElem?_map, hwaiting]
  unfold Provider.resume
  cases s.tasks[i]? with
  | none => rfl
  | some entry =>
    obtain ⟨task, tag⟩ := entry
    -- the answer goes to a session that has the same wallet and other lists
    show _ = Option.getD ((within _ _ s.session).resume task answer) s.erase
    rw [within_resume]
    dsimp only
    cases s.session.resume task answer with
    | none => rfl
    | some session =>
      dsimp only
      rw [erase_absorb, List.eraseIdx_map]
      rfl

/-- **Without the networks and the requests a provider is a session of the wallet.** -/
theorem erase_handle {s : Provider} (htasks : s.session.tasks = []) {e : Event}
    (he : e ≠ .switchNetwork s.network) : (s.handle e).erase = s.erase.handle e.session := by
  -- the session's event carries no network, so the switch to the same one is excluded
  cases e with
  | connect =>
    refine (erase_absorb ..).trans ?_
    exact (within_spawn ..).symm
  | disconnect => exact erase_absorb ..
  | reload =>
    show Provider.erase (.mounted _ _ s.session.watches _) = Session.mounted _ _ s.session.watches
    cases s.session.watches <;> rfl
  | switchNetwork network =>
    have hother : network ≠ s.network := fun h => he (by rw [h])
    unfold Provider.handle
    dsimp only
    rw [if_neg hother, erase_absorb]
    exact (within_spawn ..).symm
  | refreshBalance => exact erase_refreshBalance s
  | watched i address network =>
    have hclosure : s.erase.closures[i]? = s.closures[i]?.map Prod.fst := List.getElem?_map ..
    unfold Provider.handle Event.session Session.handle
    dsimp only
    rw [hclosure]
    cases s.closures[i]? with
    | none => rfl
    | some entry =>
      obtain ⟨closure, fetches⟩ := entry
      dsimp only
      rw [erase_absorb]
      exact (within_watched ..).symm
  | accountChanged =>
    show _ = if s.session.isInstalled && !s.session.watches then s.erase.spawn _ else s.erase
    unfold Provider.handle
    dsimp only
    split_ifs
    · rw [erase_absorb]
      exact (within_spawn ..).symm
    · rfl
  | networkChanged =>
    show _ = if s.session.isInstalled && !s.session.watches then s.erase.networkChanged _ else s.erase
    unfold Provider.handle
    dsimp only
    split_ifs
    · rw [erase_absorb]
      exact (within_networkChanged ..).symm
    · rfl
  | resume i answer => exact erase_resume htasks i answer

/-! ### The invariant -/

/-- What holds in every run. -/
structure Held (s : Provider) : Prop where
  coupled : Coupled s.session.wallet
  tasks : s.session.tasks = []

variable {s s' : Provider} {session : Session} {network : String} {e : Event}

theorem Held.absorb (h : Held s) (hwallet : session.wallet = s.session.wallet ∨ Cleared session) :
    Held (s.absorb session network) := by
  refine ⟨?_, rfl⟩
  rcases hwallet with hsame | hcleared
  · show Coupled session.wallet
    rw [hsame]
    exact h.coupled
  · exact hcleared.2

theorem Held.watch (h : Held s) : Held s.watch := by
  unfold Provider.watch
  split_ifs
  · exact ⟨h.coupled, h.tasks⟩
  · exact h

theorem Held.refreshBalance (h : Held s) : Held s.refreshBalance := by
  unfold Provider.refreshBalance
  split_ifs
  · exact h.absorb (.inl rfl)
  · exact h

theorem held_mounted {storage : Bool} {savedAddress : Option String} {watches : Bool} :
    Held (Provider.mounted storage savedAddress watches network) :=
  Held.watch ⟨rfl, rfl⟩

/-- Every event leaves the wallet of the session alone or clears it, but for the balances that
arrive. -/
theorem networkChanged_wallet {isConnected : Bool} :
    (session.networkChanged isConnected).wallet = session.wallet := by
  unfold Session.networkChanged
  dsimp only
  split_ifs <;> rfl

theorem Held.resume (h : Held s) (i : ℕ) (answer : Answer) : Held (s.resume i answer) := by
  unfold Provider.resume
  split
  · exact h
  · next task tag htask =>
    split
    · exact h
    · next session hsession =>
      refine ⟨?_, rfl⟩
      show Coupled session.wallet
      rcases resume_cases hsession with ⟨-, result, -, hwallet, -⟩ | ⟨-, hwallet | hcleared⟩
      · rw [hwallet]
        cases result <;> exact h.coupled
      · rw [hwallet]
        exact h.coupled
      · exact hcleared.2

/-- The invariant holds after every event. -/
theorem Held.handle (h : Held s) : Held (s.handle e) := by
  unfold Provider.handle
  -- a handler keeps the wallet or clears its balance, and either way keeps what is held
  cases e with
  | connect => exact h.absorb (.inl rfl)
  | disconnect => exact h.absorb (.inr ⟨rfl, rfl⟩)
  | reload => exact held_mounted
  | switchNetwork network =>
    dsimp only
    split_ifs
    · exact h
    · have hswitched : Held { s with network } := ⟨h.coupled, h.tasks⟩
      exact hswitched.absorb (.inl rfl)
  | refreshBalance => exact h.refreshBalance
  | watched i address network =>
    dsimp only
    split
    · exact h.absorb (watched_cases _ _ _)
    · exact h
  | accountChanged =>
    dsimp only
    split_ifs
    · exact h.absorb (.inl rfl)
    · exact h
  | networkChanged =>
    dsimp only
    split_ifs
    · exact h.absorb (.inl networkChanged_wallet)
    · exact h
  | resume i answer => exact h.resume i answer

theorem Held.step (h : Held s) : Held (s.step e) := by
  unfold Provider.step
  dsimp only
  split_ifs
  · exact h.handle.watch
  · exact h.handle.refreshBalance.watch

/-! ### The steps that keep the property -/

/-- A wallet without a balance shows nothing wrong. -/
theorem right_of_none (h : s.session.wallet.balance = none) : Right s := by
  constructor
  · intro hsome
    rw [h] at hsome
    cases hsome
  · intro _ hsome
    rw [h] at hsome
    cases hsome

/-- More requests are on their way. -/
theorem Right.mono (h : Right s) (hwallet : s'.session.wallet = s.session.wallet)
    (horigin : s'.origin = s.origin) (hnetwork : s'.network = s.network)
    (hawaits : Awaits s.tasks → Awaits s'.tasks) : Right s' := by
  constructor
  · rw [hwallet, horigin]
    exact h.account
  · intro hnone
    rw [hwallet, horigin, hnetwork]
    exact h.network (mt hawaits hnone)

theorem Awaits.absorb (h : Awaits s.tasks) : Awaits (s.absorb session network).tasks := by
  obtain ⟨task, htask, hfetch⟩ := h
  exact ⟨task, List.mem_append_left _ htask, hfetch⟩

theorem Right.absorb (h : Right s) (hwallet : session.wallet = s.session.wallet ∨ Cleared session) :
    Right (s.absorb session network) := by
  rcases hwallet with hsame | hcleared
  · by_cases hnone : session.wallet.balance = none
    · exact right_of_none hnone
    · refine h.mono hsame ?_ rfl Awaits.absorb
      unfold Provider.absorb
      exact if_neg hnone
  · exact right_of_none hcleared.1

theorem Right.watch (h : Right s) : Right s.watch := by
  unfold Provider.watch
  split_ifs
  · exact h.mono rfl rfl rfl id
  · exact h

/-- The watcher changes nothing that is shown. -/
theorem right_watch_iff : Right s.watch ↔ Right s := by
  constructor
  · intro h
    unfold Provider.watch at h
    split_ifs at h
    · exact h.mono rfl rfl rfl id
    · exact h
  · exact Right.watch

theorem Right.refreshBalance (h : Right s) : Right s.refreshBalance := by
  unfold Provider.refreshBalance
  split_ifs
  · exact h.absorb (.inl rfl)
  · exact h

/-- The effects after an event. -/
theorem Right.effects (h : Right s') :
    Right (if s'.dependencies = s.dependencies then s' else s'.refreshBalance).watch := by
  split_ifs
  · exact h.watch
  · exact h.refreshBalance.watch

/-- **The network is switched**: the effect asks for the balance again. -/
theorem Right.switchNetwork (hs : Held s) (h : Right s) (network : String) :
    Right (s.step (.switchNetwork network)) := by
  unfold Provider.step Provider.handle
  dsimp only
  by_cases hsame : network = s.network
  · rw [if_pos hsame, if_pos rfl]
    exact h.watch
  · rw [if_neg hsame]
    have hchanged : ({ s with network }.absorb (s.session.spawn .initInstalled) network).dependencies ≠
        s.dependencies := fun heq => hsame (Prod.mk.inj heq).1
    rw [if_neg hchanged]
    apply Right.watch
    unfold Provider.refreshBalance
    split_ifs with hconnected
    · -- the request of the effect is on its way
      constructor
      · intro hsome
        have hbalance : s.session.wallet.balance ≠ none := Option.isSome_iff_ne_none.mp hsome
        obtain ⟨tag, htag, haccount⟩ := h.account hsome
        refine ⟨tag, ?_, haccount⟩
        unfold Provider.absorb
        show tag ∈ if s.session.wallet.balance = none then none
          else if s.session.wallet.balance = none then none else s.origin
        rw [if_neg hbalance, if_neg hbalance]
        exact htag
      · intro hnone
        refine absurd ?_ hnone
        exact ⟨_, List.mem_append_right _ List.mem_cons_self, rfl⟩
    · -- without an address there is no balance
      apply right_of_none
      show s.session.wallet.balance = none
      have haddress : s.session.wallet.address = none := by
        have hdisconnected : s.session.wallet.isConnected = false := eq_false_of_ne_true hconnected
        have hcoupled : s.session.wallet.isConnected = s.session.wallet.address.isSome := hs.coupled
        rw [hdisconnected] at hcoupled
        exact Option.not_isSome_iff_eq_none.mp (by rw [← hcoupled]; exact Bool.false_ne_true)
      by_contra hbalance
      obtain ⟨tag, -, address, -, hshown⟩ := h.account (Option.isSome_iff_ne_none.mpr hbalance)
      rw [haddress] at hshown
      cases hshown

/-- A task that does not wait for a balance goes on. -/
theorem Right.resume_other (h : Right s) {i : ℕ} {task : Task} {tag : Tag}
    (htask : s.tasks[i]? = some (task, tag)) (hfetch : isFetch task = false)
    (hwallet : session.wallet = s.session.wallet ∨ Cleared session) :
    Right ({ s with tasks := s.tasks.eraseIdx i }.absorb session network) := by
  refine Right.absorb (h.mono rfl rfl rfl ?_) hwallet
  rintro ⟨other, hother, hwaits⟩
  obtain ⟨j, hj⟩ := List.mem_iff_getElem?.mp hother
  refine ⟨other, List.mem_eraseIdx_iff_getElem?.mpr ⟨j, ?_, hj⟩, hwaits⟩
  rintro rfl
  rw [htask] at hj
  obtain rfl := Option.some.inj hj
  rw [hfetch] at hwaits
  cases hwaits

/-- Where a task goes on, the other requests are those that are left in the list. -/
theorem tasks_absorb (htasks : session.tasks = []) :
    (s.absorb session network).tasks = s.tasks := by
  unfold Provider.absorb
  dsimp only
  rw [htasks, List.map_nil, List.append_nil]

/-- **A balance arrives.** -/
theorem right_arrived_iff {waiting : Provider} {tag : Tag} {balance : String}
    (hwallet : session.wallet = { s.session.wallet with balance := some balance })
    (htasks : session.tasks = []) (horigin : waiting.origin = some tag)
    (hnetwork : waiting.network = s.network) :
    Right (waiting.absorb session network) ↔
      (∃ address ∈ tag.address, s.session.wallet.address = some address) ∧
        (Awaits waiting.tasks ∨ tag.network = s.network) := by
  -- what `absorb` reads off the session: wallet, origin, network and tasks
  have hshown : (waiting.absorb session network).session.wallet =
      { s.session.wallet with balance := some balance } := hwallet
  have horigin' : (waiting.absorb session network).origin = some tag := by
    unfold Provider.absorb
    dsimp only
    rw [hwallet, horigin]
    exact if_neg (Option.some_ne_none balance)
  have hnetwork' : (waiting.absorb session network).network = s.network := hnetwork
  have htasks' : (waiting.absorb session network).tasks = waiting.tasks := tasks_absorb htasks
  rw [← htasks']
  constructor
  · intro h
    obtain ⟨tag', htag', haccount⟩ := h.account (by rw [hshown]; rfl)
    rw [horigin'] at htag'
    obtain rfl := Option.some.inj htag'
    rw [hshown] at haccount
    refine ⟨haccount, Decidable.or_iff_not_imp_left.mpr fun hnone => ?_⟩
    obtain ⟨tag', htag', hsame⟩ := h.network hnone (by rw [hshown]; rfl)
    rw [horigin'] at htag'
    obtain rfl := Option.some.inj htag'
    rw [hsame, hnetwork']
  · -- conversely the two parts are what the tag of the answer says
    rintro ⟨haccount, hrest⟩
    constructor
    · intro _
      rw [horigin', hshown]
      exact ⟨tag, rfl, haccount⟩
    · intro hnone _
      rw [horigin', hnetwork']
      exact ⟨tag, rfl, hrest.resolve_left hnone⟩

/-- **A request fails.** -/
theorem right_failed_iff (h : Right s) {waiting : Provider} (hwallet : session.wallet = s.session.wallet)
    (htasks : session.tasks = []) (horigin : waiting.origin = s.origin)
    (hnetwork : waiting.network = s.network) :
    Right (waiting.absorb session network) ↔
      Awaits waiting.tasks ∨
        (s.session.wallet.balance.isSome → ∃ tag ∈ s.origin, tag.network = s.network) := by
  have hshown : (waiting.absorb session network).session.wallet = s.session.wallet := hwallet
  have hnetwork' : (waiting.absorb session network).network = s.network := hnetwork
  have htasks' : (waiting.absorb session network).tasks = waiting.tasks := tasks_absorb htasks
  rw [← htasks']
  -- a failed fetch leaves the balance, which may be none
  by_cases hnone : s.session.wallet.balance = none
  · refine iff_of_true (right_of_none (by rw [hshown, hnone])) (.inr fun hsome => ?_)
    rw [hnone] at hsome
    cases hsome
  · have horigin' : (waiting.absorb session network).origin = s.origin := by
      unfold Provider.absorb
      dsimp only
      rw [hwallet, horigin]
      exact if_neg hnone
    constructor
    · intro h'
      refine Decidable.or_iff_not_imp_left.mpr fun hlast hsome => ?_
      have hright := h'.network hlast (by rw [hshown]; exact hsome)
      rwa [horigin', hnetwork'] at hright
    · intro hrest
      constructor
      · rw [hshown, horigin']
        exact h.account
      · rw [hshown, horigin', hnetwork']
        exact fun hlast => hrest.resolve_left hlast

/-- The answer to a request changes nothing that an effect depends on. -/
theorem dependencies_absorb {waiting : Provider} (hnetwork : waiting.network = s.network)
    (haddress : session.wallet.address = s.session.wallet.address)
    (hconnected : session.wallet.isConnected = s.session.wallet.isConnected) :
    (waiting.absorb session network).dependencies = s.dependencies := by
  unfold Provider.dependencies Provider.absorb
  dsimp only
  rw [hnetwork, haddress, hconnected]

/-- The effects stay away. -/
theorem step_resume {i : ℕ} {answer : Answer}
    (h : (s.resume i answer).dependencies = s.dependencies) :
    s.step (.resume i answer) = (s.resume i answer).watch :=
  congrArg Provider.watch (if_pos h)

/-- The answer that a task does not wait for changes nothing. -/
theorem step_resume_none {i : ℕ} {answer : Answer} (h : ∀ task ∈ s.tasks[i]?,
    s.session.resume task.1 answer = none) : s.step (.resume i answer) = s.watch := by
  have hresume : s.resume i answer = s := by
    unfold Provider.resume
    split
    · rfl
    · next task tag htask => rw [h (task, tag) htask]
  rw [step_resume (by rw [hresume]), hresume]

theorem resume_some {i : ℕ} {answer : Answer} {task : Task} {tag : Tag}
    (htask : s.tasks[i]? = some (task, tag)) (hresume : s.session.resume task answer = some session) :
    s.resume i answer = { s with
      tasks := s.tasks.eraseIdx i
      origin := if isFetch task && arrived answer then some tag else s.origin }.absorb
        session tag.network := by
  unfold Provider.resume
  rw [htask]
  dsimp only
  rw [hresume]

/-- **A request is answered.** -/
theorem right_answered_iff (hs : Held s) (h : Right s) {i : ℕ} {task : Task} {tag : Tag}
    {result : Except String String} (htask : s.tasks[i]? = some (task, tag))
    (hfetch : isFetch task = true)
    (hresume : s.session.resume task (.balance result) = some session)
    (hwallet : session.wallet = (s.session.balanceFetched result).wallet)
    (htasks : session.tasks = s.session.tasks) :
    Right (s.step (.resume i (.balance result))) ↔ AnswerKeeps s tag (s.tasks.eraseIdx i) result := by
  rw [hs.tasks] at htasks
  have hsome := resume_some htask hresume
  rw [hfetch] at hsome
  cases result with
  -- a balance that arrives has its own tag
  | ok balance =>
    have hshown : session.wallet = { s.session.wallet with balance := some balance } := hwallet
    have hsame : (s.resume i (.balance (.ok balance))).dependencies = s.dependencies := by
      rw [hsome]
      exact dependencies_absorb rfl (by rw [hshown]) (by rw [hshown])
    rw [step_resume hsame, right_watch_iff, hsome]
    exact right_arrived_iff hshown htasks rfl rfl
  -- a failure keeps the tag of the balance before
  | error message =>
    have hshown : session.wallet = s.session.wallet := hwallet
    have hsame : (s.resume i (.balance (.error message))).dependencies = s.dependencies := by
      rw [hsome]
      exact dependencies_absorb rfl (by rw [hshown]) (by rw [hshown])
    rw [step_resume hsame, right_watch_iff, hsome]
    exact right_failed_iff h hshown htasks rfl rfl

/-- **An answer leaves the balance right exactly when it is still about the wallet.** -/
theorem right_resume_iff (hs : Held s) (h : Right s) (i : ℕ) (answer : Answer) :
    Right (s.step (.resume i answer)) ↔ Keeps s (.resume i answer) := by
  -- what the condition says of the task that goes on
  have hkeeps {task : Task} {tag : Tag} (htask : s.tasks[i]? = some (task, tag))
      (hanswer : ∀ result, answer = .balance result → isFetch task = true →
        AnswerKeeps s tag (s.tasks.eraseIdx i) result) : Keeps s (.resume i answer) := by
    cases answer with
    | balance result =>
      intro other hother hfetch
      rw [htask] at hother
      obtain rfl := Option.some.inj hother
      exact hanswer result rfl hfetch
    | connected result => trivial
    | address result => trivial
  cases htask : s.tasks[i]? with
  | none =>
    have hnone : ∀ task ∈ s.tasks[i]?, s.session.resume task.1 answer = none := by
      intro task htask'
      rw [htask] at htask'
      cases htask'
    rw [step_resume_none hnone]
    refine iff_of_true h.watch ?_
    cases answer with
    | balance result =>
      intro task htask'
      rw [htask] at htask'
      cases htask'
    | connected result => trivial
    | address result => trivial
  | some entry =>
    obtain ⟨task, tag⟩ := entry
    cases hresume : s.session.resume task answer with
    | none =>
      have hnone : ∀ other ∈ s.tasks[i]?, s.session.resume other.1 answer = none := by
        intro other hother
        rw [htask] at hother
        obtain rfl := Option.some.inj hother
        exact hresume
      rw [step_resume_none hnone]
      refine iff_of_true h.watch (hkeeps htask fun result hanswer hfetch => ?_)
      -- a task that waits for a balance takes the answer
      obtain rfl := hanswer
      cases task with
      | connectBalance => cases hresume
      | fetchBalance => cases hresume
      | connectInstalled => cases hfetch
      | connectAddress => cases hfetch
      | initInstalled => cases hfetch
      | initCheck stage => cases hfetch
      | accountChanged closure stage => cases hfetch
    | some session =>
      rcases resume_cases hresume with ⟨hfetch, result, rfl, hwallet, htasks⟩ | ⟨hfetch, hwallet⟩
      · rw [right_answered_iff hs h htask hfetch hresume hwallet htasks]
        constructor
        · intro hanswer
          refine hkeeps htask fun other hother _ => ?_
          obtain rfl := Answer.balance.inj hother
          exact hanswer
        · exact fun hall => hall (task, tag) htask hfetch
      · refine iff_of_true ?_ (hkeeps htask fun result _ hfetch' => ?_)
        · have hright : Right (s.resume i answer) := by
            rw [resume_some htask hresume, hfetch]
            exact h.resume_other htask hfetch hwallet
          exact Right.effects hright
        · rw [hfetch] at hfetch'
          cases hfetch'

theorem right_mounted {storage : Bool} {savedAddress : Option String} {watches : Bool} :
    Right (.mounted storage savedAddress watches network) := by
  unfold Provider.mounted
  exact Right.watch (right_of_none rfl)

/-- **The steps that keep the property.** -/
theorem right_step_iff (hs : Held s) (h : Right s) : Right (s.step e) ↔ Keeps s e := by
  cases e with
  | connect => exact iff_of_true (Right.effects (h.absorb (.inl rfl))) trivial
  | disconnect => exact iff_of_true (Right.effects (h.absorb (.inr ⟨rfl, rfl⟩))) trivial
  | reload => exact iff_of_true (Right.effects right_mounted) trivial
  | switchNetwork network => exact iff_of_true (h.switchNetwork hs network) trivial
  | refreshBalance => exact iff_of_true (Right.effects h.refreshBalance) trivial
  -- a watcher of an older render is gone, and its report changes nothing
  | watched i address network =>
    refine iff_of_true (Right.effects ?_) trivial
    unfold Provider.handle
    dsimp only
    split
    · exact h.absorb (watched_cases _ _ _)
    · exact h
  | accountChanged =>
    refine iff_of_true (Right.effects ?_) trivial
    unfold Provider.handle
    dsimp only
    split_ifs
    · exact h.absorb (.inl rfl)
    · exact h
  | networkChanged =>
    refine iff_of_true (Right.effects ?_) trivial
    unfold Provider.handle
    dsimp only
    split_ifs
    · exact h.absorb (.inl networkChanged_wallet)
    · exact h
  -- answers are the one event that can break the property
  | resume i answer => exact right_resume_iff hs h i answer

/-- **The balance is that of the account on display throughout a run, and of the network on display
whenever no request is on its way, if and only if every answer keeps to the condition.** -/
theorem throughout_right_iff (storage : Bool) (savedAddress : Option String) (watches : Bool)
    (network : String) (events : List Event) :
    Throughout Provider.step Right (.mounted storage savedAddress watches network) events ↔
      Kept Provider.step Keeps (.mounted storage savedAddress watches network) events :=
  throughout_iff_kept (I := Held) (fun h => h.step) right_step_iff held_mounted right_mounted

/-! ### A balance after `disconnect` -/

/-- The wallet is connected, and the balance arrives after it has been disconnected again. -/
def disconnected : List Event := [
  .connect,
  .resume 1 (.connected (.ok ⟨true, none⟩)),
  .resume 1 (.address (.ok ⟨"GALICE", none⟩)),
  .disconnect,
  .resume 1 (.balance (.ok "250.0000000"))]

/-- A balance that arrives after the wallet was disconnected. -/
theorem not_right_disconnected :
    ¬ ∀ storage savedAddress watches network events,
      Throughout Provider.step Right (.mounted storage savedAddress watches network) events := by
  intro h
  have hlast := (h false none true "testnet" disconnected).last
  obtain ⟨-, -, address, -, hshown⟩ := hlast.account rfl
  cases hshown

end StellarForge.Frontend.Balance
