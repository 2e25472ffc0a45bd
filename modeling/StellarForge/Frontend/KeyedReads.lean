import StellarForge.Collections.Numerals
import StellarForge.Concurrency.KeyedRead
import StellarForge.Transition.Throughout

/-!
# The hooks that read the value of a key

`useTokenBalance`, `useTokenInfo`, and the form that burns what the first of them shows.  Both hooks drop
a request while another one is on its way, and do not make it later.

* `TokenBalance.throughout_shows_iff`, `TokenInfo.throughout_shows_iff`: the runs in which a hook shows
  what belongs to its key once no request is on its way;
* `Burn.right_iff`: the form takes the balance of the token that it burns where the hook does and has its
  key from that token;
* `Burn.throughout_burns_iff`: and the runs in which it does, for its Max button and its check.
-/

namespace StellarForge.Frontend

open Concurrency Text Transition

/-! ### `useTokenBalance` -/

namespace TokenBalance

/-- `tokenAddress` and `accountAddress`. -/
abbrev BalanceKey := String × String

/-- Without a token or an account the balance is `0`. -/
def atHand (key : BalanceKey) : Option (BalanceKey × String) :=
  if key.1 = "" ∨ key.2 = "" then some (key, "0") else none

/-- The hook after its first effect. -/
def mounted (key : BalanceKey) : KeyedRead BalanceKey String :=
  ({ key, value := "0" } : KeyedRead BalanceKey String).load key (atHand key)

/-- What may happen to the hook. -/
inductive Event
  | changed (key : BalanceKey)
  /-- `refresh` of the render that had this key. -/
  | refresh (key : BalanceKey)
  | settled (result : Except String String)

/-- One event. -/
def step (s : KeyedRead BalanceKey String) : Event → KeyedRead BalanceKey String
  | .changed key => s.turn key (atHand key)
  | .refresh key => s.load key (atHand key)
  | .settled result => s.settled result

/-- The answers that arrive keep to the key, and so does what is at hand. -/
def Keeps (s : KeyedRead BalanceKey String) : Event → Prop
  | .changed _ => True
  | .refresh key => s.LoadKeeps key (atHand key)
  | .settled result => s.Keeps result

variable {s : KeyedRead BalanceKey String} {key : BalanceKey} {e : Event}

theorem atHand_key : ∀ p ∈ atHand key, p.1 = key := by
  intro p hp
  unfold atHand at hp
  split_ifs at hp
  · obtain rfl := Option.some.inj hp
    rfl
  · cases hp

theorem right_step_iff (h : s.Right) : (step s e).Right ↔ Keeps s e := by
  cases e with
  | changed key => exact iff_of_true (h.turn atHand_key) trivial
  | refresh key => exact KeyedRead.right_load_iff atHand_key
  | settled result => exact KeyedRead.right_settled_iff h

theorem right_mounted (key : BalanceKey) : (mounted key).Right :=
  KeyedRead.right_load (s := { key, value := "0" }) atHand_key

/-- **The hook shows what belongs to its key throughout a run if and only if every answer keeps to the
key.** -/
theorem throughout_shows_iff (key : BalanceKey) (events : List Event) :
    Throughout step KeyedRead.Right (mounted key) events ↔ Kept step Keeps (mounted key) events :=
  throughout_iff_kept (I := fun _ => True) (fun h => h) (fun _ => right_step_iff) trivial
    (right_mounted key)

end TokenBalance

/-! ### `useTokenInfo` -/

namespace TokenInfo

variable {τ : Type}

/-- An entry of the cache, with the token that it is about. -/
structure CacheEntry (τ : Type) where
  info : τ
  fetchedAt : ℕ
  address : String

/-- The cache that all instances of the hook share: what is kept under an address is about it. -/
structure Cache (τ : Type) where
  get : String → Option (CacheEntry τ)
  filed : ∀ address, ∀ entry ∈ get address, entry.address = address

/-- `cache.set(address, { info, fetchedAt: Date.now() })` -/
def Cache.set (cache : Cache τ) (address : String) (info : τ) (now : ℕ) : Cache τ where
  get := Function.update cache.get address (some ⟨info, now, address⟩)
  filed other entry hentry := by
    by_cases hsame : other = address
    · subst hsame
      rw [Function.update_self] at hentry
      obtain rfl := Option.some.inj hentry
      rfl
    · rw [Function.update_of_ne hsame] at hentry
      exact cache.filed other entry hentry

/-- How long an entry is served. -/
def CACHE_TTL_MS : ℕ := 30000

/-- A hook, with the cache and the clock. -/
structure Hook (τ : Type) where
  read : KeyedRead String (Option τ)
  cache : Cache τ
  now : ℕ

/-- What `load` finds without a request. -/
def Hook.atHand (s : Hook τ) (bypassCache : Bool) (address : String) :
    Option (String × Option τ) :=
  if address = "" then some (address, none)
  else if bypassCache then none
  else ((s.cache.get address).filter fun hit => s.now < hit.fetchedAt + CACHE_TTL_MS).map fun hit =>
    (hit.address, some hit.info)

/-- The hook after its first effect; before that the cache has been read whatever its age. -/
def mounted (address : String) (cache : Cache τ) (now : ℕ) : Hook τ :=
  let hit := cache.get address
  let read : KeyedRead String (Option τ) :=
    { key := address, value := hit.map CacheEntry.info, origin := hit.map CacheEntry.address }
  let s : Hook τ := ⟨read, cache, now⟩
  { s with read := read.load address (s.atHand false address) }

/-- What may happen to the hook. -/
inductive Event (τ : Type)
  | changed (address : String)
  /-- `refresh` of the render that had this address. -/
  | refresh (address : String)
  | settled (result : Except String τ)
  /-- Another instance of the hook gets an answer. -/
  | cachedElsewhere (address : String) (info : τ)
  | elapsed (milliseconds : ℕ)

/-- One event; what has been read is cached under the address that it was asked for. -/
def step (s : Hook τ) : Event τ → Hook τ
  | .changed address => { s with read := s.read.turn address (s.atHand false address) }
  | .refresh address => { s with read := s.read.load address (s.atHand true address) }
  | .settled result =>
    { s with
      read := s.read.settled (result.map some)
      cache := match s.read.request, result with
        | some address, .ok info => s.cache.set address info s.now
        | _, _ => s.cache }
  | .cachedElsewhere address info => { s with cache := s.cache.set address info s.now }
  | .elapsed milliseconds => { s with now := s.now + milliseconds }

/-- When nothing is on its way, the token shown is the one of the address. -/
def Right (s : Hook τ) : Prop := s.read.Right

/-- The answers that arrive keep to the key, and so does what is at hand. -/
def Keeps (s : Hook τ) : Event τ → Prop
  | .refresh address => s.read.LoadKeeps address (s.atHand true address)
  | .settled result => s.read.Keeps (result.map some)
  | _ => True

variable {s : Hook τ} {address : String} {e : Event τ}

theorem atHand_key {bypassCache : Bool} : ∀ p ∈ s.atHand bypassCache address, p.1 = address := by
  intro p hp
  unfold Hook.atHand at hp
  split_ifs at hp
  · obtain rfl := Option.some.inj hp
    rfl
  · cases hp
  · obtain ⟨entry, hentry, rfl⟩ := Option.map_eq_some_iff.mp hp
    exact s.cache.filed address entry (Option.filter_eq_some_iff.mp hentry).1

theorem right_step_iff (h : Right s) : Right (step s e) ↔ Keeps s e := by
  cases e with
  | changed address => exact iff_of_true (h.turn atHand_key) trivial
  | refresh address => exact KeyedRead.right_load_iff atHand_key
  | settled result => exact KeyedRead.right_settled_iff h
  | cachedElsewhere address info => exact iff_of_true h trivial
  | elapsed milliseconds => exact iff_of_true h trivial

theorem right_mounted (address : String) (cache : Cache τ) (now : ℕ) :
    Right (mounted address cache now) := by
  show KeyedRead.Right (KeyedRead.load _ _ _)
  exact KeyedRead.right_load (s := ⟨address, _, _, _, _, _⟩) atHand_key

/-- **The hook shows what belongs to its key throughout a run if and only if every answer keeps to the
key.** -/
theorem throughout_shows_iff (address : String) (cache : Cache τ) (now : ℕ) (events : List (Event τ)) :
    Throughout step Right (mounted address cache now) events ↔
      Kept step Keeps (mounted address cache now) events :=
  throughout_iff_kept (I := fun _ => True) (fun h => h) (fun _ => right_step_iff) trivial
    (right_mounted address cache now)

end TokenInfo

/-! ### `BurnForm` -/

namespace Burn

/-- The option of the selection that stands for an address to enter. -/
def MANUAL_TOKEN_VALUE : String := "__manual__"

/-- The fields of the form that choose the token, the amount, and the hooks. -/
structure BurnForm where
  tokenSelect : String
  tokenManual : String
  amount : String := ""
  /-- `wallet.address ?? ''` -/
  accountAddress : String
  debouncedAddress : String
  /-- The timer of `useDebounce`, with the value that it sets. -/
  timer : Option String
  read : KeyedRead TokenBalance.BalanceKey String
  /-- The burns that have been confirmed and are on their way: the `refreshBalance` of each is that of the
  render in which it was confirmed, with the key that the hook had there. -/
  burning : List TokenBalance.BalanceKey := []

namespace BurnForm

variable (s : BurnForm)

/-- The token that will be burned. -/
def resolvedTokenAddress : String :=
  if s.tokenSelect = MANUAL_TOKEN_VALUE then s.tokenManual else s.tokenSelect

/-- The token that will be burned, and the account that burns it. -/
def burnKey : TokenBalance.BalanceKey := (s.resolvedTokenAddress, s.accountAddress)

/-- `balance` of `useTokenBalance`. -/
def balance : String := s.read.value

/-- `isLoading` of `useTokenBalance`. -/
def balanceLoading : Bool := s.read.request.isSome

/-- The effects after a render: the timer starts again when the token has changed, and the hook gets its
key. -/
def render (s' : BurnForm) : BurnForm :=
  { s' with
    timer := if s'.resolvedTokenAddress = s.resolvedTokenAddress then s'.timer
      else some s'.resolvedTokenAddress
    read := TokenBalance.step s'.read (.changed (s'.debouncedAddress, s'.accountAddress)) }

/-- `initialTokenSelection` and the first effects. -/
def mounted (initialAddress firstToken accountAddress : String) : BurnForm :=
  let tokenSelect :=
    if initialAddress ≠ "" then initialAddress
    else if firstToken ≠ "" then firstToken else MANUAL_TOKEN_VALUE
  let resolved := if tokenSelect = MANUAL_TOKEN_VALUE then initialAddress else tokenSelect
  { tokenSelect, accountAddress
    tokenManual := initialAddress
    debouncedAddress := resolved
    timer := some resolved
    read := TokenBalance.mounted (resolved, accountAddress) }

/-- The Max button is disabled. -/
def maxDisabled : Bool := s.balance = "" || s.balance = "0" || s.balanceLoading

/-- A click on the Max button. -/
def max : BurnForm := if s.maxDisabled then s else { s with amount := s.balance }

/-- `BigInt(amount) > BigInt(balance)`, where both are numbers. -/
def amountExceedsBalance : Bool :=
  s.amount ≠ "" && s.balance ≠ "" && s.balance ≠ "0" &&
    match toBigInt s.amount, toBigInt s.balance with
    | some amount, some balance => balance < amount
    | _, _ => false

end BurnForm

/-- What may happen to the form. -/
inductive Event
  | tokenSelect (value : String)
  | tokenManual (value : String)
  | amount (value : String)
  | max
  | accountChanged (accountAddress : String)
  /-- The 300 milliseconds of the timer are over. -/
  | debounced
  /-- A burn is confirmed in the dialog. -/
  | confirmed
  /-- A burn has succeeded, and its `handleConfirm` refreshes the balance. -/
  | burned (i : ℕ)
  | settled (result : Except String String)

/-- One event. -/
def step (s : BurnForm) : Event → BurnForm
  | .tokenSelect value => s.render { s with tokenSelect := value }
  | .tokenManual value => s.render { s with tokenManual := value }
  | .amount value => { s with amount := value }
  | .max => s.max
  | .accountChanged accountAddress => s.render { s with accountAddress }
  | .debounced =>
    s.render { s with timer := none, debouncedAddress := s.timer.getD s.debouncedAddress }
  | .confirmed => { s with burning := s.burning ++ [s.read.key] }
  | .burned i =>
    match s.burning[i]? with
    | none => s
    | some key =>
      { s with read := TokenBalance.step s.read (.refresh key), burning := s.burning.eraseIdx i }
  | .settled result => { s with read := TokenBalance.step s.read (.settled result) }

/-- The hook shows what belongs to its key; and the balance that the form shows, that its Max button writes
and that its check compares the amount with is that of the token that will be burned. -/
structure Right (s : BurnForm) : Prop where
  hook : s.read.Right
  shown : s.read.request = none → s.read.Shows s.burnKey
  /-- A click on the Max button writes this balance. -/
  max : s.maxDisabled = false → s.max.amount = s.balance ∧ s.read.origin = some s.burnKey
  /-- Where there is none the check lets any amount pass. -/
  check : s.read.request = none →
    s.read.origin = some s.burnKey ∨ s.read.failed = some s.burnKey ∧ s.amountExceedsBalance = false

/-- Another token is chosen only while a request is on its way, or the hook has it for its key; an answer
arrives when the token is the one of the hook's key, and keeps to the key; and so does the refresh after
a burn. -/
def Keeps (s : BurnForm) : Event → Prop
  | .tokenSelect value =>
    s.read.request.isSome = true ∨
      BurnForm.resolvedTokenAddress { s with tokenSelect := value } = s.debouncedAddress
  | .tokenManual value =>
    s.read.request.isSome = true ∨
      BurnForm.resolvedTokenAddress { s with tokenManual := value } = s.debouncedAddress
  | .burned i => ∀ key ∈ s.burning[i]?, TokenBalance.Keeps s.read (.refresh key)
  | .settled result => TokenBalance.Keeps s.read (.settled result) ∧
    (s.read.request.isSome = true → s.resolvedTokenAddress = s.debouncedAddress)
  | _ => True

/-- What holds in every run. -/
structure Held (s : BurnForm) : Prop where
  key : s.read.key = (s.debouncedAddress, s.accountAddress)
  debounced : s.timer.getD s.debouncedAddress = s.resolvedTokenAddress
  unread : s.read.Unread "0"

variable {s : BurnForm} {e : Event}

/-- Without a balance no amount is too large. -/
theorem amountExceedsBalance_eq_false (hbalance : s.balance = "0") : s.amountExceedsBalance = false := by
  unfold BurnForm.amountExceedsBalance
  rw [hbalance]
  simp

/-- The Max button can be clicked once there is a balance and no request is on its way. -/
theorem maxDisabled_eq_false_iff :
    s.maxDisabled = false ↔ s.balance ≠ "" ∧ s.balance ≠ "0" ∧ s.read.request = none := by
  simp [BurnForm.maxDisabled, BurnForm.balanceLoading, and_assoc]

/-- **The form takes the balance of the token that it burns where the hook shows what belongs to its key,
and, once no request is on its way, the key is of that token.** -/
theorem right_iff (hs : Held s) : Right s ↔
    s.read.Right ∧ (s.read.request = none → s.resolvedTokenAddress = s.debouncedAddress) := by
  constructor
  · intro h
    -- the balance is that of one key only, so the key of the read is the one of the form
    refine ⟨h.hook, fun hrequest => ?_⟩
    have hkey : s.burnKey = s.read.key := (h.shown hrequest).unique (h.hook hrequest)
    rw [hs.key] at hkey
    exact congrArg Prod.fst hkey
  · rintro ⟨hread, hsame⟩
    have hshown (hrequest : s.read.request = none) : s.read.Shows s.burnKey := by
      have hkey : s.burnKey = s.read.key := by
        rw [hs.key, BurnForm.burnKey, hsame hrequest]
      rw [hkey]
      exact hread hrequest
    -- Max and the check are open only when a balance is shown
    refine ⟨hread, hshown, fun hmax => ?_, fun hrequest => ?_⟩
    · obtain ⟨-, hbalance, hrequest⟩ := maxDisabled_eq_false_iff.mp hmax
      refine ⟨?_, ?_⟩
      · rw [BurnForm.max, hmax, if_neg Bool.false_ne_true]
      · rcases hshown hrequest with hsome | ⟨hnone, -⟩
        · exact hsome
        · exact absurd (hs.unread hnone) hbalance
    · rcases hshown hrequest with hsome | ⟨hnone, hfailed⟩
      · exact .inl hsome
      · exact .inr ⟨hfailed, amountExceedsBalance_eq_false (hs.unread hnone)⟩

theorem Held.render {s' : BurnForm} (hdebounced : s'.timer.getD s'.debouncedAddress =
    s.resolvedTokenAddress) (hunread : s'.read.Unread "0") : Held (s.render s') := by
  refine ⟨KeyedRead.key_turn, ?_, hunread.turn⟩
  show (if s'.resolvedTokenAddress = s.resolvedTokenAddress then s'.timer
    else some s'.resolvedTokenAddress).getD s'.debouncedAddress = s'.resolvedTokenAddress
  split_ifs with hsame
  · rw [hdebounced, hsame]
  · rfl

/-- Every event keeps it. -/
theorem Held.step (hs : Held s) : Held (step s e) := by
  cases e with
  | tokenSelect value => exact Held.render hs.debounced hs.unread
  | tokenManual value => exact Held.render hs.debounced hs.unread
  | amount value => exact ⟨hs.key, hs.debounced, hs.unread⟩
  | max =>
    show Held (if s.maxDisabled then s else _)
    split_ifs
    · exact hs
    · exact ⟨hs.key, hs.debounced, hs.unread⟩
  | accountChanged accountAddress => exact Held.render hs.debounced hs.unread
  | debounced => exact Held.render hs.debounced hs.unread
  | confirmed => exact ⟨hs.key, hs.debounced, hs.unread⟩
  | burned i =>
    unfold Burn.step
    dsimp only
    split
    · exact hs
    · exact ⟨KeyedRead.key_load.trans hs.key, hs.debounced, hs.unread.load⟩
  | settled result => exact ⟨KeyedRead.key_settled.trans hs.key, hs.debounced, hs.unread.settled⟩

theorem held_mounted (initialAddress firstToken accountAddress : String) :
    Held (.mounted initialAddress firstToken accountAddress) :=
  ⟨KeyedRead.key_load, rfl, KeyedRead.Unread.load fun _ => rfl⟩

/-- The hook's key has not changed, so the render asks for nothing. -/
theorem read_render_of_same (hs : Held s) {s' : BurnForm} (hread : s'.read = s.read)
    (hdebounced : s'.debouncedAddress = s.debouncedAddress)
    (haccount : s'.accountAddress = s.accountAddress) : (s.render s').read = s.read := by
  show KeyedRead.turn (s'.debouncedAddress, s'.accountAddress) _ s'.read = s.read
  rw [hread, hdebounced, haccount, ← hs.key, KeyedRead.turn, if_pos rfl]

/-- Another token is chosen. -/
theorem right_chosen_iff (hs : Held s) (h : s.read.Right) {s' : BurnForm} (hread : s'.read = s.read)
    (hdebounced : s'.debouncedAddress = s.debouncedAddress)
    (haccount : s'.accountAddress = s.accountAddress) (hheld : Held (s.render s')) :
    Right (s.render s') ↔
      s.read.request.isSome = true ∨ s'.resolvedTokenAddress = s.debouncedAddress := by
  rw [right_iff hheld, read_render_of_same hs hread hdebounced haccount, and_iff_right h]
  show (s.read.request = none → s'.resolvedTokenAddress = s'.debouncedAddress) ↔ _
  rw [hdebounced, ← Option.not_isSome_iff_eq_none, or_iff_not_imp_left]

/-- **The steps after which the form takes the balance of the token that it burns.** -/
theorem right_step_iff (hs : Held s) (h : Right s) : Right (step s e) ↔ Keeps s e := by
  have hheld : Held (step s e) := hs.step
  obtain ⟨hread, hsame⟩ := (right_iff hs).mp h
  cases e with
  | tokenSelect value => exact right_chosen_iff hs hread rfl rfl rfl hheld
  | tokenManual value => exact right_chosen_iff hs hread rfl rfl rfl hheld
  | amount value => exact iff_of_true ((right_iff hheld).mpr ⟨hread, hsame⟩) trivial
  | max =>
    refine iff_of_true ?_ trivial
    show Right (if s.maxDisabled then s else _)
    split_ifs with hmax
    · exact h
    · -- only the amount is another one
      rw [step, BurnForm.max, if_neg hmax] at hheld
      exact (right_iff hheld).mpr ⟨hread, hsame⟩
  | accountChanged accountAddress =>
    refine iff_of_true ((right_iff hheld).mpr ⟨hread.turn TokenBalance.atHand_key, ?_⟩) trivial
    exact fun hrequest => hsame (KeyedRead.request_eq_none_of_turn hrequest)
  | debounced =>
    refine iff_of_true ((right_iff hheld).mpr ⟨hread.turn TokenBalance.atHand_key, ?_⟩) trivial
    exact fun _ => hs.debounced.symm
  | confirmed => exact iff_of_true ((right_iff hheld).mpr ⟨hread, hsame⟩) trivial
  | burned i =>
    unfold step Keeps at *
    dsimp only at *
    cases hburning : s.burning[i]? with
    | none => exact iff_of_true h nofun
    | some key =>
      rw [hburning] at hheld
      simp only [Option.mem_some_iff, forall_eq']
      rw [right_iff hheld, ← TokenBalance.right_step_iff hread]
      exact and_iff_left fun hrequest => hsame (KeyedRead.request_eq_none_of_load hrequest)
  | settled result =>
    rw [right_iff hheld]
    refine and_congr (TokenBalance.right_step_iff hread) ?_
    show ((s.read.settled result).request = none → s.resolvedTokenAddress = s.debouncedAddress) ↔ _
    rw [KeyedRead.request_settled]
    constructor
    · exact fun hburned _ => hburned rfl
    · intro hburned _
      by_cases hrequest : s.read.request.isSome = true
      · exact hburned hrequest
      · exact hsame (Option.not_isSome_iff_eq_none.mp hrequest)

/-- **The form takes the balance of the token that it burns, for what it shows, its Max button and its
check, throughout a run if and only if every step keeps to the condition.** -/
theorem throughout_burns_iff (initialAddress firstToken accountAddress : String)
    (events : List Event) :
    Throughout step Right (.mounted initialAddress firstToken accountAddress) events ↔
      Kept step Keeps (.mounted initialAddress firstToken accountAddress) events :=
  throughout_iff_kept (I := Held) (fun h => h.step) right_step_iff (held_mounted ..)
    ((right_iff (held_mounted ..)).mpr ⟨TokenBalance.right_mounted _, fun _ => rfl⟩)

end Burn

end StellarForge.Frontend
