import StellarForge.Frontend.Addresses
import StellarForge.Frontend.KeyedReads
import StellarForge.Transition.Run

/-!
# The page of a token

`TokenDetail` asks for the token of its route whenever the route changes, and then for the metadata.  No
request is cancelled: whatever arrives is shown, and what has been shown for another route stays where
the next one has nothing in its place.

* `Recounts.step`: the page is what the routes and the answers so far have made it;
* `Page.shows_iff`: **the routes and the answers after which the page shows what belongs to its route**;
* **`keyedReads_iff`**: when the hooks, the form that burns and this page show what belongs to their keys
  once no request is on its way;
* `not_keyedReads_dropped`: a request is dropped, or answered late.
-/

namespace StellarForge.Frontend.TokenDetail

open Concurrency Encoding Transition

/-! ### The page -/

/-- The address of a token, as it stands in the route. -/
abbrev Address := List CodeUnit

/-- What the page reads. -/
inductive Request
  | resolveTokenInfo (address : Address)
  | getMetadata (address : Address)
  deriving DecidableEq

/-- The state of the component.  What is shown comes with the address that it has been asked for;
`notFound` is set for the addresses in its list. -/
structure Page (τ μ : Type) where
  address : Option Address
  token : Option (Address × τ) := none
  metadata : Option (Address × μ) := none
  loading : Bool := true
  notFound : List (Option Address) := []
  unresolved : Option (Address × String) := none
  error : Option (Address × String) := none
  requests : List Request := []

/-- What happens to the page, with the address that is asked for or answered. -/
inductive Event (τ μ : Type)
  /-- The effect runs: the route is another one, or the service or the language is. -/
  | route (address : Option Address)
  | unresolved (address : Address) (message : String)
  | resolved (address : Address) (info : τ)
  | rejected (address : Address) (message : String)
  | metadata (address : Address) (result : Except String μ)

/-- What the page shows. -/
inductive View (τ μ : Type)
  | skeleton
  | unresolved (message : Address × String)
  | notFound
  | token (token : Address × τ) (metadata : Option (Address × μ)) (error : Option (Address × String))

variable {τ μ : Type}

/-- The request that is answered. -/
def Event.request? : Event τ μ → Option Request
  | .route _ => none
  | .unresolved address _ | .resolved address _ | .rejected address _ => some (.resolveTokenInfo address)
  | .metadata address _ => some (.getMetadata address)

/-- `address && isValidContractAddress(address)` -/
def validAddress (address : Option Address) : Option Address :=
  address.filter fun address => address ≠ [] && isValidContractAddress address

namespace Page

/-- The effect of the route. -/
def load (address : Option Address) (s : Page τ μ) : Page τ μ :=
  match validAddress address with
  | none => { s with address, notFound := address :: s.notFound, loading := false }
  | some valid =>
    { s with
      address
      loading := true
      notFound := []
      unresolved := none
      error := none
      requests := s.requests ++ [.resolveTokenInfo valid] }

/-- The page, as it appears on a route. -/
def mounted (address : Option Address) : Page τ μ := load address { address }

section

-- whether `info.metadataUri` is there, and the text for an error that has none
variable (hasMetadata : τ → Bool) (loadError : String)

/-- One event. -/
def step (s : Page τ μ) : Event τ μ → Page τ μ
  | .route address => s.load address
  | .unresolved address message =>
    { s with
      unresolved := some (address, message)
      loading := false
      requests := s.requests.erase (.resolveTokenInfo address) }
  | .resolved address info =>
    let requests := s.requests.erase (.resolveTokenInfo address)
    -- the page goes on loading until the metadata is there as well
    if hasMetadata info then
      { s with token := some (address, info), requests := requests ++ [.getMetadata address] }
    else { s with token := some (address, info), loading := false, requests }
  | .rejected address message =>
    { s with
      error := some (address, if message = "" then loadError else message)
      notFound := some address :: s.notFound
      loading := false
      requests := s.requests.erase (.resolveTokenInfo address) }
  | .metadata address (.ok metadata) =>
    { s with
      metadata := some (address, metadata)
      loading := false
      requests := s.requests.erase (.getMetadata address) }
  | .metadata address (.error _) =>
    { s with loading := false, requests := s.requests.erase (.getMetadata address) }

/-- An answer is one to a request that is on its way. -/
def Step (s : Page τ μ) (e : Event τ μ) (s' : Page τ μ) : Prop :=
  (∀ request ∈ e.request?, request ∈ s.requests) ∧ s' = s.step hasMetadata loadError e

end

/-- What is rendered: the skeleton, an error, the token, or that there is none. -/
def view (s : Page τ μ) : View τ μ :=
  if s.loading then .skeleton
  else
    match s.unresolved with
    | some message => .unresolved message
    | none =>
      if s.notFound ≠ [] then .notFound
      else
        match s.token with
        | none => .notFound
        | some token => .token token s.metadata s.error

/-- What is on display has been asked for the route, or the route is one that is not found. -/
def Shows (s : Page τ μ) : Prop :=
  match s.view with
  | .skeleton => False
  | .unresolved message => some message.1 = s.address
  | .notFound => s.address ∈ s.notFound
  | .token token metadata error =>
    some token.1 = s.address ∧ (∀ m ∈ metadata, some m.1 = s.address) ∧
      ∀ e ∈ error, some e.1 = s.address

/-- **Once no request is on its way, the page shows what belongs to its route.** -/
def Right (s : Page τ μ) : Prop := s.requests = [] → s.Shows

end Page

/-! ### The routes and the answers -/

namespace Event

/-- The address that a change of the route leads to. -/
def route? : Event τ μ → Option (Option Address)
  | .route address => some address
  | _ => none

/-- The effect runs for an address that is valid. -/
def startsLoading : Event τ μ → Bool
  | .route address => (validAddress address).isSome
  | _ => false

/-- The address that is answered as unresolved. -/
def unresolved? : Event τ μ → Option Address
  | .unresolved address _ => some address
  | _ => none

/-- The address that is lost: its request has failed, or it is not valid. -/
def lost? : Event τ μ → Option (Option Address)
  | .rejected address _ => some (some address)
  | .route address => some address
  | _ => none

/-- The address that is answered with a token. -/
def token? : Event τ μ → Option Address
  | .resolved address _ => some address
  | _ => none

/-- The address that is answered with metadata. -/
def metadata? : Event τ μ → Option Address
  | .metadata address (.ok _) => some address
  | _ => none

end Event

/-- The route, after these events, latest first. -/
def currentRoute (events : List (Event τ μ)) : Option Address := (events.findSome? Event.route?).join

/-- What has happened since the effect last ran for a valid address. -/
def sinceLoading (events : List (Event τ μ)) : List (Event τ μ) :=
  events.takeWhile fun e => !e.startsLoading

/-- The address that was last answered as unresolved since then. -/
def lastUnresolved (events : List (Event τ μ)) : Option Address :=
  (sinceLoading events).findSome? Event.unresolved?

/-- The addresses that have been lost since then. -/
def lost (events : List (Event τ μ)) : List (Option Address) :=
  (sinceLoading events).filterMap Event.lost?

/-- **The routes and the answers keep to the route**, latest first.  Since the effect last ran for a valid
address, the last answer `unresolved` was for the route; without one, the route is one of those that have
been lost; without those, the last token was for the route, and so was the last metadata of all. -/
structure AnswersKeep (events : List (Event τ μ)) : Prop where
  unresolved : ∀ a ∈ lastUnresolved events, some a = currentRoute events
  lost : lastUnresolved events = none → lost events ≠ [] → currentRoute events ∈ lost events
  token : lastUnresolved events = none → TokenDetail.lost events = [] →
    ∃ a ∈ events.findSome? Event.token?, some a = currentRoute events
  metadata : lastUnresolved events = none → TokenDetail.lost events = [] →
    ∀ a ∈ events.findSome? Event.metadata?, some a = currentRoute events

/-! ### The page is what they have made it -/

/-- What the state of the page tells of the events so far. -/
structure Recounts (events : List (Event τ μ)) (s : Page τ μ) : Prop where
  address : s.address = currentRoute events
  unresolved : s.unresolved.map Prod.fst = lastUnresolved events
  notFound : s.notFound = lost events
  token : s.token.map Prod.fst = events.findSome? Event.token?
  metadata : s.metadata.map Prod.fst = events.findSome? Event.metadata?
  /-- With an error the page is not found. -/
  error : s.notFound = [] → s.error = none

variable {s s' : Page τ μ} {hasMetadata : τ → Bool} {loadError : String} {e : Event τ μ}
  {events : List (Event τ μ)} {address : Option Address}

/-- An event that does not start loading is one more since the last that did. -/
theorem sinceLoading_cons (h : e.startsLoading = false) :
    sinceLoading (e :: events) = e :: sinceLoading events := by
  rw [sinceLoading, List.takeWhile_cons_of_pos (by rw [h]; rfl), sinceLoading]

theorem sinceLoading_cons_of_valid (h : e.startsLoading = true) : sinceLoading (e :: events) = [] := by
  rw [sinceLoading, List.takeWhile_cons_of_neg]
  rw [h]
  exact Bool.false_ne_true

/-- What the history says of the page holds on another route. -/
theorem Recounts.load (h : Recounts events s) : Recounts (.route address :: events) (s.load address) := by
  unfold Page.load
  cases hvalid : validAddress address with
  | none =>
    have hsince : sinceLoading (.route address :: events) = .route address :: sinceLoading events :=
      sinceLoading_cons (by rw [Event.startsLoading, hvalid]; rfl)
    refine ⟨rfl, ?_, ?_, h.token, h.metadata, nofun⟩
    · rw [lastUnresolved, hsince]
      exact h.unresolved
    · rw [lost, hsince]
      exact congrArg (address :: ·) h.notFound
  | some valid =>
    have hsince : sinceLoading (.route address :: events) = [] :=
      sinceLoading_cons_of_valid (by rw [Event.startsLoading, hvalid]; rfl)
    refine ⟨rfl, ?_, ?_, h.token, h.metadata, fun _ => rfl⟩
    · rw [lastUnresolved, hsince]
      rfl
    · rw [lost, hsince]
      rfl

theorem recounts_mounted (address : Option Address) :
    Recounts [.route address] (Page.mounted address : Page τ μ) := by
  have hblank : Recounts [] ({ address := none } : Page τ μ) := ⟨rfl, rfl, rfl, rfl, rfl, fun _ => rfl⟩
  exact hblank.load

/-- **Every step tells one more event.** -/
theorem Recounts.step (h : Recounts events s) :
    Recounts (e :: events) (s.step hasMetadata loadError e) := by
  cases e with
  | route address => exact h.load
  | unresolved address message => exact ⟨h.address, rfl, h.notFound, h.token, h.metadata, h.error⟩
  | resolved address info =>
    unfold Page.step
    dsimp only
    split_ifs
    · exact ⟨h.address, h.unresolved, h.notFound, rfl, h.metadata, h.error⟩
    · exact ⟨h.address, h.unresolved, h.notFound, rfl, h.metadata, h.error⟩
  | rejected address message =>
    exact ⟨h.address, h.unresolved, congrArg (some address :: ·) h.notFound, h.token, h.metadata, nofun⟩
  | metadata address result =>
    cases result with
    | ok metadata => exact ⟨h.address, h.unresolved, h.notFound, h.token, rfl, h.error⟩
    | error message => exact ⟨h.address, h.unresolved, h.notFound, h.token, h.metadata, h.error⟩

/-- The page tells every run. -/
theorem recounts_of_run (hrun : Run (Page.Step hasMetadata loadError) (.mounted address) events s) :
    Recounts (events ++ [.route address]) s := by
  induction hrun with
  | nil => exact recounts_mounted address
  | snoc _ hstep ih =>
    obtain ⟨-, rfl⟩ := hstep
    exact ih.step

/-! ### What the page shows -/

/-- It has stopped loading once no request is on its way. -/
def Stops (s : Page τ μ) : Prop := s.requests = [] → s.loading = false

theorem stops_load : Stops (s.load address) := by
  unfold Page.load
  split
  · exact fun _ => rfl
  · exact fun hnone => absurd hnone (List.append_ne_nil_of_right_ne_nil _ (List.cons_ne_nil _ _))

/-- After every event the page loads only while a request is on its way. -/
theorem stops_step : Stops (s.step hasMetadata loadError e) := by
  cases e with
  | route address => exact stops_load
  | unresolved address message => exact fun _ => rfl
  | resolved address info =>
    unfold Page.step
    dsimp only
    split_ifs
    · -- the metadata is asked for
      exact fun hnone => absurd hnone (List.append_ne_nil_of_right_ne_nil _ (List.cons_ne_nil _ _))
    · exact fun _ => rfl
  | rejected address message => exact fun _ => rfl
  | metadata address result =>
    cases result with
    | ok metadata => exact fun _ => rfl
    | error message => exact fun _ => rfl

theorem stops_of_run (hrun : Run (Page.Step hasMetadata loadError) (.mounted address) events s) :
    Stops s := by
  cases hrun with
  | nil => exact stops_load
  | snoc _ hstep =>
    obtain ⟨-, rfl⟩ := hstep
    exact stops_step

/-- What is unresolved is shown before anything else. -/
theorem answersKeep_of_unresolved {a : Address} (hlast : lastUnresolved events = some a) :
    AnswersKeep events ↔ some a = currentRoute events := by
  constructor
  · exact fun h => h.unresolved a hlast
  · intro hsame
    refine ⟨fun other hother => ?_, fun hnone => ?_, fun hnone => ?_, fun hnone => ?_⟩
    · rw [hlast] at hother
      obtain rfl := Option.some.inj hother
      exact hsame
    all_goals
      rw [hlast] at hnone
      cases hnone

/-- Then what is lost. -/
theorem answersKeep_of_lost (hlast : lastUnresolved events = none) (hlost : lost events ≠ []) :
    AnswersKeep events ↔ currentRoute events ∈ lost events := by
  constructor
  · exact fun h => h.lost hlast hlost
  · refine fun hmem => ⟨fun a ha => ?_, fun _ _ => hmem, fun _ hnil => absurd hnil hlost,
      fun _ hnil => absurd hnil hlost⟩
    rw [hlast] at ha
    cases ha

/-- And the token last. -/
theorem answersKeep_of_token (hlast : lastUnresolved events = none) (hlost : lost events = []) :
    AnswersKeep events ↔ (∃ a ∈ events.findSome? Event.token?, some a = currentRoute events) ∧
      ∀ a ∈ events.findSome? Event.metadata?, some a = currentRoute events := by
  constructor
  · exact fun h => ⟨h.token hlast hlost, h.metadata hlast hlost⟩
  · rintro ⟨htoken, hmetadata⟩
    refine ⟨fun a ha => ?_, fun _ hne => absurd hlost hne, fun _ _ => htoken, fun _ _ => hmetadata⟩
    rw [hlast] at ha
    cases ha

/-- **What the page shows once it has stopped loading.** -/
theorem Recounts.shows_iff (h : Recounts events s) (hloading : s.loading = false) :
    s.Shows ↔ AnswersKeep events := by
  unfold Page.Shows Page.view
  rw [hloading, if_neg Bool.false_ne_true]
  cases hunresolved : s.unresolved with
  | some message =>
    have hlast : lastUnresolved events = some message.1 := by
      rw [← h.unresolved, hunresolved]
      rfl
    rw [answersKeep_of_unresolved hlast, ← h.address]
  | none =>
    have hlast : lastUnresolved events = none := by
      rw [← h.unresolved, hunresolved]
      rfl
    dsimp only
    by_cases hnotFound : s.notFound = []
    · rw [answersKeep_of_token hlast (h.notFound.symm.trans hnotFound), if_neg (not_not.mpr hnotFound),
        ← h.token, ← h.metadata, ← h.address]
      cases htoken : s.token with
      | none =>
        -- the page is not found, but nothing says so of the route
        dsimp only
        rw [hnotFound]
        refine iff_of_false List.not_mem_nil ?_
        rintro ⟨⟨a, ha, -⟩, -⟩
        cases ha
      | some token =>
        dsimp only
        rw [h.error hnotFound]
        simp
    · rw [if_pos hnotFound, answersKeep_of_lost hlast (h.notFound ▸ hnotFound), ← h.notFound, ← h.address]

namespace Page

/-- **The routes and the answers after which the page shows what belongs to its route.** -/
theorem right_iff (hrun : Run (Step hasMetadata loadError) (mounted address) events s) :
    s.Right ↔ (s.requests = [] → AnswersKeep (events ++ [.route address])) := by
  refine forall_congr' fun hrequests => ?_
  exact (recounts_of_run hrun).shows_iff (stops_of_run hrun hrequests)

end Page

/-! ### The three reads and the form -/

/-- **The hooks, the form that burns and the page of a token show what belongs to their keys once no
request is on its way, if and only if the answers that arrive keep to the keys.** -/
theorem keyedReads_iff (τ μ : Type) :
    (∀ key events, Throughout TokenBalance.step KeyedRead.Right (TokenBalance.mounted key) events ↔
      Kept TokenBalance.step TokenBalance.Keeps (TokenBalance.mounted key) events) ∧
    (∀ address (cache : TokenInfo.Cache τ) now events,
      Throughout TokenInfo.step TokenInfo.Right (TokenInfo.mounted address cache now) events ↔
        Kept TokenInfo.step TokenInfo.Keeps (TokenInfo.mounted address cache now) events) ∧
    (∀ initialAddress firstToken accountAddress events,
      Throughout Burn.step Burn.Right (.mounted initialAddress firstToken accountAddress) events ↔
        Kept Burn.step Burn.Keeps (.mounted initialAddress firstToken accountAddress) events) ∧
    ∀ (hasMetadata : τ → Bool) loadError address (events : List (Event τ μ)) s,
      Run (Page.Step hasMetadata loadError) (.mounted address) events s →
        (s.Right ↔ (s.requests = [] → AnswersKeep (events ++ [.route address]))) :=
  ⟨TokenBalance.throughout_shows_iff, TokenInfo.throughout_shows_iff, Burn.throughout_burns_iff,
    fun _ _ _ _ _ => Page.right_iff⟩

/-! ### Two tokens -/

/-- A token. -/
def sampleToken : Address := units "CAAAAAAAAAAAAAAAAAAAAAAAAAAAAAAAAAAAAAAAAAAAAAAAAAAABSC4"

/-- Another token. -/
def otherToken : Address := units "CAIRCEIRCEIRCEIRCEIRCEIRCEIRCEIRCEIRCEIRCEIRCEIRCEIRDB3V"

theorem load_of_valid {a : Address} (hvalid : validAddress (some a) = some a) :
    s.load (some a) =
      { s with
        address := some a
        loading := true
        notFound := []
        unresolved := none
        error := none
        requests := s.requests ++ [.resolveTokenInfo a] } := by
  unfold Page.load
  rw [hvalid]

theorem validAddress_sampleToken : validAddress (some sampleToken) = some sampleToken := by
  decide +kernel

theorem validAddress_otherToken : validAddress (some otherToken) = some otherToken := by
  decide +kernel

/-- The page asks for the token and then for its metadata, and both arrive. -/
theorem run_sampleVisit : Run (Page.Step (fun _ => true) "") (.mounted (some sampleToken))
    [.metadata sampleToken (.ok 7), .resolved sampleToken 1]
    ({ address := some sampleToken
       token := some (sampleToken, 1)
       metadata := some (sampleToken, 7)
       loading := false } : Page ℕ ℕ) := by
  rw [Page.mounted, load_of_valid validAddress_sampleToken]
  exact .snoc (.snoc .nil ⟨by simp [Event.request?], rfl⟩) ⟨by simp [Event.request?, Page.step], rfl⟩

/-- The page shows the token of its route. -/
theorem keyedReads_iff_sampleVisit :
    ({ address := some sampleToken
       token := some (sampleToken, 1)
       metadata := some (sampleToken, 7)
       loading := false } : Page ℕ ℕ).Right := by
  apply ((keyedReads_iff ℕ ℕ).2.2.2 _ _ _ _ _ run_sampleVisit).mpr
  intro _
  -- the effect ran last for this route, and nothing has been lost since
  have hsince : sinceLoading
      [.metadata sampleToken (.ok 7), .resolved sampleToken 1, .route (some sampleToken)] =
        ([.metadata sampleToken (.ok 7), .resolved sampleToken 1] : List (Event ℕ ℕ)) := by
    rw [sinceLoading_cons rfl, sinceLoading_cons rfl, sinceLoading_cons_of_valid]
    rw [Event.startsLoading, validAddress_sampleToken]
    rfl
  refine (answersKeep_of_token ?_ ?_).mpr ⟨⟨sampleToken, rfl, rfl⟩, ?_⟩
  · rw [lastUnresolved, List.cons_append, List.cons_append, List.nil_append, hsince]
    rfl
  · rw [lost, List.cons_append, List.cons_append, List.nil_append, hsince]
    rfl
  · intro a ha
    obtain rfl := Option.some.inj ha
    rfl

/-- The token is changed while the balance of the first one is on its way, and then that arrives. -/
def droppedRequest : List TokenBalance.Event :=
  [.changed ("CTOKENB", "GALICE"), .settled (.ok "1000")]

/-- The same in the form: the timer fires for each of the tokens. -/
def droppedInForm : List Burn.Event :=
  [.debounced, .tokenSelect "CTOKENB", .debounced, .settled (.ok "1000")]

/-- The route is changed while the first token is on its way, and the second one arrives before it. -/
theorem run_late : Run (Page.Step (fun _ => false) "") (.mounted (some sampleToken))
    [.resolved sampleToken 1, .resolved otherToken 2, .route (some otherToken)]
    ({ address := some otherToken
       token := some (sampleToken, 1)
       loading := false } : Page ℕ ℕ) := by
  rw [Page.mounted, load_of_valid validAddress_sampleToken]
  have hne : Request.resolveTokenInfo sampleToken ≠ .resolveTokenInfo otherToken := by decide
  have hturned : Page.Step (fun _ => false) ""
      ({ address := some sampleToken, requests := [.resolveTokenInfo sampleToken] } : Page ℕ ℕ)
      (.route (some otherToken))
      { address := some otherToken
        requests := [.resolveTokenInfo sampleToken, .resolveTokenInfo otherToken] } := by
    refine ⟨nofun, ?_⟩
    rw [Page.step, load_of_valid validAddress_otherToken]
    rfl
  refine .snoc (.snoc (.snoc .nil hturned) ⟨?_, rfl⟩) ⟨?_, ?_⟩
  · simp [Event.request?]
  · simp [Event.request?, Page.step, hne]
  · simp [Page.step, hne]

/-- The balance of the first token stays on display for the second one; Max writes it when the second one
is burned; and the page of the second token shows the first one. -/
theorem not_keyedReads_dropped :
    (¬ ∀ key events,
      Throughout TokenBalance.step KeyedRead.Right (TokenBalance.mounted key) events) ∧
    (¬ ∀ initialAddress firstToken accountAddress events,
      Throughout Burn.step Burn.Right (.mounted initialAddress firstToken accountAddress) events) ∧
    ¬ ∀ (hasMetadata : ℕ → Bool) loadError address (events : List (Event ℕ ℕ)) s,
      Run (Page.Step hasMetadata loadError) (.mounted address) events s → s.Right := by
  refine ⟨fun h => ?_, fun h => ?_, fun h => ?_⟩
  · have hlast := (h ("CTOKENA", "GALICE") droppedRequest).last
    rcases hlast rfl with hsome | ⟨hnone, -⟩
    · revert hsome
      decide
    · cases hnone
  · have hlast := (h "" "CTOKENA" "GALICE" droppedInForm).last
    obtain ⟨-, hmax⟩ := hlast.max rfl
    revert hmax
    decide
  · have hshows : some sampleToken = some otherToken := (h _ _ _ _ _ run_late rfl).1
    revert hshows
    decide

end StellarForge.Frontend.TokenDetail
