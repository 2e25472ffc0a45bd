import StellarForge.Indexer.Readiness
import StellarForge.Transition.Run

/-!
# What the indexer writes

The rows come from two sources, the creation events and the backfill, and neither says a metadata URI.

* `replay`: the rows after a list of writes;
* `createdTokens_bare`, `getTokenByIndex_bare`: no inserted row has a URI;
* `isSome_find?_replay_iff`: the rows after a list of writes are those that were there and those inserted;
* `Cycle`: one cycle against a server.
-/

namespace StellarForge.Indexer

open Collections Soroban Contract MemoryTokenStore Transition

variable {ws : List Write} {a : String}

/-! ### Writes -/

/-- The rows after a list of writes. -/
def replay (tokens : Keyed IndexedToken.address) (ws : List Write) : Keyed IndexedToken.address :=
  ws.foldl Write.apply tokens

/-- No inserted row carries a metadata URI. -/
def BareRows (ws : List Write) : Prop :=
  ∀ token, Write.upsert token ∈ ws → token.metadataUri = none

theorem getTokenByIndex_bare {rpc : SorobanRpc} {index : ℕ} {token : IndexedToken}
    (hread : getTokenByIndex rpc index = some token) : token.metadataUri = none := by
  simp only [getTokenByIndex, Option.bind_eq_bind, Option.bind_eq_some_iff] at hread
  obtain ⟨info, -, address, -, hrow⟩ := hread
  exact Option.some.inj hrow ▸ rfl

/-- A successful sequence: both parts succeeded. -/
theorem exists_of_bind_ok {α β : Type} {x : Except String α} {f : α → Except String β} {b : β}
    (hbind : x >>= f = .ok b) : ∃ a, x = .ok a ∧ f a = .ok b := by
  rcases x with err | a
  · cases hbind
  · exact ⟨a, rfl, hbind⟩

/-- What a successful `mapM` returns was returned for some element. -/
theorem exists_of_mem_mapM {α β : Type} {f : α → Except String β} :
    ∀ {xs : List α} {ys : List β}, xs.mapM f = .ok ys → ∀ y ∈ ys, ∃ x ∈ xs, f x = .ok y
  | [], ys, hmap, y, hy => by
    obtain rfl : [] = ys := Except.ok.inj hmap
    cases hy
  | x :: xs, ys, hmap, y, hy => by
    rw [List.mapM_cons] at hmap
    rcases hx : f x with err | z
    · rw [hx] at hmap
      cases hmap
    · rcases hxs : xs.mapM f with err | zs
      · rw [hx, hxs] at hmap
        cases hmap
      · rw [hx, hxs] at hmap
        obtain rfl : z :: zs = ys := Except.ok.inj hmap
        rcases List.mem_cons.mp hy with rfl | hy
        · exact ⟨x, List.mem_cons_self .., hx⟩
        · obtain ⟨x', hmem, hx'⟩ := exists_of_mem_mapM hxs y hy
          exact ⟨x', List.mem_cons_of_mem _ hmem, hx'⟩

/-- The rows of the `created` events of a page were read from events of the server. -/
theorem readEvent_of_createdTokens {rpc : SorobanRpc} {cursor : Option String} {page : EventPage}
    (hpage : getEventPage rpc cursor = .ok page) {token : IndexedToken}
    (hmem : token ∈ createdTokens page.events) :
    ∃ raw, readEvent rpc raw = .ok (some (.created token)) := by
  obtain ⟨event, hevent, hcreated⟩ := List.mem_filterMap.mp hmem
  obtain ⟨response, -, hread⟩ := exists_of_bind_ok hpage
  obtain ⟨events, hevents, hresult⟩ := exists_of_bind_ok hread
  have hpageEvents : events.filterMap id = page.events := congrArg EventPage.events
    (Except.ok.inj hresult)
  rw [← hpageEvents] at hevent
  obtain ⟨read, hread, rfl⟩ := List.mem_filterMap.mp hevent
  cases event with
  | metadata => cases hcreated
  | created row =>
    obtain rfl := Option.some.inj hcreated
    obtain ⟨raw, -, hraw⟩ := exists_of_mem_mapM hevents (some (.created row)) hread
    exact ⟨raw, hraw⟩

/-- The rows of the `created` events of a page are bare. -/
theorem createdTokens_bare {rpc : SorobanRpc} {cursor : Option String} {page : EventPage}
    (hpage : getEventPage rpc cursor = .ok page) :
    ∀ token ∈ createdTokens page.events, token.metadataUri = none := by
  intro token hmem
  obtain ⟨raw, hraw⟩ := readEvent_of_createdTokens hpage hmem
  exact (readEvent_created hraw).1

/-! ### What the store has for a token -/

/-- The row of an address has been inserted. -/
def Stored (ws : List Write) (a : String) : Prop :=
  ∃ token, Write.upsert token ∈ ws ∧ token.address = a

theorem replay_concat {tokens : Keyed IndexedToken.address} {w : Write} :
    replay tokens (ws ++ [w]) = w.apply (replay tokens ws) := by
  rw [replay, List.foldl_append, List.foldl_cons, List.foldl_nil, replay]

/-- The rows are those that were there and those that were inserted. -/
theorem isSome_find?_replay_iff {tokens : Keyed IndexedToken.address} :
    ((replay tokens ws).find? a).isSome = true ↔
      (tokens.find? a).isSome = true ∨ Stored ws a := by
  -- the last write decides first: a row that was just stored, or one from before
  induction ws using List.reverseRecOn with
  | nil => simp [replay, Stored]
  | append_singleton ws w ih =>
    rw [replay_concat]
    cases w with
    | upsert token =>
      rw [Write.apply, isSome_find?_upsertToken, Bool.or_eq_true, ih, decide_eq_true_eq]
      constructor
      · rintro (rfl | hbefore | ⟨row, hmem, hrow⟩)
        · exact .inr ⟨token, List.mem_append_right _ (List.mem_singleton_self _), rfl⟩
        · exact .inl hbefore
        · exact .inr ⟨row, List.mem_append_left _ hmem, hrow⟩
      · rintro (hbefore | ⟨row, hmem, rfl⟩)
        · exact .inr (.inl hbefore)
        · rcases List.mem_append.mp hmem with hmem | hmem
          · exact .inr (.inr ⟨row, hmem, rfl⟩)
          · obtain rfl : row = token := by simpa using hmem
            exact .inl rfl
    | setUri address uri =>
      rw [Write.apply, isSome_find?_setMetadataUri, ih]
      -- setting a URI stores no row
      have hstored : Stored (ws ++ [.setUri address uri]) a ↔ Stored ws a := by simp [Stored]
      rw [hstored]

/-! ### Cycles -/

/-- One cycle against the server `rpc`. -/
def Cycle (s : Ingesting) (rpc : SorobanRpc) (s' : Ingesting) : Prop :=
  ∃ result, runIngest rpc s = some (result, s')

/-- A new store. -/
def Ingesting.start : Ingesting := ⟨.empty, []⟩

end StellarForge.Indexer
