import StellarForge.Indexer.Health
import StellarForge.Indexer.TokenWalk

/-!
# The read API of the indexer

`GET /api/tokens` and `GET /api/tokens/:address` over the store of the process.  What a call of the store
comes to is a field of `StoreCalls`, and `Backend.calls` are the calls of the two stores.

* `getTokens_eq_json`: what it takes for the listing to be answered;
* `map_tokenIndex_tokenRows`: the rows of a complete index beneath a cursor, by their numbers.
-/

namespace StellarForge.Indexer

open Collections MemoryStore PostgresStore

variable {P : Type}

/-! ### Requests and responses -/

/-- A query parameter; a repeated one arrives as an array. -/
inductive QueryValue
  | one (value : String)
  | many (values : List String)
  deriving DecidableEq, Repr

/-- First query value only. -/
def firstQueryValue : Option QueryValue → Option String
  | none => none
  | some (.one value) => some value
  | some (.many values) => values.head?

/-- A request of the read API. -/
structure ReadRequest where
  method : Option String
  query : String → Option QueryValue

/-- What a refused request is told. -/
structure ErrorBody where
  error : String
  detail : Option String := none
  authoritative : Option Bool := none
  deriving DecidableEq, Repr

/-- A response: JSON with the status 200, or an error. -/
inductive ReadResponse (B : Type)
  | json (body : B)
  | error (status : ℕ) (body : ErrorBody)
  deriving DecidableEq, Repr

/-- A page of the listing. -/
structure TokensBody where
  tokens : List IndexedToken
  nextCursor : Option String
  indexedAt : Option String
  deriving DecidableEq, Repr

/-- A row, with the time at which the index was current. -/
structure TokenBody extends IndexedToken where
  indexedAt : Option String
  deriving DecidableEq, Repr

/-- `requireMethod` -/
def requireMethod {B : Type} (req : ReadRequest) (method : String) (go : ReadResponse B) :
    ReadResponse B :=
  if req.method = some method then go else .error 405 { error := "Method not allowed" }

/-- Respond 503 for an indexer read failure. -/
def indexerUnavailable {B : Type} (reason : String) : ReadResponse B :=
  .error 503 { error := "Indexer unavailable", detail := some reason }

/-- When the indexed data was last current, or `none` if never; a time that is no date throws. -/
def indexedAtIso (state : IndexerState) : Except String (Option String) :=
  match state.lastLedgerCloseTime with
  | none => .ok none
  | some time => if time = 0 then .ok none else (Health.toISOString time).map some

/-! ### The handlers -/

/-- What the calls of the store come to, which a handler makes. -/
structure StoreCalls where
  getState : Except String IndexerState
  listTokens : ListTokensOptions → Except String (Listing IndexedToken)
  getToken : String → Except String (Option IndexedToken)

/-- The options of a listing that a request asks for. -/
def listOptions (req : ReadRequest) : ListTokensOptions where
  creator := firstQueryValue (req.query "creator")
  cursor := parseCursor (firstQueryValue (req.query "cursor"))
  limit := clampLimit (firstQueryValue (req.query "limit"))

/-- The `try` block of the listing. -/
def tokensBody (store : StoreCalls) (req : ReadRequest) : Except String TokensBody := do
  let state ← store.getState
  let result ← store.listTokens (listOptions req)
  let indexedAt ← indexedAtIso state
  return { tokens := result.rows, nextCursor := result.nextCursor, indexedAt }

/-- `GET /api/tokens` -/
def getTokens (store : StoreCalls) (req : ReadRequest) : ReadResponse TokensBody :=
  requireMethod req "GET" <|
    match tokensBody store req with
    | .ok body => .json body
    | .error reason => indexerUnavailable reason

/-- `GET /api/tokens/:address` -/
def getTokenByAddress (store : StoreCalls) (req : ReadRequest) : ReadResponse TokenBody :=
  requireMethod req "GET" <|
    match (firstQueryValue (req.query "address")).filter (· ≠ "") with
    | none => .error 400 { error := "Missing token address" }
    | some address =>
      match store.getToken address with
      | .error reason => indexerUnavailable reason
      | .ok none => .error 404 { error := "Token not indexed", authoritative := some false }
      | .ok (some token) =>
        match store.getState.bind indexedAtIso with
        | .error reason => indexerUnavailable reason
        | .ok indexedAt => .json { token with indexedAt }

theorem bind_eq_ok {ε α β : Type} {x : Except ε α} {f : α → Except ε β} {b : β} :
    x >>= f = .ok b ↔ ∃ a, x = .ok a ∧ f a = .ok b := by
  rcases x with err | a
  · exact iff_of_false nofun fun ⟨a, ha, _⟩ => nomatch ha
  · constructor
    · exact fun h => ⟨a, rfl, h⟩
    · rintro ⟨a', ha, h⟩
      rwa [← Except.ok.inj ha] at h

/-- A listing is answered when every call of the store is. -/
theorem getTokens_eq_json {store : StoreCalls} {req : ReadRequest} {body : TokensBody} :
    getTokens store req = .json body ↔ req.method = some "GET" ∧ ∃ state result indexedAt,
      store.getState = .ok state ∧ store.listTokens (listOptions req) = .ok result ∧
        indexedAtIso state = .ok indexedAt ∧
        { tokens := result.rows, nextCursor := result.nextCursor, indexedAt } = body := by
  have hbody : tokensBody store req = .ok body ↔ ∃ state result indexedAt,
      store.getState = .ok state ∧ store.listTokens (listOptions req) = .ok result ∧
        indexedAtIso state = .ok indexedAt ∧
        { tokens := result.rows, nextCursor := result.nextCursor, indexedAt } = body := by
    simp only [tokensBody, bind_eq_ok, pure, Except.pure, Except.ok.injEq, exists_and_left]
  rw [getTokens, requireMethod, ← hbody]
  split_ifs with hmethod
  · rw [and_iff_right hmethod]
    rcases tokensBody store req with err | body'
    · exact iff_of_false nofun nofun
    · rw [ReadResponse.json.injEq, Except.ok.injEq]
  · exact iff_of_false nofun fun h => hmethod h.1

/-! ### Either store -/

namespace Backend

/-- A call that is answered gives what `read` takes from the answer, one that rejects throws `reason`. -/
def call {α : Type} (backend : Backend P) (store : backend.State) (op : StoreOp P)
    (read : Answer P → Option α) (reason : String) : Except String α :=
  ((backend.step store op).1.bind read).elim (.error reason) .ok

/-- The calls of a handler; the store may have been written to between the first and the second. -/
def calls (backend : Backend P) (first second : backend.State) (reason : String) : StoreCalls where
  getState := backend.call first .getState (fun | .state state => some state | _ => none) reason
  listTokens options :=
    backend.call second (.listTokens options) (fun | .tokens page => some page | _ => none) reason
  getToken address :=
    backend.call first (.getToken address) (fun | .token token => some token | _ => none) reason

/-- The checkpoint that a store has. -/
def checkpoint : (backend : Backend P) → backend.State → IndexerState
  | memory _, (store : MemoryStore P) => store.state
  | postgres _, (store : PostgresStore P) => store.indexerState.getD {}

/-- The store refuses the cursor of a request, as `INTEGER` has no such number. -/
def Refuses (offset : ℕ) : Backend P → Prop
  | memory _ => False
  | postgres _ => ¬ integer offset

end Backend

section

variable {backend : Backend P} {store first second : backend.State} {reason : String}

theorem call_of_some {α : Type} {op : StoreOp P} {read : Answer P → Option α} {answer : Answer P}
    {a : α} (h : (backend.step store op).1 = some answer) (hread : read answer = some a) :
    backend.call store op read reason = .ok a := by
  rw [Backend.call, h, Option.bind_some, hread]
  rfl

theorem call_of_none {α : Type} {op : StoreOp P} {read : Answer P → Option α}
    (h : (backend.step store op).1 = none) : backend.call store op read reason = .error reason := by
  rw [Backend.call, h]
  rfl

/-- The checkpoint can always be read. -/
theorem calls_getState :
    (backend.calls first second reason).getState = .ok (backend.checkpoint first) := by
  cases backend with
  | memory le => rfl
  | postgres db => rfl

/-- A listing without a creator is refused only for its cursor. -/
theorem calls_listTokens {options : ListTokensOptions} (hcreator : options.creator = none)
    (hcursor : ∀ cursor ∈ options.cursor, ∃ offset : ℕ, cursor = offset ∧ ¬ backend.Refuses offset) :
    (backend.calls first second reason).listTokens options =
      .ok (listing IndexedToken.tokenIndex (pageLimit options.limit)
        (tokenRows (backend.tokens second).records options)) := by
  cases backend with
  | memory le => rfl
  | postgres db =>
    -- both parameters fit their columns
    have hfits : (∀ text ∈ options.creator.filter (· ≠ ""), db.text text) ∧
        ∀ cursor ∈ options.cursor, integer cursor := by
      refine ⟨?_, fun cursor hmem => ?_⟩
      · rw [hcreator]
        exact nofun
      · obtain ⟨offset, rfl, hserves⟩ := hcursor cursor hmem
        exact not_not.mp hserves
    have hanswer (rows : PostgresStore P) : (rows.step db (.listTokens options)).1 =
        some (.tokens (listing IndexedToken.tokenIndex (pageLimit options.limit)
          (tokenRows rows.tokens.records options))) := by
      rw [PostgresStore.step, query_fits hfits, selectTokens, listing_take]
    exact call_of_some (hanswer second) rfl

/-- A cursor that the database has no number for is refused. -/
theorem calls_listTokens_refused {options : ListTokensOptions} {offset : ℕ}
    (hcursor : options.cursor = some (offset : ℤ)) (h : backend.Refuses offset) :
    (backend.calls first second reason).listTokens options = .error reason := by
  cases backend with
  | memory le => exact absurd h id
  | postgres db =>
    have hunfit : ¬ ((∀ text ∈ options.creator.filter (· ≠ ""), db.text text) ∧
        ∀ cursor ∈ options.cursor, integer cursor) := fun hfits => h (hfits.2 offset hcursor)
    have hanswer (rows : PostgresStore P) : (rows.step db (.listTokens options)).1 = none := by
      rw [PostgresStore.step, query, if_neg hunfit]
    exact call_of_none (hanswer second)

end

/-! ### A complete index -/

/-- The rows have the numbers `1`, …, `n`, each of them once. -/
def HoldsUpTo (n : ℕ) (tokens : Keyed IndexedToken.address) : Prop :=
  (tokens.records.map IndexedToken.tokenIndex).Perm (List.range' 1 n)

variable {tokens : Keyed IndexedToken.address} {n i : ℕ}

/-- The numbers of a listing without a creator. -/
theorem exists_tokenRow_iff (h : HoldsUpTo n tokens) (cursor : Option ℕ) (limit : ℤ) :
    (∃ row ∈ tokenRows tokens.records { cursor := cursor.map fun c : ℕ => (c : ℤ), limit },
        row.tokenIndex = i) ↔ 1 ≤ i ∧ i < 1 + cursor.elim n fun c => min n (c - 1) := by
  have hmem : (∃ row ∈ tokens.records, row.tokenIndex = i) ↔ 1 ≤ i ∧ i < 1 + n := by
    rw [← List.mem_map, h.mem_iff, List.mem_range'_1]
  -- the cursor is exclusive
  have hrows : (∃ row ∈ tokenRows tokens.records { cursor := cursor.map fun c : ℕ => (c : ℤ), limit },
      row.tokenIndex = i) ↔ (∃ row ∈ tokens.records, row.tokenIndex = i) ∧ ∀ c ∈ cursor, i < c := by
    constructor
    · rintro ⟨row, hrow, rfl⟩
      obtain ⟨hrow, -, hbelow⟩ := mem_tokenRows.mp hrow
      exact ⟨⟨row, hrow, rfl⟩, fun c hc => by simpa [below, Option.mem_def.mp hc] using hbelow⟩
    · rintro ⟨⟨row, hrow, rfl⟩, hlt⟩
      refine ⟨row, mem_tokenRows.mpr ⟨hrow, rfl, ?_⟩, rfl⟩
      cases cursor with
      | none => rfl
      | some c => simpa [below] using hlt c rfl
  rw [hrows, hmem]
  cases cursor with
  | none => simp
  | some c =>
    simp only [Option.mem_def, Option.some.injEq, forall_eq', Option.elim_some]
    omega

/-- The rows of a listing without a creator go down from below the cursor. -/
theorem map_tokenIndex_tokenRows (h : HoldsUpTo n tokens) (cursor : Option ℕ) (limit : ℤ) :
    (tokenRows tokens.records { cursor := cursor.map fun c : ℕ => (c : ℤ), limit }).map
        IndexedToken.tokenIndex =
      (List.range' 1 (cursor.elim n fun c => min n (c - 1))).reverse := by
  have hdistinct : (tokens.records.map IndexedToken.tokenIndex).Nodup :=
    h.nodup_iff.mpr (List.nodup_range' ..)
  have hsorted : ((tokenRows tokens.records { cursor := cursor.map fun c : ℕ => (c : ℤ), limit }).map
      IndexedToken.tokenIndex).Pairwise (· > ·) := by
    refine List.pairwise_map.mpr (strict_tokenRows hdistinct fun token htoken => ?_)
    exact ⟨token, (mem_tokenRows.mp htoken).1, rfl, rfl, rfl⟩
  have hreversed : (List.range' 1 (cursor.elim n fun c => min n (c - 1))).reverse.Pairwise (· > ·) :=
    List.pairwise_reverse.mpr (List.pairwise_lt_range' ..)
  -- both lists go down strictly, and have the same members
  refine List.Perm.eq_of_pairwise ?_ hsorted hreversed ?_
  · intro a b _ _ hab hba
    omega
  · rw [List.perm_ext_iff_of_nodup (hsorted.imp fun hlt => Nat.ne_of_gt hlt)
      (List.nodup_reverse.mpr (List.nodup_range' ..))]
    intro i
    rw [List.mem_map, List.mem_reverse, List.mem_range'_1, exists_tokenRow_iff h]

end StellarForge.Indexer
