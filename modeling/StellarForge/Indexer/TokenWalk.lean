import Mathlib.Data.List.TakeWhile
import StellarForge.Indexer.EventPages

/-!
# Walking through the tokens

A caller follows `nextCursor` from the first page of `listTokens` on, while the store is written to
between two pages.

* `parseCursor_toString`, `pageLimit_clampLimit`: the cursors and limits that arrive in a request;
* `StartKept`: what the writes leave of the tokens that were there at the start;
* `serves_tokens`: the pages are those of keyset pagination;
* `listTokens_walk`: **a walk ends and returns every matching token of the start exactly once, newest
  first, while tokens with larger indices arrive and rows are updated in their places**;
* `not_visitsOnce_sampleMove`: an update that moves a row to another index.
-/

namespace StellarForge.Indexer

open Collections MemoryStore PostgresStore Text

variable {P : Type}

/-! ### Cursors and limits of a request -/

/-- The value of the digits at the head of a text, if there are any. -/
def parseDigits (text : List Char) : Option ℤ :=
  let digits := text.takeWhile Char.isDigit
  if digits = [] then none else some (decimal digits)

/-- `Number.parseInt(raw, 10)`; `none` is `NaN`. -/
def parseInt (raw : String) : Option ℤ :=
  match raw.toList.dropWhile isSpace with
  | '-' :: text => (parseDigits text).map fun n => -n
  | '+' :: text => parseDigits text
  | text => parseDigits text

/-- A query parameter as a cursor; what is no cursor pages from the start. -/
def parseCursor (raw : Option String) : Option ℤ :=
  match raw with
  | none => none
  | some raw => if raw = "" then none else (parseInt raw).filter (0 < ·)

/-- The rows of a page, where no limit is asked for. -/
def DEFAULT_PAGE_LIMIT : ℤ := 20

/-- A query parameter as a limit. -/
def clampLimit (raw : Option String) : ℤ :=
  match raw.bind parseInt with
  | none => DEFAULT_PAGE_LIMIT
  | some n => if n < 1 then DEFAULT_PAGE_LIMIT else min n MAX_PAGE_LIMIT

/-- The store takes a clamped limit as it is. -/
theorem pageLimit_clampLimit (raw : Option String) :
    (pageLimit (clampLimit raw) : ℤ) = clampLimit raw := by
  have hrange : 1 ≤ clampLimit raw ∧ clampLimit raw ≤ MAX_PAGE_LIMIT := by
    rw [clampLimit]
    split
    · decide
    · split_ifs with hn
      · decide
      · exact ⟨le_min (not_lt.mp hn) (by decide), min_le_right ..⟩
  rw [pageLimit, max_eq_left hrange.1, min_eq_left hrange.2]
  omega

theorem isDigit_of_mem_toString {n : ℕ} {c : Char} (h : c ∈ (toString n).toList) :
    c.isDigit = true :=
  Nat.isDigit_of_mem_toDigits (by decide) (by decide) (Nat.toList_repr ▸ h)

theorem isSpace_of_isDigit {c : Char} (h : c.isDigit = true) : isSpace c = false := by
  have hval : 48 ≤ c.val.toNat ∧ c.val.toNat ≤ 57 := by
    simpa [Char.isDigit, UInt32.le_iff_toNat_le] using h
  rw [isSpace, Bool.or_eq_false_iff, decide_eq_false_iff_not, Bool.and_eq_false_iff,
    decide_eq_false_iff_not, UInt32.le_iff_toNat_le]
  constructor
  · intro hmem
    have hmem' := List.mem_map_of_mem (f := UInt32.toNat) hmem
    simp only [List.map_cons, List.map_nil, UInt32.reduceToNat, List.mem_cons, List.not_mem_nil,
      or_false] at hmem'
    omega
  · left
    have hlow : (0x2000 : UInt32).toNat = 8192 := rfl
    omega

/-- A number is read back from its text. -/
theorem parseInt_toString (n : ℕ) : parseInt (toString n) = some (n : ℤ) := by
  have hlist : (toString n).toList = Nat.toDigits 10 n := Nat.toList_repr
  have hdigits : parseDigits (toString n).toList = some (n : ℤ) := by
    rw [parseDigits, List.takeWhile_eq_self_iff.mpr fun c => isDigit_of_mem_toString, hlist,
      decimal_toDigits, if_neg Nat.toDigits_ne_nil]
  -- the text starts with a digit, so neither with a space nor with a sign
  rw [parseInt]
  rcases htext : (toString n).toList with _ | ⟨c, text⟩
  · exact absurd (hlist.symm.trans htext) Nat.toDigits_ne_nil
  · have hdigit : c.isDigit = true := by
      apply isDigit_of_mem_toString (n := n)
      rw [htext]
      exact List.mem_cons_self
    rw [List.dropWhile_cons_of_neg (by rw [isSpace_of_isDigit hdigit]; exact Bool.false_ne_true)]
    rw [htext] at hdigits
    split
    · next heq =>
      rw [(List.cons.inj heq).1] at hdigit
      exact absurd hdigit (by decide)
    · next heq =>
      rw [(List.cons.inj heq).1] at hdigit
      exact absurd hdigit (by decide)
    · exact hdigits

theorem toString_ne_empty (n : ℕ) : toString n ≠ "" := by
  intro h
  have hlist : (toString n).toList = Nat.toDigits 10 n := Nat.toList_repr
  rw [h] at hlist
  exact Nat.toDigits_ne_nil hlist.symm

/-- The route reads the cursor of a page back, if it is positive. -/
theorem parseCursor_toString {n : ℕ} (hn : 0 < n) :
    parseCursor (some (toString n)) = some (n : ℤ) := by
  rw [parseCursor, if_neg (toString_ne_empty n), parseInt_toString, Option.filter_some, if_pos]
  exact decide_eq_true (Int.natCast_pos.mpr hn)

/-! ### Writing between two pages -/

/-- Two rows of one token, at one index and with one creator. -/
structure SameToken (row row' : IndexedToken) : Prop where
  address : row'.address = row.address
  tokenIndex : row'.tokenIndex = row.tokenIndex
  creator : row'.creator = row.creator

/-- A row updates a token of the start in its place, or is a token with a larger index. -/
def Admissible (start : Keyed IndexedToken.address) (token : IndexedToken) : Prop :=
  (∃ row ∈ start.records, SameToken row token) ∨
    ∀ row ∈ start.records, row.address ≠ token.address ∧ row.tokenIndex < token.tokenIndex

theorem Admissible.withUri {start : Keyed IndexedToken.address} {token : IndexedToken}
    (h : Admissible start token) (metadataUri : Option String) :
    Admissible start { token with metadataUri } := by
  rcases h with ⟨row, hrow, hsame⟩ | hlarger
  · exact .inl ⟨row, hrow, hsame.address, hsame.tokenIndex, hsame.creator⟩
  · exact .inr hlarger

/-- An operation writes admissible rows only. -/
def StoreOp.Admissible (start : Keyed IndexedToken.address) : StoreOp P → Prop
  | .upsertTokens tokens => ∀ token ∈ tokens, Indexer.Admissible start token
  | _ => True

/-- The tokens of the start are still there, and the other ones have larger indices. -/
structure StartKept (start tokens : Keyed IndexedToken.address) : Prop where
  stays : ∀ row ∈ start.records, ∃ row' ∈ tokens.records, SameToken row row'
  admissible : ∀ row' ∈ tokens.records, Admissible start row'

namespace StartKept

variable {start tokens : Keyed IndexedToken.address} {token : IndexedToken}

theorem refl (start : Keyed IndexedToken.address) : StartKept start start where
  stays row hrow := ⟨row, hrow, rfl, rfl, rfl⟩
  admissible row hrow := .inl ⟨row, hrow, rfl, rfl, rfl⟩

theorem set (h : StartKept start tokens) (htoken : Admissible start token) :
    StartKept start (tokens.set token) where
  stays row hrow := by
    obtain ⟨row', hrow', hsame⟩ := h.stays row hrow
    by_cases haddress : row'.address = token.address
    · refine ⟨token, Keyed.mem_set.mpr (.inl rfl), ?_⟩
      rcases htoken with ⟨row₀, hrow₀, hsame₀⟩ | hlarger
      · -- the row of the start that is updated is this one
        have hrows : row₀ = row := Keyed.eq_of_key_eq hrow₀ hrow
          (hsame₀.address.symm.trans (haddress.symm.trans hsame.address))
        rwa [hrows] at hsame₀
      · exact absurd (hsame.address.symm.trans haddress) (hlarger row hrow).1
    · exact ⟨row', Keyed.mem_set.mpr (.inr ⟨hrow', haddress⟩), hsame⟩
  admissible row' hrow' := by
    rcases Keyed.mem_set.mp hrow' with rfl | ⟨hrow', -⟩
    · exact htoken
    · exact h.admissible row' hrow'

theorem upsertToken (h : StartKept start tokens) (htoken : Admissible start token) :
    StartKept start (MemoryTokenStore.upsertToken tokens token) :=
  h.set (htoken.withUri _)

theorem setMetadataUri (h : StartKept start tokens) (address uri : String) :
    StartKept start (MemoryTokenStore.setMetadataUri tokens address uri) := by
  rw [MemoryTokenStore.setMetadataUri]
  rcases hfind : tokens.find? address with _ | existing
  · exact h
  · have hexisting := (Keyed.find?_eq_some.mp hfind).1
    exact h.set ((h.admissible existing hexisting).withUri (some uri))

end StartKept

/-! ### Either store -/

/-- The two stores. -/
inductive Backend (P : Type)
  | memory (localeCompare : Collation)
  | postgres (db : Database P)

namespace Backend

/-- What a store of this kind holds. -/
def State : Backend P → Type
  | memory _ => MemoryStore P
  | postgres _ => PostgresStore P

/-- One operation: its answer, `none` where it rejects, and the store after it. -/
def step : (backend : Backend P) → backend.State → StoreOp P → Option (Answer P) × backend.State
  | memory localeCompare, (store : MemoryStore P), op =>
    (some (store.step localeCompare op).1, (store.step localeCompare op).2)
  | postgres db, (store : PostgresStore P), op => store.step db op

/-- Its rows. -/
def tokens : (backend : Backend P) → backend.State → Keyed IndexedToken.address
  | memory _, (store : MemoryStore P) => store.tokens
  | postgres _, (store : PostgresStore P) => store.tokens.toKeyed

/-- What a listing by a creator that goes down from the rows asks of the columns: the creator is a text of
the database, and the indices are integers. -/
def Lists (start : Keyed IndexedToken.address) (creator : Option String) : Backend P → Prop
  | memory _ => True
  | postgres db => (∀ text ∈ creator.filter (· ≠ ""), db.text text) ∧
    ∀ row ∈ start.records, integer row.tokenIndex

end Backend

section

variable {start : Keyed IndexedToken.address} {db : Database P}

theorem kept_foldl_upsertRow {store : MemoryStore P} {tokens : List IndexedToken}
    (htokens : ∀ token ∈ tokens, Admissible start token) (h : StartKept start store.tokens) :
    StartKept start (tokens.foldl upsertRow store).tokens := by
  induction tokens generalizing store with
  | nil => exact h
  | cons token tokens ih =>
    rw [List.forall_mem_cons] at htokens
    exact ih htokens.2 (h.upsertToken htokens.1)

/-- What every statement of a list keeps is kept up to the first that fails. -/
theorem each_keeps {α : Type} {statement : PostgresStore P → α → Option (PostgresStore P)}
    {I : PostgresStore P → Prop} {xs : List α} {rows : PostgresStore P}
    (hstep : ∀ x ∈ xs, ∀ rows rows', I rows → statement rows x = some rows' → I rows') (h : I rows) :
    I (each statement rows xs).2 := by
  induction xs generalizing rows with
  | nil => exact h
  | cons x xs ih =>
    rw [List.forall_mem_cons] at hstep
    rw [each]
    rcases hx : statement rows x with _ | rows'
    · exact h
    · exact ih hstep.2 (hstep.1 rows rows' h hx)

theorem kept_insertToken {token : IndexedToken} {rows rows' : PostgresStore P}
    (htoken : Admissible start token) (h : StartKept start rows.tokens.toKeyed)
    (hrun : insertToken db rows token = some rows') : StartKept start rows'.tokens.toKeyed := by
  rw [insertToken] at hrun
  split_ifs at hrun
  obtain ⟨table, hput, rfl⟩ := Option.map_eq_some_iff.mp hrun
  show StartKept start table.toKeyed
  rw [(Table.put_eq_some.mp hput).2]
  exact h.set (htoken.withUri _)

theorem kept_updateMetadataUri {rows rows' : PostgresStore P} {address uri : String}
    (h : StartKept start rows.tokens.toKeyed) (hrun : rows.updateMetadataUri address uri = some rows') :
    StartKept start rows'.tokens.toKeyed := by
  rw [updateMetadataUri] at hrun
  split at hrun
  · obtain rfl := Option.some.inj hrun
    exact h
  · next row hfind =>
    obtain ⟨table, hput, rfl⟩ := Option.map_eq_some_iff.mp hrun
    have hrow := (Keyed.find?_eq_some.mp hfind).1
    show StartKept start table.toKeyed
    rw [(Table.put_eq_some.mp hput).2]
    exact h.set ((h.admissible row hrow).withUri (some uri))

theorem kept_memory {le : Collation} {store : MemoryStore P} {op : StoreOp P}
    (hop : op.Admissible start) (h : StartKept start store.tokens) :
    StartKept start (store.step le op).2.tokens := by
  cases op with
  | upsertTokens tokens => exact kept_foldl_upsertRow hop h
  | setMetadataUri address uri => exact h.setMetadataUri address uri
  | upsertEvents events =>
    have htokens (store : MemoryStore P) : (events.foldl upsertEvent store).tokens = store.tokens := by
      induction events generalizing store with
      | nil => rfl
      | cons event events ih => exact ih trivial (store.upsertEvent event)
    show StartKept start (events.foldl upsertEvent store).tokens
    rw [htokens store]
    exact h
  | _ => exact h

theorem kept_postgres {rows : PostgresStore P} {op : StoreOp P} (hop : op.Admissible start)
    (h : StartKept start rows.tokens.toKeyed) : StartKept start (rows.step db op).2.tokens.toKeyed := by
  -- only the first two operations write tokens
  cases op with
  | upsertTokens tokens =>
    exact each_keeps (I := fun rows => StartKept start rows.tokens.toKeyed)
      (fun token htoken _ _ hrows => kept_insertToken (hop token htoken) hrows) h
  | setMetadataUri address uri =>
    rw [PostgresStore.step]
    split_ifs with htext
    · split
      · exact h
      · next rows' hupdate => exact kept_updateMetadataUri h hupdate
    · exact h
  | saveState patch =>
    rw [PostgresStore.step]
    split_ifs
    · exact h
    · exact h
    · exact h
  | upsertEvents events =>
    refine each_keeps (I := fun rows => StartKept start rows.tokens.toKeyed)
      (fun event _ rows rows' hrows hrun => ?_) h
    rw [insertEvent] at hrun
    split_ifs at hrun
    obtain ⟨payload, -, rfl⟩ := Option.map_eq_some_iff.mp hrun
    exact hrows
  | _ => exact h

/-- **An admissible operation** leaves the tokens of the start where they are. -/
theorem kept_step (backend : Backend P) {store : backend.State} {op : StoreOp P}
    (hop : op.Admissible start) (h : StartKept start (backend.tokens store)) :
    StartKept start (backend.tokens (backend.step store op).2) := by
  cases backend with
  | memory le => exact kept_memory hop h
  | postgres db => exact kept_postgres hop h

/-- A listing is answered by the rows of the store. -/
theorem listTokens_step (backend : Backend P) {store : backend.State} {options : ListTokensOptions}
    (hlists : backend.Lists start options.creator)
    (hcursor : ∀ cursor ∈ options.cursor, ∃ row ∈ start.records,
      0 ≤ cursor ∧ cursor ≤ row.tokenIndex) :
    (backend.step store (.listTokens options)).1 =
      some (.tokens (listing IndexedToken.tokenIndex (pageLimit options.limit)
        (tokenRows (backend.tokens store).records options))) := by
  cases backend with
  | memory le => rfl
  | postgres db =>
    -- a cursor is at most the index of a row, which fits its column
    have hparameters : (∀ text ∈ options.creator.filter (· ≠ ""), db.text text) ∧
        ∀ cursor ∈ options.cursor, integer cursor := by
      refine ⟨hlists.1, fun cursor hmem => ?_⟩
      obtain ⟨row, hrow, hlow, hhigh⟩ := hcursor cursor hmem
      have hinteger := hlists.2 row hrow
      rw [integer] at hinteger ⊢
      omega
    have hanswer (rows : PostgresStore P) : (rows.step db (.listTokens options)).1 =
        some (.tokens (listing IndexedToken.tokenIndex (pageLimit options.limit)
          (tokenRows rows.tokens.records options))) := by
      rw [PostgresStore.step, query_fits hparameters, selectTokens, listing_take]
    exact hanswer store

/-! ### The rows of a listing -/

variable {tokens : Keyed IndexedToken.address} {token : IndexedToken} {options : ListTokensOptions}

theorem mem_tokenRows : token ∈ tokenRows tokens.records options ↔
    token ∈ tokens.records ∧ byCreator options.creator token = true ∧
      below options.cursor token.tokenIndex = true := by
  rw [tokenRows, List.mem_mergeSort, List.mem_filter, List.mem_filter, and_assoc]

theorem sorted_tokenRows : (tokenRows tokens.records options).Pairwise fun a b =>
    b.tokenIndex ≤ a.tokenIndex := by
  apply pairwise_mergeSort
  · exact fun a b h => of_decide_eq_true h
  · exact fun a b h => (lt_of_not_ge (of_decide_eq_false (Bool.eq_false_of_not_eq_true h))).le

/-- Rows of tokens of the start go down strictly, where the start has different indices. -/
theorem strict_tokenRows (hdistinct : (start.records.map IndexedToken.tokenIndex).Nodup)
    (hrows : ∀ token ∈ tokenRows tokens.records options, ∃ row ∈ start.records, SameToken row token) :
    (tokenRows tokens.records options).Pairwise fun a b => b.tokenIndex < a.tokenIndex := by
  have hnodup : (tokenRows tokens.records options).Nodup := by
    apply (List.mergeSort_perm _ _).nodup_iff.mpr
    exact (tokens.nodup_records.filter _).filter _
  refine (sorted_tokenRows.and hnodup).imp_of_mem ?_
  rintro a b ha hb ⟨hle, hne⟩
  refine lt_of_le_of_ne hle fun hindex => hne ?_
  -- rows of one index are rows of one token, so one row
  obtain ⟨row, hrow, hsame⟩ := hrows a ha
  obtain ⟨row', hrow', hsame'⟩ := hrows b hb
  have hone : row' = row := List.inj_on_of_nodup_map hdistinct hrow' hrow
    (hsame'.tokenIndex.symm.trans (hindex.trans hsame.tokenIndex))
  apply Keyed.eq_of_key_eq (mem_tokenRows.mp ha).1 (mem_tokenRows.mp hb).1
  rw [hsame.address, hsame'.address, hone]

end

/-! ### The walk -/

/-- The request for the tokens from a `nextCursor` on. -/
def tokensFrom (read : Option String → Option ℤ) (creator : Option String) (limit : ℤ)
    (cursor : Option String) : StoreOp P :=
  .listTokens { creator, cursor := read cursor, limit }

/-- The page of tokens that an answer is. -/
def Answer.tokenPage : Answer P → Option (Page String IndexedToken)
  | .tokens listing => some listing.page
  | _ => none

/-- The pages of tokens that a store answers, request by request. -/
def tokenPages (backend : Backend P) (stores : ℕ → backend.State) (read : Option String → Option ℤ)
    (creator : Option String) (limit : ℤ) : ℕ → Option String → Option (Page String IndexedToken) :=
  fun i cursor =>
    (backend.step (stores i) (tokensFrom read creator limit cursor)).1.bind Answer.tokenPage

/-- The cursor of the next request of the scheduled job. -/
def cursorNumber (cursor : Option String) : Option ℤ := cursor.map fun text => (number text : ℤ)

/-- Following the cursor from the first page on ends with a page without a cursor, goes down strictly,
and returns every matching token of the start exactly once. -/
def VisitsOnce (backend : Backend P) (stores : ℕ → backend.State) (read : Option String → Option ℤ)
    (creator : Option String) (limit : ℤ) : Prop :=
  ∃ pages, Walk (tokenPages backend stores read creator limit) 0 none pages ∧
    (pages.flatten.Pairwise fun a b => b.tokenIndex < a.tokenIndex) ∧
    (pages.flatten.map IndexedToken.address).Perm
      (((backend.tokens (stores 0)).records.filter (byCreator creator)).map IndexedToken.address)

/-- The store after some operations. -/
def Backend.run (backend : Backend P) (store : backend.State) (ops : List (StoreOp P)) :
    backend.State :=
  ops.foldl (fun store op => (backend.step store op).2) store

/-- The stores of a walk: what is written between two pages is admissible. -/
def Writes (backend : Backend P) (stores : ℕ → backend.State) : Prop :=
  ∀ i, ∃ ops : List (StoreOp P), (∀ op ∈ ops, op.Admissible (backend.tokens (stores 0))) ∧
    stores (i + 1) = backend.run (stores i) ops

section

variable {backend : Backend P} {stores : ℕ → backend.State} {read : Option String → Option ℤ}
  {creator : Option String} {limit : ℤ}

theorem kept_run {start : Keyed IndexedToken.address} {store : backend.State} {ops : List (StoreOp P)}
    (hops : ∀ op ∈ ops, op.Admissible start) (h : StartKept start (backend.tokens store)) :
    StartKept start (backend.tokens (backend.run store ops)) := by
  induction ops generalizing store with
  | nil => exact h
  | cons op ops ih =>
    rw [List.forall_mem_cons] at hops
    exact ih hops.2 (kept_step backend hops.1 h)

theorem kept_of_writes (h : Writes backend stores) (i : ℕ) :
    StartKept (backend.tokens (stores 0)) (backend.tokens (stores i)) := by
  induction i with
  | zero => exact StartKept.refl _
  | succ i ih =>
    obtain ⟨ops, hops, hstore⟩ := h i
    rw [hstore]
    exact kept_run hops ih

/-- The rows beneath an index at the `i`-th request. -/
def rowsAt (backend : Backend P) (stores : ℕ → backend.State) (creator : Option String) (limit : ℤ)
    (i : ℕ) (cursor : Option ℕ) : List IndexedToken :=
  tokenRows (backend.tokens (stores i)).records
    { creator, cursor := cursor.map fun n : ℕ => (n : ℤ), limit }

theorem mem_rowsAt {i : ℕ} {cursor : Option ℕ} {token : IndexedToken} :
    token ∈ rowsAt backend stores creator limit i cursor ↔
      token ∈ (backend.tokens (stores i)).records ∧ byCreator creator token = true ∧
        ∀ n ∈ cursor, token.tokenIndex < n := by
  rw [rowsAt, mem_tokenRows]
  cases cursor with
  | none => simp [below]
  | some n => simp [below]

/-- The requests of a walk start from an index of the start, and see tokens of the start only. -/
theorem sameToken_of_asked (h : Writes backend stores) {i : ℕ} {cursor : Option ℕ}
    (hasked : Asked IndexedToken.tokenIndex (rowsAt backend stores creator limit) i cursor) :
    (∀ n ∈ cursor, ∃ row ∈ (backend.tokens (stores 0)).records, row.tokenIndex = n) ∧
      ∀ token ∈ rowsAt backend stores creator limit i cursor,
        ∃ row ∈ (backend.tokens (stores 0)).records, SameToken row token := by
  induction hasked with
  | first =>
    refine ⟨fun n hn => ?_, fun token htoken => ⟨token, (mem_rowsAt.mp htoken).1, rfl, rfl, rfl⟩⟩
    cases hn
  | @next i cursor z _ hz ih =>
    obtain ⟨row, hrow, hsame⟩ := ih.2 z hz
    refine ⟨fun n hn => ⟨row, hrow, ?_⟩, fun token htoken => ?_⟩
    · rw [← Option.some.inj hn, hsame.tokenIndex]
    · obtain ⟨hmem, -, hbeneath⟩ := mem_rowsAt.mp htoken
      rcases (kept_of_writes h (i + 1)).admissible token hmem with hstart | hlarger
      · exact hstart
      · -- a token that has arrived lies above the cursor
        have hlt := hbeneath z.tokenIndex rfl
        rw [hsame.tokenIndex] at hlt
        exact absurd (hlarger row hrow).2 hlt.not_gt

/-- The pages are those of keyset pagination over the indices. -/
theorem serves_tokens (limit : ℤ) (h : Writes backend stores)
    (hlists : backend.Lists (backend.tokens (stores 0)) creator)
    (hread : ∀ cursor : Option ℕ, (∀ n ∈ cursor, 0 < n) →
      read (cursor.map fun n => toString n) = cursor.map fun n : ℕ => (n : ℤ))
    (hpositive : ∀ row ∈ (backend.tokens (stores 0)).records, 0 < row.tokenIndex) :
    Serves (fun n : ℕ => toString n) IndexedToken.tokenIndex (pageLimit limit)
      (rowsAt backend stores creator limit) (tokenPages backend stores read creator limit) where
  size_pos := pageLimit_pos limit
  sorted _ _ := sorted_tokenRows
  beneath _ n token hmem := (mem_rowsAt.mp hmem).2.2 n rfl
  fetch_eq {i cursor} hasked := by
    obtain ⟨hcursor, -⟩ := sameToken_of_asked h hasked
    rw [tokenPages, tokensFrom, hread cursor]
    · rw [listTokens_step backend hlists]
      · rfl
      · intro c hc
        obtain ⟨n, hn, rfl⟩ := Option.map_eq_some_iff.mp hc
        obtain ⟨row, hrow, hindex⟩ := hcursor n hn
        exact ⟨row, hrow, Int.natCast_nonneg n, by rw [hindex]⟩
    · intro n hn
      obtain ⟨row, hrow, rfl⟩ := hcursor n hn
      exact hpositive row hrow

theorem strict_rowsAt (h : Writes backend stores)
    (hdistinct : ((backend.tokens (stores 0)).records.map IndexedToken.tokenIndex).Nodup)
    {i : ℕ} {cursor : Option ℕ}
    (hasked : Asked IndexedToken.tokenIndex (rowsAt backend stores creator limit) i cursor) :
    (rowsAt backend stores creator limit i cursor).Pairwise fun a b => b.tokenIndex < a.tokenIndex :=
  strict_tokenRows hdistinct (sameToken_of_asked h hasked).2

/-- A token of the start that matches is among the rows as long as the cursor is above it. -/
theorem stays_rowsAt (h : Writes backend stores) {row : IndexedToken}
    (hrow : row ∈ (backend.tokens (stores 0)).records) (hcreator : byCreator creator row = true)
    (j : ℕ) (cursor : Option ℕ) (hcursor : ∀ m ∈ cursor, row.tokenIndex < m) :
    ∃ token ∈ rowsAt backend stores creator limit j cursor,
      (SameToken row token ∧ token ∈ (backend.tokens (stores j)).records) ∧
        token.tokenIndex = row.tokenIndex := by
  obtain ⟨token, hmem, hsame⟩ := (kept_of_writes h j).stays row hrow
  refine ⟨token, mem_rowsAt.mpr ⟨hmem, ?_, ?_⟩, ⟨hsame, hmem⟩, hsame.tokenIndex⟩
  · rw [byCreator, hsame.creator]
    exact hcreator
  · rw [hsame.tokenIndex]
    exact hcursor

/-- **A walk** ends, and visits the matching tokens of the start once each. -/
theorem visitsOnce_of_writes (h : Writes backend stores)
    (hlists : backend.Lists (backend.tokens (stores 0)) creator)
    (hread : ∀ cursor : Option ℕ, (∀ n ∈ cursor, 0 < n) →
      read (cursor.map fun n => toString n) = cursor.map fun n : ℕ => (n : ℤ))
    (hdistinct : ((backend.tokens (stores 0)).records.map IndexedToken.tokenIndex).Nodup)
    (hpositive : ∀ row ∈ (backend.tokens (stores 0)).records, 0 < row.tokenIndex) :
    VisitsOnce backend stores read creator limit := by
  have hserves := serves_tokens limit h hlists hread hpositive
  obtain ⟨pages, hw⟩ := hserves.exists_walk (c := none) .first
  have hstrict := hserves.strict_walk (fun hasked => strict_rowsAt h hdistinct hasked) (c := none)
    hw .first
  have hvisited : ∀ token ∈ pages.flatten, byCreator creator token = true ∧
      ∃ row ∈ (backend.tokens (stores 0)).records, SameToken row token := by
    intro token hmem
    obtain ⟨j, cursor, hasked, hrow⟩ := hserves.mem_rows_of_mem (c := none) hw .first hmem
    exact ⟨(mem_rowsAt.mp hrow).2.1, (sameToken_of_asked h hasked).2 token hrow⟩
  refine ⟨pages, hw, hstrict, ?_⟩
  rw [List.perm_ext_iff_of_nodup]
  · intro address
    rw [List.mem_map, List.mem_map]
    constructor
    · rintro ⟨token, hmem, rfl⟩
      obtain ⟨hcreator, row, hrow, hsame⟩ := hvisited token hmem
      refine ⟨row, List.mem_filter.mpr ⟨hrow, ?_⟩, hsame.address.symm⟩
      rw [byCreator, ← hsame.creator]
      exact hcreator
    · rintro ⟨row, hrow, rfl⟩
      obtain ⟨hrow, hcreator⟩ := List.mem_filter.mp hrow
      obtain ⟨j, -, -, token, hmem, ⟨hsame, -⟩, -⟩ :=
        hserves.mem_walk (fun hasked => strict_rowsAt h hdistinct hasked)
          (p := fun j token => SameToken row token ∧ token ∈ (backend.tokens (stores j)).records)
          (c := none) (fun j _ => stays_rowsAt h hrow hcreator j) hw .first nofun
      exact ⟨token, hmem, hsame.address⟩
  · -- two visited rows of one address would be at one index
    apply List.pairwise_map.mpr
    refine hstrict.imp_of_mem fun {a b} ha hb hlt haddress => ?_
    obtain ⟨-, row, hrow, hsame⟩ := hvisited a ha
    obtain ⟨-, row', hrow', hsame'⟩ := hvisited b hb
    have hone : row' = row := Keyed.eq_of_key_eq hrow' hrow
      (hsame'.address.symm.trans (haddress.symm.trans hsame.address))
    rw [hsame.tokenIndex, hsame'.tokenIndex, hone] at hlt
    exact absurd hlt (lt_irrefl _)
  · exact (backend.tokens (stores 0)).nodup.sublist (List.filter_sublist.map _)

end

/-! ### The URIs of the scheduled job -/

/-- The URIs of some rows; an empty one is none. -/
def storedUris (tokens : List IndexedToken) : List String :=
  tokens.filterMap fun token => token.metadataUri.filter (· ≠ "")

/-- The `for (;;)` of `getMetadataUrisFromIndexer` from a request on; `none` when a request rejects or
the fuel is spent. -/
def urisFrom (fetch : ℕ → Option String → Option (Page String IndexedToken)) :
    ℕ → ℕ → Option String → Option (List String)
  | 0, _, _ => none
  | fuel + 1, i, cursor =>
    (fetch i cursor).bind fun page =>
      match page.next.filter (· ≠ "") with
      | none => some (storedUris page.rows)
      | some next => (urisFrom fetch fuel (i + 1) (some next)).map (storedUris page.rows ++ ·)

/-- The URIs that the reference set of the scheduled job is made of. -/
def getMetadataUrisFromIndexer (backend : Backend P) (stores : ℕ → backend.State) (fuel : ℕ) :
    Option (List String) :=
  urisFrom (tokenPages backend stores cursorNumber none 100) fuel 0 none

/-- The cursor of a page is the text of a number, or null. -/
theorem next_listing_ne {α : Type} (cursorOf : α → ℕ) (k : ℕ) (rows : List α) :
    (listing cursorOf k rows).page.next ≠ some "" := by
  intro h
  rw [page_listing, Page.first] at h
  dsimp only at h
  split_ifs at h
  obtain ⟨row, -, hrow⟩ := Option.map_eq_some_iff.mp h
  exact toString_ne_empty _ hrow

theorem next_tokenPages_ne {backend : Backend P} {stores : ℕ → backend.State}
    {read : Option String → Option ℤ} {creator : Option String} {limit : ℤ} {i : ℕ}
    {cursor : Option String} {page : Page String IndexedToken}
    (h : tokenPages backend stores read creator limit i cursor = some page) :
    page.next ≠ some "" := by
  obtain ⟨answer, hanswer, hpage⟩ := Option.bind_eq_some_iff.mp h
  cases backend with
  | memory le =>
    obtain rfl := Option.some.inj hanswer
    obtain rfl := Option.some.inj hpage
    exact next_listing_ne _ _ _
  | postgres db =>
    have hlisting (rows : PostgresStore P)
        (hanswer : (rows.step db (tokensFrom read creator limit cursor)).1 = some answer) :
        ∃ k rows, answer = .tokens (listing IndexedToken.tokenIndex k rows) := by
      rw [tokensFrom, PostgresStore.step, query] at hanswer
      dsimp only at hanswer
      split_ifs at hanswer
      exact ⟨_, _, (Option.some.inj hanswer).symm⟩
    obtain ⟨k, rows, rfl⟩ := hlisting (stores i) hanswer
    obtain rfl := Option.some.inj hpage
    exact next_listing_ne _ _ _

/-- The loop follows the walk: with a request for each page it ends. -/
theorem urisFrom_of_walk {fetch : ℕ → Option String → Option (Page String IndexedToken)} {i : ℕ}
    {cursor : Option String} {pages : List (List IndexedToken)} (hw : Walk fetch i cursor pages)
    (hnext : ∀ {i cursor page}, fetch i cursor = some page → page.next ≠ some "") {fuel : ℕ}
    (hfuel : pages.length ≤ fuel) : urisFrom fetch fuel i cursor = some (storedUris pages.flatten) := by
  induction hw generalizing fuel with
  | last hfetch hlast =>
    obtain ⟨fuel, rfl⟩ := Nat.exists_eq_add_of_le' hfuel
    show (fetch _ _).bind _ = _
    rw [hfetch, Option.bind_some, hlast, Option.filter_none, List.flatten_singleton]
  | @more i cursor page next rest hfetch hmore _ ih =>
    rw [List.length_cons] at hfuel
    obtain ⟨fuel, rfl⟩ := Nat.exists_eq_add_of_le' (Nat.one_le_of_lt hfuel)
    have hne : next ≠ "" := fun h => hnext hfetch (by rw [hmore, h])
    show (fetch i cursor).bind _ = _
    rw [hfetch, Option.bind_some, hmore, Option.filter_some, if_pos (decide_eq_true hne)]
    dsimp only
    rw [ih (Nat.le_of_succ_le_succ hfuel), Option.map_some, List.flatten_cons, storedUris, storedUris,
      storedUris, List.filterMap_append]

theorem read_cursorNumber (cursor : Option ℕ) :
    cursorNumber (cursor.map fun n => toString n) = cursor.map fun n : ℕ => (n : ℤ) := by
  cases cursor with
  | none => rfl
  | some n => exact congrArg some (congrArg Int.ofNat (number_toString n))

theorem read_parseCursor (cursor : Option ℕ) (h : ∀ n ∈ cursor, 0 < n) :
    parseCursor (cursor.map fun n => toString n) = cursor.map fun n : ℕ => (n : ℤ) := by
  cases cursor with
  | none => rfl
  | some n => exact parseCursor_toString (h n rfl)

/-- The loop ends, and has the URI of every token of the start, as it is when its page is read. -/
theorem uris_of_writes {backend : Backend P} {stores : ℕ → backend.State} (h : Writes backend stores)
    (hlists : backend.Lists (backend.tokens (stores 0)) none)
    (hdistinct : ((backend.tokens (stores 0)).records.map IndexedToken.tokenIndex).Nodup)
    (hpositive : ∀ row ∈ (backend.tokens (stores 0)).records, 0 < row.tokenIndex) :
    ∃ uris requests, (∀ fuel ≥ requests, getMetadataUrisFromIndexer backend stores fuel = some uris) ∧
      ∀ row ∈ (backend.tokens (stores 0)).records, ∃ i < requests,
        ∀ uri ∈ MemoryTokenStore.uriOf (backend.tokens (stores i)) row.address,
          uri ≠ "" → uri ∈ uris := by
  have hserves := serves_tokens 100 h hlists (fun cursor _ => read_cursorNumber cursor)
    hpositive
  obtain ⟨pages, hw⟩ := hserves.exists_walk (c := none) .first
  refine ⟨storedUris pages.flatten, pages.length,
    fun fuel hfuel => urisFrom_of_walk hw next_tokenPages_ne hfuel, fun row hrow => ?_⟩
  obtain ⟨j, -, hj, token, hmem, ⟨hsame, hstored⟩, -⟩ :=
    hserves.mem_walk (fun hasked => strict_rowsAt h hdistinct hasked)
      (p := fun j token => SameToken row token ∧ token ∈ (backend.tokens (stores j)).records)
      (c := none) (fun j _ => stays_rowsAt h hrow rfl j) hw .first nofun
  rw [Nat.zero_add] at hj
  refine ⟨j, hj, fun uri huri hne => ?_⟩
  rw [MemoryTokenStore.uriOf, Keyed.find?_eq_some.mpr ⟨hstored, hsame.address⟩,
    Option.bind_some] at huri
  refine List.mem_filterMap.mpr ⟨token, hmem, ?_⟩
  rw [Option.mem_def.mp huri, Option.filter_some, if_pos (decide_eq_true hne)]

/-- **Walking through the tokens**, in either store: while tokens with larger indices arrive and rows
keep their index and creator, following the cursor ends and returns every matching token of the start
exactly once, newest first; the scheduled job gets the URI of every token. -/
theorem listTokens_walk (backend : Backend P) {stores : ℕ → backend.State}
    (hdistinct : ((backend.tokens (stores 0)).records.map IndexedToken.tokenIndex).Nodup)
    (hpositive : ∀ row ∈ (backend.tokens (stores 0)).records, 0 < row.tokenIndex)
    (hwrites : Writes backend stores) :
    (∀ read ∈ [cursorNumber, parseCursor], ∀ creator limit,
      backend.Lists (backend.tokens (stores 0)) creator →
        VisitsOnce backend stores read creator limit) ∧
      (backend.Lists (backend.tokens (stores 0)) none → ∃ uris requests,
        (∀ fuel ≥ requests, getMetadataUrisFromIndexer backend stores fuel = some uris) ∧
        ∀ row ∈ (backend.tokens (stores 0)).records, ∃ i < requests,
          ∀ uri ∈ MemoryTokenStore.uriOf (backend.tokens (stores i)) row.address,
            uri ≠ "" → uri ∈ uris) := by
  constructor
  · intro read hread creator limit hlists
    refine visitsOnce_of_writes hwrites hlists (fun cursor hcursor => ?_) hdistinct hpositive
    rcases List.mem_pair.mp hread with rfl | rfl
    · exact read_cursorNumber cursor
    · exact read_parseCursor cursor hcursor
  · exact fun hlists => uris_of_writes hwrites hlists hdistinct hpositive

/-! ### Two tokens -/

/-- A token without a URI. -/
def sampleToken (address : String) (tokenIndex : ℕ) : IndexedToken where
  address := address
  tokenIndex := tokenIndex
  name := "Token"
  symbol := "TOK"
  decimals := 7
  creator := "GCREATOR"
  createdAt := 1700000000
  metadataUri := none
  source := .backfill

/-- A store with two tokens. -/
def twoTokens : MemoryStore String where
  tokens := ⟨[sampleToken "CSECOND" 2, sampleToken "CFIRST" 1], by decide⟩
  state := {}
  events := .empty

/-- The in-memory store of the samples. -/
def sampleBackend : Backend String := .memory fun a b => decide (a ≤ b)

/-- The stores of a walk that begins with two tokens, with some rows written after its first page. -/
def sampleStores (rows : List IndexedToken) : ℕ → sampleBackend.State
  | 0 => twoTokens
  | _ + 1 => sampleBackend.run twoTokens [.upsertTokens rows]

/-- A row that is moved to a larger index between the pages is never returned. -/
theorem not_visitsOnce_sampleMove : ¬ VisitsOnce sampleBackend
    (sampleStores [sampleToken "CFIRST" 3]) cursorNumber none 1 := by
  rintro ⟨pages, hw, -, hperm⟩
  have hfirst : tokenPages sampleBackend (sampleStores [sampleToken "CFIRST" 3]) cursorNumber none 1 0
      none = some ⟨[sampleToken "CSECOND" 2], some (toString 2)⟩ := by
    have hrows : tokenRows twoTokens.tokens.records
        { creator := none, cursor := cursorNumber none, limit := 1 } =
          [sampleToken "CSECOND" 2, sampleToken "CFIRST" 1] := by
      show List.mergeSort [sampleToken "CSECOND" 2, sampleToken "CFIRST" 1] _ = _
      exact List.mergeSort_of_pairwise (by simp [sampleToken])
    show some (listing IndexedToken.tokenIndex 1 (tokenRows twoTokens.tokens.records _)).page = _
    rw [hrows]
    rfl
  -- the row that is left lies above the cursor now
  have hsecond : tokenPages sampleBackend (sampleStores [sampleToken "CFIRST" 3]) cursorNumber none 1 1
      (some (toString 2)) = some ⟨[], none⟩ := by
    show some (listing IndexedToken.tokenIndex 1 (List.mergeSort [] _)).page = _
    rw [List.mergeSort_nil]
    rfl
  obtain rfl := hw.unique (.more hfirst rfl (.last hsecond rfl))
  have hlength := hperm.length_eq
  exact absurd hlength (by decide)

/-- A token with a larger index arrives, and a row gets its URI. -/
theorem listTokens_walk_sampleStores :
    VisitsOnce sampleBackend (sampleStores [sampleToken "CTHIRD" 3,
      { sampleToken "CFIRST" 1 with metadataUri := some "ipfs://first" }]) parseCursor none 1 := by
  refine (listTokens_walk sampleBackend (by decide) (by decide) fun i => ?_).1 parseCursor
    (by simp) none 1 trivial
  cases i with
  | zero =>
    refine ⟨_, ?_, rfl⟩
    rw [List.forall_mem_singleton, StoreOp.Admissible, List.forall_mem_cons, List.forall_mem_singleton]
    exact ⟨.inr (by decide), .inl ⟨sampleToken "CFIRST" 1, by decide, rfl, rfl, rfl⟩⟩
  | succ i => exact ⟨[], List.forall_mem_nil _, rfl⟩

end StellarForge.Indexer
