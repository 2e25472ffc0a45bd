import StellarForge.Collections.Keyed

/-!
# The token store

`MemoryTokenStore`: the rows by address, in the order of their first insertion, and the checkpoint
of the indexer.
-/

namespace StellarForge.Indexer

open Collections

/-- Which ingest phase produced a row. -/
inductive TokenSource
  | backfill
  | event
  deriving DecidableEq, Repr

/-- A token row as stored by the indexer. -/
structure IndexedToken where
  address : String
  tokenIndex : ℕ
  name : String
  symbol : String
  decimals : ℕ
  creator : String
  createdAt : ℤ
  metadataUri : Option String
  source : TokenSource
  deriving DecidableEq, Repr

/-- The checkpoint. -/
structure IndexerState where
  lastCursor : Option String := none
  lastLedger : Option ℕ := none
  lastLedgerCloseTime : Option ℤ := none
  lastRunAt : Option ℤ := none
  lastError : Option String := none
  backfillComplete : Bool := false
  deriving DecidableEq, Repr

/-- The rows, and the state of the indexer. -/
structure MemoryTokenStore where
  tokens : Keyed IndexedToken.address
  state : IndexerState

namespace MemoryTokenStore

/-- A new store. -/
def empty : MemoryTokenStore := ⟨.empty, {}⟩

/-- The row of an address. -/
def getToken (store : MemoryTokenStore) (address : String) : Option IndexedToken :=
  store.tokens.find? address

/-- Insert or update one row; a metadata URI that is known already is preserved. -/
def upsertToken (tokens : Keyed IndexedToken.address) (token : IndexedToken) :
    Keyed IndexedToken.address :=
  let existing := tokens.find? token.address
  tokens.set
    { token with metadataUri := token.metadataUri.or (existing.bind IndexedToken.metadataUri) }

/-- Set the URI of a token that is present; a no-op when it is absent. -/
def setMetadataUri (tokens : Keyed IndexedToken.address) (address metadataUri : String) :
    Keyed IndexedToken.address :=
  match tokens.find? address with
  | some existing => tokens.set { existing with metadataUri := some metadataUri }
  | none => tokens

/-- The number of rows. -/
def countTokens (store : MemoryTokenStore) : ℕ :=
  store.tokens.length

/-- Which of the indices have a row. -/
def presentIndices (store : MemoryTokenStore) (indices : List ℕ) : List ℕ :=
  (store.tokens.records.map IndexedToken.tokenIndex).filter fun i => indices.contains i

variable {tokens : Keyed IndexedToken.address} {token : IndexedToken} {address uri a : String}

/-- The URI that a store has for an address. -/
def uriOf (tokens : Keyed IndexedToken.address) (address : String) : Option String :=
  (tokens.find? address).bind IndexedToken.metadataUri

/-- A row that carries no URI changes none. -/
theorem uriOf_upsertToken (hnone : token.metadataUri = none) :
    uriOf (upsertToken tokens token) a = uriOf tokens a := by
  rw [uriOf, upsertToken, Keyed.find?_set, hnone, Option.none_or]
  split_ifs with ha
  · rw [ha]
    rfl
  · rfl

theorem isSome_find?_upsertToken :
    ((upsertToken tokens token).find? a).isSome = (decide (a = token.address) ||
      (tokens.find? a).isSome) := by
  rw [upsertToken, Keyed.find?_set]
  split_ifs with ha
  · simp only [ha, decide_true, Bool.true_or, Option.isSome_some]
  · simp only [ha, decide_false, Bool.false_or]

theorem isSome_find?_setMetadataUri :
    ((setMetadataUri tokens address uri).find? a).isSome = (tokens.find? a).isSome := by
  rw [setMetadataUri]
  rcases hfind : tokens.find? address with _ | existing
  · rfl
  · have hkey : existing.address = address := Keyed.key_of_find? hfind
    simp only [Keyed.find?_set, hkey]
    split_ifs with ha
    · rw [ha, hfind]
      rfl
    · rfl

end MemoryTokenStore

end StellarForge.Indexer
