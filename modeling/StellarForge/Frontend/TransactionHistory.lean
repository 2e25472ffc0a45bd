import Mathlib.Data.List.Nodup
import Mathlib.Data.Nat.Find
import StellarForge.Collections.Numerals
import StellarForge.Encoding.Decimal
import StellarForge.Encoding.Utf16

/-!
# The transaction history of an account

`useTransactionHistory` over the operations that Horizon lists for the account.  The page after the ones
that have been read begins after the cursor; whether there is one is told from the number of items that
the last page has left after the filter.

* `loaded_spec`: what the hook has after its first load and some calls of `loadMore`;
* `poll_loaded`: its timer changes nothing of that;
* `reachesAll_iff`: **every item is reached, once and in order, if and only if none lies on a page after
  one with an operation that is filtered out**;
* `not_reachesAll_sampleOperations`: a payment in lumens on the first of two pages.
-/

namespace StellarForge.Frontend.History

open Encoding Text

/-! ### Numbers -/

/-- A decimal literal without its sign, and nothing behind it. -/
def unsignedNumber (negative : Bool) (s : List Char) : Number :=
  if s = "Infinity".toList then .infinite negative
  else Decimal.literal negative (Decimal.exponentPart decimalNumeral) s

/-- `Number(text)` -/
def toNumber (s : List CodeUnit) : Number :=
  let natural (n : Option ℕ) : Number := n.elim .nan fun n => .ofRat n
  match (trim (String.ofList (decode s))).toList with
  | [] => .finite 0
  | '+' :: rest => unsignedNumber false rest
  | '-' :: rest => unsignedNumber true rest
  | '0' :: 'x' :: rest | '0' :: 'X' :: rest => natural (numeral 16 rest)
  | '0' :: 'o' :: rest | '0' :: 'O' :: rest => natural (numeral 8 rest)
  | '0' :: 'b' :: rest | '0' :: 'B' :: rest => natural (numeral 2 rest)
  | rest => unsignedNumber false rest

/-! ### Operations and items -/

/-- A row of the history. -/
structure TransactionHistoryItem where
  id : List CodeUnit
  /-- `create`, `mint`, `burn` or `other` -/
  type : List CodeUnit
  token : List CodeUnit
  amount : List CodeUnit
  date : List CodeUnit
  /-- `success` or `failed` -/
  status : List CodeUnit
  hash : List CodeUnit
  deriving DecidableEq, Repr

/-- An operation, as Horizon returns it. -/
structure HorizonOperationRecord where
  id : List CodeUnit
  type : List CodeUnit
  name : Option (List CodeUnit) := none
  assetCode : Option (List CodeUnit) := none
  assetIssuer : Option (List CodeUnit) := none
  amount : Option (List CodeUnit) := none
  createdAt : List CodeUnit
  transactionSuccessful : Bool
  transactionHash : List CodeUnit
  pagingToken : Option (List CodeUnit) := none
  deriving DecidableEq, Repr

/-- What the hook is asked for. -/
structure UseTransactionHistoryOptions where
  assetCodes : Option (List (List CodeUnit)) := none
  issuer : Option (List CodeUnit) := none
  contractIds : Option (List (List CodeUnit)) := none
  pageSize : Option ℕ := none

/-- Neither `undefined` nor the empty text. -/
def truthy (s : Option (List CodeUnit)) : Option (List CodeUnit) := s.filter (· ≠ [])

/-- `text.toLowerCase().includes('token')` -/
def namesToken (name : List CodeUnit) : Bool :=
  includes (toLowerCase (String.ofList (decode name))) "token"

/-- The type, the token and the amount of an operation. -/
def classify (op : HorizonOperationRecord) : List CodeUnit × List CodeUnit × List CodeUnit :=
  let other := (units "other", [], [])
  if op.type = units "manage_data" ∧ (truthy op.name).any namesToken then
    (units "create", op.name.getD [], [])
  else if op.type = units "payment" ∧ (truthy op.assetCode).isSome ∧ (truthy op.amount).isSome then
    let token := op.assetCode.getD []
    let amount := op.amount.getD []
    if Number.lt (.finite 0) (toNumber amount) then (units "mint", token, amount)
    else if Number.lt (toNumber amount) (.finite 0) then (units "burn", token, amount)
    else other
  else if op.type = units "change_trust" ∧ (truthy op.assetCode).isSome then
    (units "create", op.assetCode.getD [], [])
  else other

/-- The row of an operation, none where the options leave it out. -/
def parseOperation (options : UseTransactionHistoryOptions) (op : HorizonOperationRecord) :
    Option TransactionHistoryItem :=
  let (type, token, amount) := classify op
  if options.assetCodes.any (fun codes => token ≠ [] ∧ token ∉ codes) then none
  else if (truthy options.issuer).any (fun issuer => (truthy op.assetIssuer).any (· ≠ issuer)) then
    none
  else if type = units "other" then none
  else some {
    id := op.id
    type
    token
    amount := if amount ≠ [] then amount else (truthy op.amount).getD []
    date := op.createdAt
    status := if op.transactionSuccessful then units "success" else units "failed"
    hash := op.transactionHash }

/-! ### Horizon -/

/-- The operations of an account, newest first; each has a token of its own. -/
structure Operations where
  records : List HorizonOperationRecord
  pagingToken_truthy : ∀ op ∈ records, (truthy op.pagingToken).isSome
  nodup : (records.map HorizonOperationRecord.pagingToken).Nodup

/-- `GET /accounts/{publicKey}/operations?order=desc&limit={limit}&cursor={cursor}` -/
def Operations.list (ops : Operations) (limit : ℕ) (cursor : List CodeUnit) :
    List HorizonOperationRecord :=
  (if cursor = [] then ops.records
    else (ops.records.dropWhile fun op => decide (op.pagingToken ≠ some cursor)).tail).take limit

/-! ### The hook -/

/-- The state of the hook; no request is on its way. -/
structure HistoryState where
  transactions : List TransactionHistoryItem := []
  hasMore : Bool := true
  page : ℕ := 1
  cursor : List CodeUnit := []
  /-- The items of each page under the account and the filter of the hook. -/
  cache : ℕ → Option (List TransactionHistoryItem) := fun _ => none

section

variable (ops : Operations) (options : UseTransactionHistoryOptions)

/-- The operations of a page. -/
def UseTransactionHistoryOptions.size : ℕ :=
  if options.pageSize.getD 0 = 0 then 10 else options.pageSize.getD 0

/-- `fetchTransactions`, when the request succeeds. -/
def fetchTransactions (reset : Bool) (s : HistoryState) : HistoryState :=
  match s.cache s.page with
  | some cached =>
    { s with
      transactions := if reset then cached else s.transactions ++ cached
      hasMore := cached.length = options.size }
  | none =>
    let records := ops.list options.size (if reset then [] else s.cursor)
    let items := records.filterMap (parseOperation options)
    { s with
      transactions := if reset then items else s.transactions ++ items
      hasMore := items.length = options.size
      cursor := records.getLast?.elim s.cursor fun op => op.pagingToken.getD []
      cache := Function.update s.cache s.page (some items) }

/-- The first load, when the debounce timer of the mounted hook fires. -/
def firstLoad : HistoryState := fetchTransactions ops options true {}

/-- `loadMore`, with the request that it starts; nothing is loading. -/
def loadMore (s : HistoryState) : HistoryState :=
  if s.hasMore then fetchTransactions ops options false { s with page := s.page + 1 } else s

/-- The timer of the hook, which reads the first page again as long as no other one has been read. -/
def poll (s : HistoryState) : HistoryState :=
  if s.page = 1 then fetchTransactions ops options true { s with cache := fun _ => none } else s

/-- After the first load and `n` calls of `loadMore`. -/
def loaded (n : ℕ) : HistoryState := (loadMore ops options)^[n] (firstLoad ops options)

/-- All that `parseOperation` maps to an item, in the order of the operations. -/
def allItems : List TransactionHistoryItem := ops.records.filterMap (parseOperation options)

/-- Loading comes to an end, and then all items are there. -/
def ReachesAll : Prop :=
  (∃ n, (loaded ops options n).hasMore = false) ∧
    ∀ n, (loaded ops options n).hasMore = false →
      (loaded ops options n).transactions = allItems ops options

/-- No item lies on a page after one with an operation that is filtered out. -/
def FilteredLast : Prop :=
  ∀ i j, ∀ hi : i < ops.records.length, ∀ hj : j < ops.records.length, i < j →
    parseOperation options ops.records[i] = none →
    (parseOperation options ops.records[j]).isSome → i / options.size = j / options.size

end

variable {ops : Operations} {options : UseTransactionHistoryOptions} {s : HistoryState} {k n : ℕ}

/-! ### Pages -/

theorem size_pos : 0 < options.size := by
  unfold UseTransactionHistoryOptions.size
  split_ifs with h
  · decide
  · exact Nat.pos_of_ne_zero h

/-- After the operation with the token, Horizon lists the ones that follow it. -/
theorem list_after (hn : n < ops.records.length) (limit : ℕ) :
    ops.list limit (ops.records[n].pagingToken.getD []) = (ops.records.drop (n + 1)).take limit := by
  have htruthy := ops.pagingToken_truthy _ (List.getElem_mem hn)
  obtain ⟨token, htoken⟩ := Option.isSome_iff_exists.mp htruthy
  obtain ⟨htoken, hne⟩ := Option.filter_eq_some_iff.mp htoken
  have hdrop : ops.records.dropWhile (fun op => decide (op.pagingToken ≠ some token)) =
      ops.records.drop n := by
    conv_lhs => rw [← List.take_append_drop n ops.records]
    rw [List.dropWhile_append_of_pos]
    · rw [List.drop_eq_getElem_cons hn]
      exact List.dropWhile_cons_of_neg (by simp [htoken])
    · -- an earlier operation has another token
      intro op hop
      apply decide_eq_true
      intro heq
      obtain ⟨i, hi, rfl⟩ := List.mem_take_iff_getElem.mp hop
      have hi' : i < ops.records.length := by omega
      have hsame : ops.records[i] = ops.records[n] :=
        List.inj_on_of_nodup_map ops.nodup (List.getElem_mem hi') (List.getElem_mem hn)
          (heq.trans htoken.symm)
      have heq' : i = n := (List.Nodup.of_map _ ops.nodup).getElem_inj_iff.mp hsame
      omega
  rw [htoken, Option.getD_some, Operations.list, if_neg (by simpa using hne), hdrop, List.tail_drop]

/-- The operations of a page, from page `0` on. -/
def pageRecords (ops : Operations) (options : UseTransactionHistoryOptions) (k : ℕ) :
    List HorizonOperationRecord :=
  (ops.records.drop (k * options.size)).take options.size

/-- The rows of a page. -/
def pageItems (ops : Operations) (options : UseTransactionHistoryOptions) (k : ℕ) :
    List TransactionHistoryItem :=
  (pageRecords ops options k).filterMap (parseOperation options)

/-- The page seems to have a successor. -/
def Full (ops : Operations) (options : UseTransactionHistoryOptions) (k : ℕ) : Prop :=
  (pageItems ops options k).length = options.size

instance : Decidable (Full ops options k) := inferInstanceAs (Decidable (_ = _))

/-- There are as many operations as there seem to be. -/
theorem Full.le_length (h : Full ops options k) : (k + 1) * options.size ≤ ops.records.length := by
  have hle : (pageItems ops options k).length ≤ (pageRecords ops options k).length :=
    List.length_filterMap_le ..
  rw [h, pageRecords, List.length_take, List.length_drop] at hle
  have hpos : 0 < options.size := size_pos
  rw [Nat.add_mul, Nat.one_mul]
  omega

theorem not_full_of_length_le (h : ops.records.length ≤ k * options.size) : ¬ Full ops options k := by
  intro hfull
  have hle := hfull.le_length
  have hpos : 0 < options.size := size_pos
  rw [Nat.add_mul, Nat.one_mul] at hle
  omega

theorem getElem_mem_pageRecords {i : ℕ} (hi : i < ops.records.length) (hlow : k * options.size ≤ i)
    (hhigh : i < (k + 1) * options.size) : ops.records[i] ∈ pageRecords ops options k := by
  rw [Nat.add_mul, Nat.one_mul] at hhigh
  rw [pageRecords, List.mem_take_iff_getElem]
  refine ⟨i - k * options.size, ?_, ?_⟩
  · rw [List.length_drop]
    omega
  · rw [List.getElem_drop]
    congr 1
    omega

/-- None of the operations of such a page is filtered out. -/
theorem Full.isSome (h : Full ops options k) {op : HorizonOperationRecord}
    (hop : op ∈ pageRecords ops options k) : (parseOperation options op).isSome := by
  have hle : (pageItems ops options k).length ≤ (pageRecords ops options k).length :=
    List.length_filterMap_le ..
  have hsize : (pageRecords ops options k).length ≤ options.size := List.length_take_le ..
  have hlength : (pageItems ops options k).length = (pageRecords ops options k).length := by
    rw [Full] at h
    omega
  exact List.filterMap_length_eq_length.mp hlength op hop

/-- A page with all its operations, none of which is filtered out. -/
theorem full_of_isSome (hle : (k + 1) * options.size ≤ ops.records.length)
    (h : ∀ op ∈ pageRecords ops options k, (parseOperation options op).isSome) :
    Full ops options k := by
  rw [Full, pageItems, List.filterMap_length_eq_length.mpr h, pageRecords, List.length_take,
    List.length_drop]
  rw [Nat.add_mul, Nat.one_mul] at hle
  omega

/-- The items up to the end of a page. -/
theorem filterMap_take_succ :
    (ops.records.take ((k + 1) * options.size)).filterMap (parseOperation options) =
      (ops.records.take (k * options.size)).filterMap (parseOperation options) ++
        pageItems ops options k := by
  rw [Nat.add_mul, Nat.one_mul, List.take_add, List.filterMap_append]
  rfl

/-! ### Loading -/

/-- The hook has read the pages up to page `k`. -/
structure Loaded (ops : Operations) (options : UseTransactionHistoryOptions) (k : ℕ)
    (s : HistoryState) : Prop where
  page : s.page = k + 1
  transactions : s.transactions =
    (ops.records.take ((k + 1) * options.size)).filterMap (parseOperation options)
  hasMore : s.hasMore = decide (Full ops options k)
  cache : ∀ p, k + 1 < p → s.cache p = none
  /-- The cursor leads to the next page. -/
  listed : Full ops options k → ops.list options.size s.cursor = pageRecords ops options (k + 1)

/-- The page behind a full one is the next one. -/
theorem listed_of_full {cursor : List CodeUnit} (h : Full ops options k) :
    ops.list options.size
      ((pageRecords ops options k).getLast?.elim cursor fun op => op.pagingToken.getD []) =
      pageRecords ops options (k + 1) := by
  have hle := h.le_length
  have hpos : 0 < options.size := size_pos
  rw [Nat.add_mul, Nat.one_mul] at hle
  have hlast : k * options.size + options.size - 1 < ops.records.length := by omega
  have hgetLast : (pageRecords ops options k).getLast? =
      some ops.records[k * options.size + options.size - 1] := by
    rw [pageRecords, List.getLast?_eq_getElem?, List.length_take, List.length_drop,
      List.getElem?_take, List.getElem?_drop, if_pos (by omega)]
    have hindex : k * options.size + (min options.size (ops.records.length - k * options.size) - 1) =
        k * options.size + options.size - 1 := by omega
    rw [hindex, List.getElem?_eq_getElem hlast]
  rw [hgetLast, Option.elim_some, list_after hlast, pageRecords]
  congr 2
  rw [Nat.add_mul, Nat.one_mul]
  omega

/-- The request for a page that is not in the cache. -/
theorem fetchTransactions_of_none {reset : Bool} (hcache : s.cache s.page = none) :
    fetchTransactions ops options reset s =
      let records := ops.list options.size (if reset then [] else s.cursor)
      let items := records.filterMap (parseOperation options)
      { s with
        transactions := if reset then items else s.transactions ++ items
        hasMore := items.length = options.size
        cursor := records.getLast?.elim s.cursor fun op => op.pagingToken.getD []
        cache := Function.update s.cache s.page (some items) } := by
  rw [fetchTransactions, hcache]

theorem loaded_firstLoad : Loaded ops options 0 (firstLoad ops options) := by
  have hrecords : ops.list options.size [] = pageRecords ops options 0 := by
    rw [Operations.list, if_pos rfl, pageRecords, Nat.zero_mul, List.drop_zero]
  rw [firstLoad, fetchTransactions_of_none rfl]
  dsimp only
  rw [if_pos rfl, if_pos rfl, hrecords]
  constructor
  · rfl
  · rw [filterMap_take_succ, Nat.zero_mul, List.take_zero, List.filterMap_nil, List.nil_append]
    rfl
  · rfl
  · intro p hp
    have hne : p ≠ 1 := by omega
    show Function.update (fun _ => none) 1 _ p = none
    rw [Function.update_of_ne hne]
  · exact listed_of_full

/-- **One more page**, or nothing where there seems to be none. -/
theorem Loaded.loadMore (h : Loaded ops options k s) :
    Loaded ops options (if Full ops options k then k + 1 else k) (loadMore ops options s) := by
  rw [History.loadMore, h.hasMore]
  by_cases hfull : Full ops options k
  · rw [if_pos hfull, if_pos (decide_eq_true hfull)]
    -- the page has not been read before
    have hcache : s.cache (s.page + 1) = none := h.cache _ (by rw [h.page]; omega)
    rw [fetchTransactions_of_none hcache]
    dsimp only
    rw [if_neg Bool.false_ne_true, if_neg Bool.false_ne_true, h.listed hfull]
    constructor
    · show s.page + 1 = k + 1 + 1
      rw [h.page]
    · rw [filterMap_take_succ, ← h.transactions]
      rfl
    · rfl
    · -- the cache gains that page and no later one
      intro p hp
      show Function.update s.cache (s.page + 1) _ p = none
      rw [h.page, Function.update_of_ne (by omega)]
      exact h.cache p (by omega)
    · exact listed_of_full
  · rw [if_neg hfull, if_neg (by simpa using hfull)]
    exact h

/-- **What the hook has after the first load and `n` calls of `loadMore`**: a run of full pages, and one
more. -/
theorem loaded_spec (ops : Operations) (options : UseTransactionHistoryOptions) (n : ℕ) :
    ∃ k ≤ n, Loaded ops options k (loaded ops options n) ∧ (∀ j < k, Full ops options j) ∧
      (k < n → ¬ Full ops options k) := by
  -- by induction on the presses; past the first page that is not full nothing is loaded
  induction n with
  | zero =>
    exact ⟨0, Nat.le_refl 0, loaded_firstLoad, fun j hj => absurd hj (Nat.not_lt_zero j),
      fun h => absurd h (Nat.lt_irrefl 0)⟩
  | succ n ih =>
    obtain ⟨k, hk, hloaded, hfull, hlast⟩ := ih
    have hnext := hloaded.loadMore
    have hstep : loaded ops options (n + 1) = History.loadMore ops options (loaded ops options n) :=
      Function.iterate_succ_apply' ..
    rw [hstep]
    by_cases hk' : Full ops options k
    · rw [if_pos hk'] at hnext
      -- all pages so far were full, so every press has loaded one
      have hkn : k = n := by
        by_contra hne
        exact hlast (by omega) hk'
      refine ⟨k + 1, by omega, hnext, fun j hj => ?_, fun h => by omega⟩
      rcases Nat.lt_succ_iff_lt_or_eq.mp hj with hj | rfl
      · exact hfull j hj
      · exact hk'
    · rw [if_neg hk'] at hnext
      exact ⟨k, by omega, hnext, hfull, fun _ => hk'⟩

theorem poll_firstLoad : poll ops options (firstLoad ops options) = firstLoad ops options := by
  have hfirst : firstLoad ops options = fetchTransactions ops options true {} := rfl
  rw [fetchTransactions_of_none rfl] at hfirst
  rw [poll, if_pos (by rw [hfirst]), fetchTransactions_of_none rfl, hfirst]
  simp only [↓reduceIte]
  -- the cursor is that of the same page, or there has been no operation
  cases (ops.list options.size []).getLast? <;> rfl

/-- **The timer changes nothing** while the operations are the same. -/
theorem poll_loaded (n : ℕ) : poll ops options (loaded ops options n) = loaded ops options n := by
  -- polling reloads the first page, and only while it is the one shown
  have hfirst (n : ℕ) : loaded ops options n = firstLoad ops options ∨
      (loaded ops options n).page ≠ 1 := by
    induction n with
    | zero => exact .inl rfl
    | succ n ih =>
      have hstep : loaded ops options (n + 1) = History.loadMore ops options (loaded ops options n) :=
        Function.iterate_succ_apply' ..
      obtain ⟨k, -, hloaded, -⟩ := loaded_spec ops options n
      have hnext := hloaded.loadMore
      rw [← hstep] at hnext
      by_cases hfull : Full ops options k
      · rw [if_pos hfull] at hnext
        exact .inr (by rw [hnext.page]; omega)
      · -- nothing more to load: the button does nothing
        have hmore : (loaded ops options n).hasMore = false := by
          rw [hloaded.hasMore]
          exact decide_eq_false hfull
        have hsame : loaded ops options (n + 1) = loaded ops options n := by
          rw [hstep, History.loadMore, hmore, if_neg Bool.false_ne_true]
        rwa [hsame]
  rcases hfirst n with heq | hpage
  · rw [heq, poll_firstLoad]
  · rw [poll, if_neg hpage]

/-! ### All items -/

/-- Where loading ends. -/
theorem exists_last (ops : Operations) (options : UseTransactionHistoryOptions) :
    ∃ k, ¬ Full ops options k ∧ ∀ j < k, Full ops options j := by
  have hex : ∃ k, ¬ Full ops options k := by
    refine ⟨ops.records.length, not_full_of_length_le ?_⟩
    exact Nat.le_mul_of_pos_right _ size_pos
  refine ⟨Nat.find hex, Nat.find_spec hex, fun j hj => ?_⟩
  by_contra hnot
  exact Nat.find_min hex hj hnot

/-- The hook ends with the first page that is not full. -/
theorem reachesAll_iff_take (hlast : ¬ Full ops options k) (hfull : ∀ j < k, Full ops options j) :
    ReachesAll ops options ↔
      (ops.records.drop ((k + 1) * options.size)).filterMap (parseOperation options) = [] := by
  -- where there seems to be no more, the pages up to `k` are there
  have hends (n : ℕ) (hn : (loaded ops options n).hasMore = false) :
      Loaded ops options k (loaded ops options n) := by
    obtain ⟨m, -, hloaded, hbefore, -⟩ := loaded_spec ops options n
    rw [hloaded.hasMore] at hn
    have hnot : ¬ Full ops options m := of_decide_eq_false hn
    rcases Nat.lt_trichotomy m k with hlt | rfl | hlt
    · exact absurd (hfull m hlt) hnot
    · exact hloaded
    · exact absurd (hbefore k hlt) hlast
  have hall : allItems ops options =
      (ops.records.take ((k + 1) * options.size)).filterMap (parseOperation options) ++
        (ops.records.drop ((k + 1) * options.size)).filterMap (parseOperation options) := by
    rw [← List.filterMap_append, List.take_append_drop]
    rfl
  have hex : ∃ n, (loaded ops options n).hasMore = false := by
    obtain ⟨m, hm, hloaded, hbefore, hstop⟩ := loaded_spec ops options (k + 1)
    have hmk : m < k + 1 := by
      by_contra hnot
      exact hlast (hbefore k (by omega))
    refine ⟨k + 1, ?_⟩
    rw [hloaded.hasMore]
    exact decide_eq_false (hstop hmk)
  constructor
  · rintro ⟨-, hreaches⟩
    obtain ⟨n, hn⟩ := hex
    have heq := hreaches n hn
    rw [(hends n hn).transactions, hall] at heq
    exact (List.self_eq_append_right.mp heq)
  · intro hnil
    refine ⟨hex, fun n hn => ?_⟩
    rw [(hends n hn).transactions, hall, hnil, List.append_nil]

/-- Where all items are reached, none lies on a page after one with an operation that is filtered
out. -/
theorem ReachesAll.filteredLast (h : ReachesAll ops options) : FilteredLast ops options := by
  obtain ⟨k, hlast, hfull⟩ := exists_last ops options
  rw [reachesAll_iff_take hlast hfull, List.filterMap_eq_nil_iff] at h
  have hpos : 0 < options.size := size_pos
  intro i j hi hj hij hfiltered hitem
  by_contra hpage
  have hlt : i / options.size < j / options.size :=
    Nat.lt_of_le_of_ne (Nat.div_le_div_right (Nat.le_of_lt hij)) hpage
  -- the page of the filtered operation is not full
  have hk : k ≤ i / options.size := by
    by_contra hnot
    have hmem : ops.records[i] ∈ pageRecords ops options (i / options.size) :=
      getElem_mem_pageRecords hi (Nat.div_mul_le_self ..) (Nat.lt_mul_of_div_lt (by omega) hpos)
    have hsome := (hfull _ (Nat.not_le.mp hnot)).isSome hmem
    rw [hfiltered] at hsome
    cases hsome
  have hj' : (k + 1) * options.size ≤ j := (Nat.le_div_iff_mul_le hpos).mp (by omega)
  have hdrop : ops.records[j] ∈ ops.records.drop ((k + 1) * options.size) := by
    rw [List.mem_drop_iff_getElem]
    exact ⟨j - (k + 1) * options.size, by omega, by congr 1; omega⟩
  rw [h _ hdrop] at hitem
  cases hitem

/-- Where what is filtered out comes last, all rows are reached. -/
theorem FilteredLast.reachesAll (h : FilteredLast ops options) : ReachesAll ops options := by
  obtain ⟨k, hlast, hfull⟩ := exists_last ops options
  rw [reachesAll_iff_take hlast hfull, List.filterMap_eq_nil_iff]
  have hpos : 0 < options.size := size_pos
  intro op hop
  obtain ⟨n, hn, rfl⟩ := List.mem_drop_iff_getElem.mp hop
  have hle : (k + 1) * options.size ≤ ops.records.length := by omega
  -- there are operations after the page, so that one of its own is filtered out
  obtain ⟨op', hop', hnone⟩ : ∃ op ∈ pageRecords ops options k, parseOperation options op = none := by
    by_contra hnot
    refine hlast (full_of_isSome hle fun op hop => ?_)
    rw [Option.isSome_iff_ne_none]
    exact fun hnone => hnot ⟨op, hop, hnone⟩
  rw [pageRecords, List.mem_take_iff_getElem] at hop'
  obtain ⟨m, hm, rfl⟩ := hop'
  rw [List.length_drop] at hm
  rw [List.getElem_drop] at hnone
  have hnext : (k + 1) * options.size = k * options.size + options.size := by
    rw [Nat.add_mul, Nat.one_mul]
  by_contra hsome
  have hpage := h (k * options.size + m) ((k + 1) * options.size + n) (by omega) (by omega)
    (by omega) hnone (Option.isSome_iff_ne_none.mpr hsome)
  have hthis : (k * options.size + m) / options.size = k :=
    Nat.div_eq_of_lt_le (Nat.le_add_right ..) (by omega)
  have hlater : k + 1 ≤ ((k + 1) * options.size + n) / options.size :=
    (Nat.le_div_iff_mul_le hpos).mpr (Nat.le_add_right ..)
  omega

/-- **Every item is reached, once and in order, if and only if none lies on a page after one with an
operation that is filtered out.** -/
theorem reachesAll_iff (ops : Operations) (options : UseTransactionHistoryOptions) :
    ReachesAll ops options ↔ FilteredLast ops options :=
  ⟨ReachesAll.filteredLast, FilteredLast.reachesAll⟩

/-! ### A filtered operation on the first page -/

/-- A payment of some amount, in an asset or in lumens. -/
def samplePayment (id : String) (assetCode : Option String) : HorizonOperationRecord where
  id := units id
  type := units "payment"
  assetCode := assetCode.map units
  amount := some (units "5")
  createdAt := units "2026-01-01"
  transactionSuccessful := true
  transactionHash := units id
  pagingToken := some (units id)

/-- A payment in lumens and one in an asset, and then another one in the asset. -/
def sampleOperations : Operations where
  records := [samplePayment "3" none, samplePayment "2" (some "FORGE"), samplePayment "1" (some "FORGE")]
  pagingToken_truthy := by decide
  nodup := by decide

/-- Of the two items the second is not reached. -/
theorem not_reachesAll_sampleOperations :
    ¬ ∀ ops options, ReachesAll ops options := by
  intro h
  have hlast := (h sampleOperations { pageSize := some 2 }).filteredLast
  have hpage := hlast 0 2 (by decide) (by decide) (by decide) (by decide +kernel) (by decide +kernel)
  revert hpage
  decide

end StellarForge.Frontend.History
