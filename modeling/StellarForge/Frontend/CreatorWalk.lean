import StellarForge.Collections.Collect
import StellarForge.Frontend.TokenReads

/-!
# The walk over the tokens of a creator

`fetchAllTokensByCreator` reads the first page, and then pages in concurrent batches, until a page
holds fewer than fifty tokens.  A page that lacks a token because its read failed counts as short.

* `fetchAllTokensByCreator_eq`: what is returned is `collect` of the pages;
* `walkComplete_iff`: **every token that can be read is returned, once and in the order of the list, if
  and only if none of them comes after a page with a failed read**, or after the last page.
-/

namespace StellarForge.Frontend.Tokens

open Soroban Contract Factory Transition Collections

/-! ### The walk -/

/-- The pages that are asked for at once. -/
def CONCURRENT_PAGE_LIMIT : ℕ := 5

/-- The pages of one creator. -/
def MAX_CREATOR_PAGES : ℕ := 10000

/-- The loop over the pages of a batch: what has been collected, and whether a short page has ended the
walk. -/
def appendPages (pageSize : ℕ) :
    (collected : List TokenInfo) → (pages : List (List TokenInfo)) → List TokenInfo × Bool
  | collected, [] => (collected, false)
  | collected, page :: pages =>
    if page.length < pageSize then (collected ++ page, true)
    else appendPages pageSize (collected ++ page) pages

/-- The loop over the batches. -/
def fetchBatches (source : ℕ → ℕ → Option (List TokenInfo)) (pageSize batchStart : ℕ)
    (collected : List TokenInfo) : Option (List TokenInfo) :=
  if batchStart < MAX_CREATOR_PAGES then do
    let batchEnd := min (batchStart + CONCURRENT_PAGE_LIMIT) MAX_CREATOR_PAGES
    let pageNumbers := List.range' batchStart (batchEnd - batchStart)
    let pages ← pageNumbers.mapM fun p => source (p * pageSize) pageSize
    match appendPages pageSize collected pages with
    | (collected, true) => some collected
    | (collected, false) =>
      fetchBatches source pageSize (batchStart + CONCURRENT_PAGE_LIMIT) collected
  else some collected
termination_by MAX_CREATOR_PAGES - batchStart
decreasing_by
  unfold CONCURRENT_PAGE_LIMIT
  omega

/-- `source` is `getTokensByCreator` for one creator. -/
def fetchAllTokensByCreator (source : ℕ → ℕ → Option (List TokenInfo)) :
    Option (List TokenInfo) := do
  let pageSize := 50
  let firstPage ← source 0 pageSize
  if firstPage.length < pageSize then some firstPage
  else fetchBatches source pageSize 1 firstPage

/-! ### Collecting -/

variable {pageSize batchStart : ℕ} {collected : List TokenInfo} {pages : ℕ → List TokenInfo}
  {source : ℕ → ℕ → Option (List TokenInfo)}

/-- The page has fewer tokens than were asked for. -/
def IsShort (pageSize : ℕ) (page : List TokenInfo) : Bool := decide (page.length < pageSize)

/-- A batch of pages is collected up to its first short one. -/
theorem appendPages_eq (batch : List (List TokenInfo)) : appendPages pageSize collected batch =
    (collected ++ collect (IsShort pageSize) id batch, batch.any (IsShort pageSize)) := by
  induction batch generalizing collected with
  | nil =>
    show (collected, false) = (collected ++ [], false)
    rw [List.append_nil]
  | cons page batch ih =>
    rw [appendPages, List.any_cons]
    by_cases hshort : page.length < pageSize
    · have htrue : IsShort pageSize page = true := decide_eq_true hshort
      rw [if_pos hshort, htrue, collect_cons_of_stops htrue, Bool.true_or, id]
    · have hfalse : IsShort pageSize page = false := decide_eq_false hshort
      rw [if_neg hshort, hfalse, collect_cons_of_not_stops hfalse, ih, Bool.false_or,
        List.append_assoc, id]

/-- All pages of a batch are served. -/
theorem mapM_source {numbers : List ℕ}
    (hserved : ∀ p ∈ numbers, source (p * pageSize) pageSize = some (pages p)) :
    (numbers.mapM fun p => source (p * pageSize) pageSize) = some (numbers.map pages) := by
  induction numbers with
  | nil => rfl
  | cons p numbers ih =>
    rw [List.mapM_cons, hserved p List.mem_cons_self,
      ih fun q hq => hserved q (List.mem_cons_of_mem _ hq)]
    rfl

/-- The batches together are the pages that are left. -/
theorem fetchBatches_eq
    (hserved : ∀ p < MAX_CREATOR_PAGES, source (p * pageSize) pageSize = some (pages p)) :
    fetchBatches source pageSize batchStart collected = some (collected ++
      collect (IsShort pageSize) id
        ((List.range' batchStart (MAX_CREATOR_PAGES - batchStart)).map pages)) := by
  -- by induction on the number of pages that are left
  induction hleft : MAX_CREATOR_PAGES - batchStart using Nat.strong_induction_on
    generalizing batchStart collected with
  | _ left ih =>
  rw [fetchBatches]
  by_cases hmore : batchStart < MAX_CREATOR_PAGES
  · rw [if_pos hmore]
    let batchEnd := min (batchStart + CONCURRENT_PAGE_LIMIT) MAX_CREATOR_PAGES
    have hbatch : ∀ p ∈ List.range' batchStart (batchEnd - batchStart),
        source (p * pageSize) pageSize = some (pages p) := by
      intro p hp
      have hlt := (List.mem_range'_1.mp hp).2
      exact hserved p (by omega)
    have hpages := mapM_source hbatch
    have hsplit : List.range' batchStart left =
        List.range' batchStart (batchEnd - batchStart) ++
          List.range' (batchStart + CONCURRENT_PAGE_LIMIT)
            (MAX_CREATOR_PAGES - (batchStart + CONCURRENT_PAGE_LIMIT)) := by
      rcases Nat.le_total (batchStart + CONCURRENT_PAGE_LIMIT) MAX_CREATOR_PAGES with hle | hle
      · have hend : batchEnd - batchStart = CONCURRENT_PAGE_LIMIT := by omega
        rw [hend, List.range'_append_1]
        congr 1
        omega
      · -- the last batch is not full
        have hend : batchEnd - batchStart = left := by omega
        rw [hend, Nat.sub_eq_zero_of_le hle, List.range'_zero, List.append_nil]
    show (do
      let pages ← (List.range' batchStart (batchEnd - batchStart)).mapM fun p =>
        source (p * pageSize) pageSize
      match appendPages pageSize collected pages with
      | (collected, true) => some collected
      | (collected, false) =>
        fetchBatches source pageSize (batchStart + CONCURRENT_PAGE_LIMIT) collected) = _
    rw [hpages, Option.bind_eq_bind, Option.bind_some, appendPages_eq, hsplit, List.map_append,
      collect_append]
    cases hshort : ((List.range' batchStart (batchEnd - batchStart)).map pages).any
      (IsShort pageSize) with
    | true => rw [if_pos rfl, List.append_nil]
    | false =>
      rw [if_neg Bool.false_ne_true, ← List.append_assoc]
      exact ih _ (by unfold CONCURRENT_PAGE_LIMIT; omega) rfl
  · have hnone : left = 0 := by omega
    rw [if_neg hmore, hnone, List.range'_zero, List.map_nil, collect, List.append_nil]

/-- The batches collect what the pages would one by one. -/
theorem fetchAllTokensByCreator_eq
    (hserved : ∀ p < MAX_CREATOR_PAGES, source (p * 50) 50 = some (pages p)) :
    fetchAllTokensByCreator source =
      some (collect (IsShort 50) id ((List.range MAX_CREATOR_PAGES).map pages)) := by
  have hfirst : source 0 50 = some (pages 0) := hserved 0 (by decide)
  have hrange : (List.range MAX_CREATOR_PAGES).map pages =
      pages 0 :: (List.range' 1 (MAX_CREATOR_PAGES - 1)).map pages := by
    rw [List.range_eq_range', ← List.map_cons]
    rfl
  rw [fetchAllTokensByCreator, hfirst, hrange]
  show (if (pages 0).length < 50 then _ else _) = _
  by_cases hshort : (pages 0).length < 50
  · have htrue : IsShort 50 (pages 0) = true := decide_eq_true hshort
    rw [if_pos hshort, collect_cons_of_stops htrue, id]
  · have hfalse : IsShort 50 (pages 0) = false := decide_eq_false hshort
    rw [if_neg hshort, collect_cons_of_not_stops hfalse, fetchBatches_eq hserved, id]

/-! ### Completeness -/

variable {args : ConstructorArgs} {h : List Invocation} {w : World} {m : FactoryModel} {env : Env}
  {sdk : ViewSdk} {creator : Address} {fails : ℕ → Bool} {l : List ℕ} {node : Node}

/-- What is returned are the tokens of the list that can be read, in the order of the list. -/
def WalkComplete (sdk : ViewSdk) (node : Node) (creator : Address) (l : List ℕ) : Prop :=
  fetchAllTokensByCreator (getTokensByCreator sdk node creator) =
    some (l.filterMap (getTokenInfo sdk node))

/-- After a page of fifty with a read that fails, and after the last of the pages, all reads fail. -/
def NothingAfterFailure (fails : ℕ → Bool) (l : List ℕ) : Prop :=
  ∀ p < MAX_CREATOR_PAGES,
    (∃ i ∈ (l.drop (p * 50)).take 50, fails i = true) ∨ p + 1 = MAX_CREATOR_PAGES →
    ∀ i ∈ l.drop ((p + 1) * 50), fails i = true

/-- The tokens of a page that can be read. -/
def tokenPage (read : ℕ → Option TokenInfo) (l : List ℕ) (p : ℕ) : List TokenInfo :=
  ((page 50 l p).getD []).filterMap read

variable {read : ℕ → Option TokenInfo} {p : ℕ}

/-- A page is short because the list ends on it or because a read has failed. -/
theorem isShort_tokenPage (hread : ∀ i ∈ l, read i = none ↔ fails i = true) :
    IsShort 50 (tokenPage read l p) = true ↔
      l.length < (p + 1) * 50 ∨ ∃ i ∈ (page 50 l p).getD [], fails i = true := by
  have hle : (tokenPage read l p).length ≤ ((page 50 l p).getD []).length :=
    List.length_filterMap_le _ _
  have hpage : ((page 50 l p).getD []).length = min 50 (l.length - p * 50) := by
    rw [getD_page, List.length_take, List.length_drop]
  -- all fifty are there only if none has failed
  have hall : (tokenPage read l p).length = ((page 50 l p).getD []).length ↔
      ∀ i ∈ (page 50 l p).getD [], ¬ fails i = true := by
    rw [tokenPage, List.filterMap_length_eq_length]
    refine forall₂_congr fun i hi => ?_
    have hi : i ∈ l := by
      rw [getD_page] at hi
      exact List.mem_of_mem_drop (List.mem_of_mem_take hi)
    rw [← hread i hi, Option.isSome_iff_ne_none]
  rw [IsShort, decide_eq_true_eq]
  constructor
  · intro hshort
    by_contra! hneither
    have hlength := hall.mpr hneither.2
    omega
  · rintro (hend | ⟨i, hi, hfails⟩)
    · omega
    · have hne : (tokenPage read l p).length ≠ ((page 50 l p).getD []).length :=
        fun heq => hall.mp heq i hi hfails
      omega

/-- The pages hold what can be read of the first tokens of the list. -/
theorem flatMap_tokenPage (n : ℕ) :
    ((List.range n).map (tokenPage read l)).flatMap id = (l.take (n * 50)).filterMap read := by
  rw [List.flatMap_map, ← flatMap_page, List.filterMap_flatMap]
  rfl

/-- The pages up to a short one are the list if and only if nothing can be read after it. -/
theorem collect_tokenPage_iff (hread : ∀ i ∈ l, read i = none ↔ fails i = true) :
    collect (IsShort 50) id ((List.range MAX_CREATOR_PAGES).map (tokenPage read l)) =
      l.filterMap read ↔ NothingAfterFailure fails l := by
  -- what is collected are the pages, and after the pages there is nothing
  have hsplit : collect (IsShort 50) id ((List.range MAX_CREATOR_PAGES).map (tokenPage read l)) =
      l.filterMap read ↔
      Uninterrupted (IsShort 50) id ((List.range MAX_CREATOR_PAGES).map (tokenPage read l)) ∧
        (l.drop (MAX_CREATOR_PAGES * 50)).filterMap read = [] := by
    rw [← collect_eq_iff, flatMap_tokenPage]
    have hprefix : collect (IsShort 50) id ((List.range MAX_CREATOR_PAGES).map (tokenPage read l)) <+:
        ((List.range MAX_CREATOR_PAGES).map (tokenPage read l)).flatMap id :=
      collect_prefix
    rw [flatMap_tokenPage] at hprefix
    have hwhole : l.filterMap read = (l.take (MAX_CREATOR_PAGES * 50)).filterMap read ++
        (l.drop (MAX_CREATOR_PAGES * 50)).filterMap read := by
      rw [← List.filterMap_append, List.take_append_drop]
    constructor
    · intro heq
      have hlength := hprefix.length_le
      rw [heq, hwhole, List.length_append] at hlength
      have hrest : (l.drop (MAX_CREATOR_PAGES * 50)).filterMap read = [] :=
        List.eq_nil_of_length_eq_zero (by omega)
      rw [heq, hwhole, hrest, List.append_nil]
      exact ⟨rfl, rfl⟩
    · rintro ⟨hpages, hrest⟩
      rw [hpages, hwhole, hrest, List.append_nil]
  have hempty : ∀ q, tokenPage read l q = [] ↔
      ∀ i ∈ (page 50 l q).getD [], fails i = true := by
    intro q
    rw [tokenPage, List.filterMap_eq_nil_iff]
    refine forall₂_congr fun i hi => ?_
    rw [getD_page] at hi
    exact hread i (List.mem_of_mem_drop (List.mem_of_mem_take hi))
  have hrest : (l.drop (MAX_CREATOR_PAGES * 50)).filterMap read = [] ↔
      ∀ i ∈ l.drop (MAX_CREATOR_PAGES * 50), fails i = true := by
    rw [List.filterMap_eq_nil_iff]
    exact forall₂_congr fun i hi => hread i (List.mem_of_mem_drop hi)
  rw [hsplit, uninterrupted_map_range, hrest]
  constructor
  · rintro ⟨hpages, hlast⟩ p hp hshort i hi
    obtain ⟨q, hlt, hq⟩ := (mem_drop_iff_page (by decide)).mp hi
    rcases Nat.lt_or_ge q MAX_CREATOR_PAGES with hin | hout
    · -- a page that is read: it comes after a page with a failed read
      have hfailed : ∃ i ∈ (page 50 l p).getD [], fails i = true := by
        rw [getD_page]
        exact hshort.resolve_right (by omega)
      have hstops := (isShort_tokenPage hread).mpr (.inr hfailed)
      exact (hempty q).mp (hpages p hp hstops q hin hlt) i hq
    · exact hlast i ((mem_drop_iff_page (by decide)).mpr ⟨q, hout, hq⟩)
  · intro hnothing
    constructor
    · intro p hp hstops q hq hlt
      rw [id, hempty]
      intro i hi
      have hi' : i ∈ l.drop ((p + 1) * 50) :=
        (mem_drop_iff_page (by decide)).mpr ⟨q, hlt, hi⟩
      rcases (isShort_tokenPage hread).mp hstops with hend | hfailed
      · rw [List.drop_eq_nil_of_le (Nat.le_of_lt hend)] at hi'
        cases hi'
      · rw [getD_page] at hfailed
        exact hnothing p hp (.inl hfailed) i hi'
    · intro i hi
      exact hnothing (MAX_CREATOR_PAGES - 1) (by decide) (.inr (by decide)) i hi

/-- **The walk is complete if and only if no token that can be read comes after a page with a failed
read**, or after the last of the pages. -/
theorem walkComplete_iff_of_represents (hw : Represents w m) :
    WalkComplete sdk ((simulate env w).failing fails) creator (w.creatorList creator) ↔
      NothingAfterFailure fails (w.creatorList creator) := by
  have hlist := hw.creatorList creator
  -- a read fails exactly where `fails` says, since every token listed exists
  have hread : ∀ i ∈ w.creatorList creator,
      getTokenInfo sdk ((simulate env w).failing fails) i = none ↔ fails i = true := by
    intro i hi
    rw [hlist] at hi
    exact getTokenInfo_eq_none hw hi
  -- pages below the cap are served in full
  have hserved : ∀ p < MAX_CREATOR_PAGES,
      getTokensByCreator sdk ((simulate env w).failing fails) creator (p * 50) 50 =
        some (tokenPage (getTokenInfo sdk ((simulate env w).failing fails))
          (w.creatorList creator) p) := by
    intro p hp
    rw [getTokensByCreator_eq hw, tokenPage, getD_page, hlist]
    · rfl
    · unfold MAX_CREATOR_PAGES at hp
      unfold MAX_TOKENS_BY_CREATOR_PAGE U32.MAX
      omega
  rw [← collect_tokenPage_iff hread, WalkComplete, fetchAllTokensByCreator_eq hserved,
    Option.some.injEq]

/-- **In every reachable state the walk is complete if and only if no token that can be read comes after
a page of fifty with a failed read**, or after the last of the pages. -/
theorem walkComplete_iff (hr : Reaches args h w) (sdk : ViewSdk) (env : Env) (creator : Address)
    (fails : ℕ → Bool) :
    WalkComplete sdk ((simulate env w).failing fails) creator (w.creatorList creator) ↔
      NothingAfterFailure fails (w.creatorList creator) := by
  obtain ⟨m, -, hw⟩ := hr.represents
  exact walkComplete_iff_of_represents hw

/-- The one token of the sample run is listed. -/
theorem walkComplete_iff_sampleRun :
    Reaches SampleRun.constructorArgs SampleRun.history SampleRun.world₂ ∧
      WalkComplete ⟨fun _ => "", fun _ => "", id⟩
        ((simulate (permissiveEnv 10 ⟨5⟩) SampleRun.world₂).failing fun _ => false) ⟨5⟩
        (SampleRun.world₂.creatorList ⟨5⟩) := by
  refine ⟨SampleRun.reaches, (walkComplete_iff SampleRun.reaches ..).mpr fun p _ _ i hi => ?_⟩
  -- nothing comes after the first page
  have hlist : SampleRun.world₂.creatorList ⟨5⟩ = [1] := by decide
  rw [hlist, List.drop_eq_nil_of_le] at hi
  · cases hi
  · rw [List.length_singleton]
    omega

/-- The creator has fifty-one tokens and the first read fails: the last token is missing. -/
theorem not_walkComplete : ¬ ∀ args h w, Reaches args h w → ∀ sdk env creator fails,
    WalkComplete sdk ((simulate env w).failing fails) creator (w.creatorList creator) := by
  intro hall
  obtain ⟨h, w, m, hr, hw, hgrown⟩ := reaches_created (n := 51) (by decide)
  have hlist : w.creatorList ⟨5⟩ = List.range' 1 51 := by
    rw [hw.creatorList, hgrown.listed]
  have hcomplete := hall _ h w hr ⟨fun _ => "", fun _ => "", id⟩ (permissiveEnv 10 ⟨5⟩) ⟨5⟩
    fun i => decide (i = 1)
  rw [walkComplete_iff_of_represents hw, hlist] at hcomplete
  have hfailed := hcomplete 0 (by decide) (.inl ⟨1, by decide, by decide⟩) 51 (by decide)
  exact absurd hfailed (by decide)

end StellarForge.Frontend.Tokens
