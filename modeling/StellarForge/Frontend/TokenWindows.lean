import StellarForge.Frontend.Settling
import StellarForge.Frontend.TokenReads

/-!
# Pages of all tokens, read concurrently

`getAllTokens` reads the tokens of a window by `allSettledWithConcurrency`, in whatever order the reads
settle, and puts the index of each back by its place.

* `Returned.eq_getAllTokens`: the page depends on what each read gives, and not on their order;
* `getAllTokens_windows`: **the windows tile the numbers of the tokens, and a page has those of its window
  that can be read.**
-/

namespace StellarForge.Frontend.Tokens

open Transition Collections Settling

/-! ### The reads of a page -/

/-- The reads that are on their way at once. -/
def GET_ALL_TOKENS_CONCURRENCY : ℕ+ := 5

/-- `getTokenInfo` is an asynchronous function: each call returns a promise. -/
def readTasks (indices : List ℕ) : List (Settling.Task String) := indices.map fun _ => .returns

/-- A read that was fulfilled, with the index at its place. -/
def stampIndex : Option (PromiseSettledResult String TokenInfo) × ℕ → Option TokenInfo
  | (some (.fulfilled info), index) => some { info with index := some index }
  | _ => none

/-- The reason of a task that has been rejected. -/
def rejection : Option (PromiseSettledResult String TokenInfo) → Option String
  | some (.rejected reason) => some reason
  | _ => none

/-- `getAllTokens`, once the reads have settled. -/
def assemblePage (settled : List (Option (PromiseSettledResult String TokenInfo)))
    (indices : List ℕ) (total : ℕ) : Except String TokenPage :=
  let tokens := (settled.zip indices).filterMap stampIndex
  if tokens = [] then
    .error ((settled.findSome? rejection).getD "Failed to fetch any tokens for the requested page")
  else .ok ⟨tokens, total⟩

variable {total offset limit : ℕ} {h : List (Event String TokenInfo)} {indices : List ℕ}
  {read : ℕ → Except String TokenInfo} {result : Except String TokenPage}

/-- A call of `getAllTokens` with the total `total` gives `result`, after the reads have settled in the
order of `h`. -/
def Returned (total offset limit : ℕ) (h : List (Event String TokenInfo))
    (result : Except String TokenPage) : Prop :=
  if total = 0 ∨ limit = 0 ∨ total - offset < 1 then h = [] ∧ result = .ok ⟨[], total⟩
  else
    let indices := window total offset limit
    ∃ s settled, Run (Step (readTasks indices))
        (allSettledWithConcurrency (readTasks indices) GET_ALL_TOKENS_CONCURRENCY) h s ∧
      resolved s = some settled ∧ result = assemblePage settled indices total

/-- How the promise of a read settles. -/
def settledAs : Except String TokenInfo → PromiseSettledResult String TokenInfo
  | .ok info => .fulfilled info
  | .error reason => .rejected reason

/-- Every read of the page settles with what `read` gives for its index. -/
def Answers (indices : List ℕ) (read : ℕ → Except String TokenInfo)
    (h : List (Event String TokenInfo)) : Prop :=
  ∀ e ∈ h, indices[e.1]?.map (fun i => settledAs (read i)) = some e.2

/-! ### The order of the reads does not matter -/

theorem filterMap_stampIndex (indices : List ℕ) :
    ((indices.map fun i => some (settledAs (read i))).zip indices).filterMap stampIndex =
      indices.filterMap fun i => (read i).toOption.map fun info => { info with index := some i } := by
  have hzip : (indices.map fun i => some (settledAs (read i))).zip indices =
      indices.map fun i => (some (settledAs (read i)), i) := by
    conv_lhs => rw [← List.map_id indices, List.map_map, List.zip_map']
    rfl
  rw [hzip, List.filterMap_map]
  apply List.filterMap_congr
  intro i _
  rw [Function.comp_apply]
  cases read i with
  | error reason => rfl
  | ok info => rfl

/-- The error is the one of the first read that failed. -/
theorem findSome?_rejection (indices : List ℕ) :
    ((indices.map fun i => some (settledAs (read i))).findSome? rejection).getD
        "Failed to fetch any tokens for the requested page" = firstRejection read indices := by
  rw [firstRejection, List.findSome?_map]
  congr 2
  funext i
  rw [Function.comp_apply]
  cases read i with
  | error reason => rfl
  | ok info => rfl

/-- The reads settle as their answers say, in the order of the indices. -/
theorem settled_eq_map {s : State String TokenInfo}
    {settled : List (Option (PromiseSettledResult String TokenInfo))}
    (hr : Run (Step (readTasks indices))
      (allSettledWithConcurrency (readTasks indices) GET_ALL_TOKENS_CONCURRENCY) h s)
    (hresolved : resolved s = some settled) (hread : Answers indices read h) :
    settled = indices.map fun i => some (settledAs (read i)) := by
  obtain ⟨hv, hworkers⟩ := settles_run hr
  have hempty := (resolved_isSome hv).mp (Option.isSome_of_eq_some hresolved)
  obtain ⟨results, hresults, hlength, hentries⟩ := hv.resolved (hv.last hworkers hempty) hempty
  obtain rfl := Option.some.inj (hresults.symm.trans hresolved)
  have htasks : (readTasks indices).length = indices.length := List.length_map _
  rw [htasks] at hlength hentries
  -- slot by slot: a task that is a read never throws by itself, so it was answered
  refine List.ext_getElem? fun k => ?_
  rw [List.getElem?_map]
  rcases Nat.lt_or_ge k indices.length with hk | hk
  · obtain ⟨r, hr, houtcome⟩ := hentries k hk
    rw [hr, List.getElem?_eq_getElem hk, Option.map_some]
    rcases houtcome with ⟨reason, hthrows, -⟩ | ⟨-, hmem⟩
    · unfold readTasks at hthrows
      rw [List.getElem?_map, List.getElem?_eq_getElem hk] at hthrows
      cases hthrows
    · have hanswer := hread _ hmem
      rw [List.getElem?_eq_getElem hk] at hanswer
      have hvalue : settledAs (read indices[k]) = r := Option.some.inj hanswer
      rw [hvalue]
  · rw [List.getElem?_eq_none (hlength ▸ hk), List.getElem?_eq_none hk]
    rfl

/-- The page is the one of the reads in their order. -/
theorem Returned.eq_getAllTokens (hreturned : Returned total offset limit h result)
    (hread : Answers (window total offset limit) read h) (getFactoryState : Except String ℕ) :
    result = getAllTokens getFactoryState read offset limit (some total) := by
  unfold Returned at hreturned
  rw [getAllTokens, Option.elim_some]
  split_ifs at hreturned with hnone
  · obtain ⟨-, rfl⟩ := hreturned
    dsimp only
    by_cases hzero : total = 0 ∨ limit = 0
    · rw [if_pos hzero]
    · rw [if_neg hzero, if_pos]
      omega
  · obtain ⟨s, settled, hr, hresolved, rfl⟩ := hreturned
    obtain ⟨hzero, hlimit, hpast⟩ : total ≠ 0 ∧ limit ≠ 0 ∧ ¬ total - offset < 1 := by
      rw [not_or, not_or] at hnone
      exact hnone
    obtain rfl := settled_eq_map hr hresolved hread
    dsimp only
    rw [if_neg (not_or.mpr ⟨hzero, hlimit⟩), if_neg hpast, assemblePage, filterMap_stampIndex,
      findSome?_rejection]

/-- Whatever the reads give, they can settle. -/
theorem exists_returned (total offset limit : ℕ) (read : ℕ → Except String TokenInfo) :
    ∃ h result, Answers (window total offset limit) read h ∧ Returned total offset limit h result := by
  -- an empty window is answered without any read
  by_cases hnone : total = 0 ∨ limit = 0 ∨ total - offset < 1
  · refine ⟨[], .ok ⟨[], total⟩, fun e he => absurd he List.not_mem_nil, ?_⟩
    rw [Returned, if_pos hnone]
    exact ⟨rfl, rfl⟩
  · -- otherwise the reads finish, and each is answered as `read` says
    let indices := window total offset limit
    let start : State String TokenInfo :=
      allSettledWithConcurrency (readTasks indices) GET_ALL_TOKENS_CONCURRENCY
    have hstart : Run (Step (readTasks indices)) start [] start := .nil
    obtain ⟨h, s, hr, houtcome, hempty⟩ :=
      exists_run_finished (fun k => settledAs (read (indices[k]?.getD 0))) hstart
    rw [List.append_nil] at hr hempty
    obtain ⟨hv, hworkers⟩ := settles_run hr
    obtain ⟨settled, hresolved, -⟩ := hv.resolved (hv.last hworkers hempty) hempty
    refine ⟨h, assemblePage settled indices total, fun e he => ?_, ?_⟩
    · have hlt : e.1 < indices.length := by
        have hlast := hv.answered e.1 (List.mem_map_of_mem he)
        rw [hv.last hworkers hempty] at hlast
        exact Nat.lt_of_lt_of_eq hlast (List.length_map _)
      rw [houtcome e he, List.getElem?_eq_getElem hlt]
      rfl
    · rw [Returned, if_neg hnone]
      exact ⟨s, settled, hr, hresolved, rfl⟩

/-! ### The windows of one total -/

theorem filterMap_read_eq_nil :
    (indices.filterMap fun i => (read i).toOption.map fun info => { info with index := some i }) = [] ↔
      ∀ i ∈ indices, (read i).isOk = false := by
  rw [List.filterMap_eq_nil_iff]
  refine forall₂_congr fun i _ => ?_
  cases read i with
  | error reason => exact iff_of_true rfl rfl
  | ok info => exact iff_of_false (Option.some_ne_none _) fun hok => Bool.noConfusion hok

theorem getAllTokens_past {getFactoryState : Except String ℕ} (hpast : total ≤ offset) :
    getAllTokens getFactoryState read offset limit (some total) = .ok ⟨[], total⟩ := by
  rw [getAllTokens, Option.elim_some]
  dsimp only
  by_cases hzero : total = 0 ∨ limit = 0
  · rw [if_pos hzero]
  · rw [if_neg hzero, if_pos]
    omega

/-- A page is an error only if there was something to read and nothing could be. -/
theorem getAllTokens_error_iff {getFactoryState : Except String ℕ} (hlimit : 0 < limit) :
    (∃ reason, getAllTokens getFactoryState read offset limit (some total) = .error reason) ↔
      window total offset limit ≠ [] ∧ ∀ i ∈ window total offset limit, (read i).isOk = false := by
  rw [Ne, window_eq_nil_iff hlimit]
  rcases Nat.lt_or_ge offset total with hlt | hpast
  · have hzero : ¬(total = 0 ∨ limit = 0) := by omega
    have hsome : ¬ total - offset < 1 := by omega
    rw [getAllTokens, Option.elim_some]
    dsimp only
    rw [if_neg hzero, if_neg hsome, ← filterMap_read_eq_nil]
    split_ifs with hnil
    · exact iff_of_true ⟨_, rfl⟩ ⟨Nat.not_le.mpr hlt, hnil⟩
    · exact iff_of_false (fun ⟨_, hok⟩ => hok.elim) fun h => hnil h.2
  · rw [getAllTokens_past hpast]
    refine iff_of_false ?_ fun h => h.1 hpast
    rintro ⟨_, hok⟩
    cases hok

/-- **The windows tile the numbers of the tokens.**  Put one after another they are all numbers up to the
total, newest first; no two share one, and those past the oldest token are empty.  A page has the tokens of
its window that can be read, whatever the order of the reads, and fails only where none can. -/
theorem getAllTokens_windows (n : ℕ) (p : ℕ+) :
    (∀ m, ((List.range m).flatMap fun k => window n (k * p) p) =
      (List.range' 1 n).reverse.take (m * p)) ∧
    (∀ j k, j ≠ k → (window n (j * p) p).Disjoint (window n (k * p) p)) ∧
    (∀ i, (∃ k, i ∈ window n (k * p) p) ↔ 1 ≤ i ∧ i ≤ n) ∧
    (∀ k, window n (k * p) p = [] ↔ n ≤ k * p) ∧
    ∀ k (read : ℕ → Except String TokenInfo),
      (∃ h result, Answers (window n (k * p) p) read h ∧ Returned n (k * p) p h result) ∧
      ∀ h result, Answers (window n (k * p) p) read h → Returned n (k * p) p h result →
        (∀ page, result = .ok page → page.total = n ∧
          page.numbers = (window n (k * p) p).filter fun i => (read i).isOk) ∧
        ((∃ reason, result = .error reason) ↔
          window n (k * p) p ≠ [] ∧ ∀ i ∈ window n (k * p) p, (read i).isOk = false) := by
  refine ⟨flatMap_window n p, fun j k hne i hj hk => hne (window_unique p.pos hj hk), fun i => ?_,
    fun k => window_eq_nil_iff p.pos, fun k read => ⟨exists_returned n _ p read, fun h result hread
      hreturned => ?_⟩⟩
  · -- the page of a number is its distance from the end, divided by the size
    constructor
    · rintro ⟨k, hk⟩
      have hmem := (mem_window_iff_div p.pos).mp hk
      exact ⟨hmem.1, hmem.2.1⟩
    · rintro ⟨hpos, hle⟩
      exact ⟨(n - i) / p, (mem_window_iff_div p.pos).mpr ⟨hpos, hle, rfl⟩⟩
  · have hresult := hreturned.eq_getAllTokens hread (.ok 0)
    constructor
    · rintro page rfl
      obtain ⟨htotal, hnumbers⟩ := getAllTokens_eq_ok hresult.symm
      obtain rfl := Except.ok.inj htotal
      exact ⟨rfl, hnumbers⟩
    · rw [hresult]
      exact getAllTokens_error_iff p.pos

end StellarForge.Frontend.Tokens
