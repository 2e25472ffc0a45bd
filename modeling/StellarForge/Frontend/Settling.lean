import Mathlib.Data.List.Nodup
import Mathlib.Data.List.Perm.Subperm
import Mathlib.Data.PNat.Defs
import Mathlib.Logic.Function.Iterate
import StellarForge.Transition.Run

/-!
# Settling tasks with bounded concurrency

`allSettledWithConcurrency` calls the tasks of a list from a number of workers that share an index.  A
worker runs up to the promise that it awaits; then the promises of all workers may settle in any order.

* `loops_worker`: what a worker does up to its next promise;
* `Valid`: the invariant, kept by the start of a worker and by every promise that settles;
* `allSettledWithConcurrency_spec`: **every task is called once and in order, the number of those that are
  unfinished is bounded, and the outcomes are returned in the order of the tasks.**
-/

namespace StellarForge.Frontend.Settling

open Transition

/-! ### The function -/

/-- What a task does when it is called: it throws, or returns a promise. -/
inductive Task (ε : Type)
  | throws (reason : ε)
  | returns

/-- How a task has ended. -/
inductive PromiseSettledResult (ε α : Type)
  | fulfilled (value : α)
  | rejected (reason : ε)
  deriving DecidableEq, Repr

/-- The next task, what has been written, and where each worker stands. -/
structure State (ε α : Type) where
  nextIndex : ℕ
  /-- An array, with holes where nothing has been written. -/
  results : List (Option (PromiseSettledResult ε α))
  /-- The task whose promise each worker awaits; `none` for a worker that has returned. -/
  workers : List (Option ℕ)
  /-- The tasks that have been called, in their order. -/
  started : List ℕ

variable {ε α : Type}

/-- The loop of a worker over the tasks that are left, up to the next promise. -/
def worker : List (Task ε) → State ε α → Option ℕ × State ε α
  | [], s => (none, s)
  | .throws reason :: rest, s =>
    worker rest { s with
      nextIndex := s.nextIndex + 1
      results := s.results.set s.nextIndex (some (.rejected reason))
      started := s.started ++ [s.nextIndex] }
  | .returns :: _, s =>
    (some s.nextIndex, { s with
      nextIndex := s.nextIndex + 1
      started := s.started ++ [s.nextIndex] })

/-- A worker is started. -/
def launch (tasks : List (Task ε)) (s : State ε α) : State ε α :=
  let (awaits, s) := worker (tasks.drop s.nextIndex) s
  { s with workers := s.workers ++ [awaits] }

/-- The workers: no more than tasks, but one at least. -/
def workerCount (tasks : List (Task ε)) (limit : ℕ) : ℕ := max 1 (min limit tasks.length)

/-- `allSettledWithConcurrency`, up to the first `await` of each worker. -/
def allSettledWithConcurrency (tasks : List (Task ε)) (limit : ℕ) : State ε α :=
  (launch tasks)^[workerCount tasks limit]
    { nextIndex := 0, results := List.replicate tasks.length none, workers := [], started := [] }

/-- The promise of the task `i` settles, and the worker that awaits it goes on. -/
def settle (tasks : List (Task ε)) (s : State ε α) (i : ℕ) (outcome : PromiseSettledResult ε α) :
    Option (State ε α) :=
  if some i ∈ s.workers then
    let s := { s with results := s.results.set i (some outcome) }
    let (awaits, s) := worker (tasks.drop s.nextIndex) s
    some { s with workers := s.workers.replace (some i) awaits }
  else none

/-- What the function resolves with, once all workers have returned. -/
def resolved (s : State ε α) : Option (List (Option (PromiseSettledResult ε α))) :=
  if s.workers.all Option.isNone then some s.results else none

/-- A promise that settles, and how. -/
abbrev Event (ε α : Type) := ℕ × PromiseSettledResult ε α

/-- A task settles, and its worker goes on. -/
def Step (tasks : List (Task ε)) (s : State ε α) (e : Event ε α) (s' : State ε α) : Prop :=
  settle tasks s e.1 e.2 = some s'

/-! ### The loop of a worker -/

variable {tasks rest : List (Task ε)} {s s' : State ε α} {awaits : Option ℕ} {h : List (Event ε α)}
  {i k : ℕ} {r : PromiseSettledResult ε α}

@[simp] theorem workers_worker : (worker rest s).2.workers = s.workers := by
  induction rest generalizing s with
  | nil => rfl
  | cons task rest ih =>
    cases task with
    | throws reason =>
      rw [worker]
      exact ih
    | returns => rfl

/-- What a worker does up to its next promise: it calls tasks in their order, and writes a rejection for
each that throws. -/
structure Loops (tasks : List (Task ε)) (s : State ε α) (awaits : Option ℕ) (s' : State ε α) :
    Prop where
  le : s.nextIndex ≤ s'.nextIndex
  nextIndex_le : s'.nextIndex ≤ tasks.length
  started : s'.started = s.started ++ List.range' s.nextIndex (s'.nextIndex - s.nextIndex)
  length_results : s'.results.length = s.results.length
  before : ∀ i < s.nextIndex, s'.results[i]? = s.results[i]?
  called : ∀ i, s.nextIndex ≤ i → i < s'.nextIndex → some i ≠ awaits →
    ∃ reason, tasks[i]? = some (.throws reason) ∧ s'.results[i]? = some (some (.rejected reason))
  awaits_some : ∀ i, awaits = some i → s.nextIndex ≤ i ∧ i < s'.nextIndex ∧ tasks[i]? = some .returns
  awaits_none : awaits = none → s'.nextIndex = tasks.length

/-- **A worker runs tasks until one returns a promise**, or there are none left. -/
theorem loops_worker (hrest : rest = tasks.drop s.nextIndex) (hle : s.nextIndex ≤ tasks.length)
    (hlength : s.results.length = tasks.length) :
    Loops tasks s (worker rest s).1 (worker rest s).2 := by
  -- the worker takes the tasks in order: by induction on those it has not reached
  induction rest generalizing s with
  | nil =>
    have hlast : s.nextIndex = tasks.length := by
      have hlen := congrArg List.length hrest
      rw [List.length_drop, List.length_nil] at hlen
      omega
    refine ⟨le_rfl, hle, ?_, rfl, fun _ _ => rfl, fun i hge hlt => ?_, fun i hi => ?_,
      fun _ => hlast⟩
    · rw [worker, Nat.sub_self, List.range'_zero, List.append_nil]
    · exact absurd hge (Nat.not_le.mpr hlt)
    · cases hi
  | cons task rest ih =>
    obtain ⟨htask, hdrop⟩ : tasks[s.nextIndex]? = some task ∧ rest = tasks.drop (s.nextIndex + 1) := by
      constructor
      · rw [← List.head?_drop, ← hrest, List.head?_cons]
      · rw [← List.tail_drop, ← hrest, List.tail_cons]
    have hlt : s.nextIndex < tasks.length := (List.getElem?_eq_some_iff.mp htask).1
    cases task with
    -- a call that throws at once is settled in the loop, which goes on
    | throws reason =>
      have hrec := @ih { s with
        nextIndex := s.nextIndex + 1
        results := s.results.set s.nextIndex (some (.rejected reason))
        started := s.started ++ [s.nextIndex] } hdrop hlt (by rw [List.length_set, hlength])
      rw [worker]
      have hnext : s.nextIndex + 1 ≤ _ := hrec.le
      refine ⟨by omega, hrec.nextIndex_le, ?_, ?_, fun i hi => ?_, fun i hge hlt' hne => ?_,
        fun i hi => ?_, hrec.awaits_none⟩
      · rw [hrec.started, List.append_assoc, List.singleton_append]
        congr 1
        dsimp only
        rw [← List.range'_succ]
        congr 1
        omega
      · rw [hrec.length_results, List.length_set]
      · rw [hrec.before i (Nat.lt_succ_of_lt hi), List.getElem?_set_ne (by omega)]
      · -- the index just taken, or one a later round takes
        rcases Nat.eq_or_lt_of_le hge with rfl | hgt
        · refine ⟨reason, htask, ?_⟩
          rw [hrec.before _ (Nat.lt_succ_self _)]
          exact List.getElem?_set_self (by omega)
        · exact hrec.called i hgt hlt' hne
      · obtain ⟨hge, hlt', hreturns⟩ := hrec.awaits_some i hi
        exact ⟨Nat.le_of_succ_le hge, hlt', hreturns⟩
    -- a promise ends the round: the worker waits for it
    | returns =>
      rw [worker]
      refine ⟨Nat.le_succ _, hlt, ?_, rfl, fun _ _ => rfl, fun i hge hlt' hne => ?_,
        fun i hi => ?_, fun hnone => ?_⟩
      · dsimp only
        rw [Nat.add_sub_cancel_left]
        rfl
      · have hi : i = s.nextIndex := Nat.le_antisymm (Nat.lt_succ_iff.mp hlt') hge
        exact absurd (congrArg some hi) hne
      · obtain rfl := Option.some.inj hi
        exact ⟨le_rfl, Nat.lt_succ_self _, htask⟩
      · cases hnone

/-! ### The invariant -/

/-- The outcome of a task: what it throws, or how its promise has settled. -/
def Outcome (tasks : List (Task ε)) (h : List (Event ε α)) (i : ℕ) (r : PromiseSettledResult ε α) :
    Prop :=
  (∃ reason, tasks[i]? = some (.throws reason) ∧ r = .rejected reason) ∨
    tasks[i]? = some .returns ∧ (i, r) ∈ h

/-- After the events `h`, with the workers `workers` up to their next promises. -/
structure Valid (tasks : List (Task ε)) (h : List (Event ε α)) (workers : List (Option ℕ))
    (s : State ε α) : Prop where
  nextIndex_le : s.nextIndex ≤ tasks.length
  started : s.started = List.range s.nextIndex
  length_results : s.results.length = tasks.length
  awaited : ∀ i, some i ∈ workers ↔
    i < s.nextIndex ∧ tasks[i]? = some .returns ∧ i ∉ h.map Prod.fst
  nodup : (workers.filterMap id).Nodup
  written : ∀ i < s.nextIndex, some i ∉ workers →
    ∃ r, s.results[i]? = some (some r) ∧ Outcome tasks h i r
  returned : none ∈ workers → s.nextIndex = tasks.length
  answered : ∀ i ∈ h.map Prod.fst, i < s.nextIndex
  once : (h.map Prod.fst).Nodup

variable {workers workers' : List (Option ℕ)}

theorem valid_nil : Valid tasks ([] : List (Event ε α)) []
    { nextIndex := 0, results := List.replicate tasks.length none, workers := [], started := [] } where
  nextIndex_le := Nat.zero_le _
  started := rfl
  length_results := List.length_replicate
  awaited _ := iff_of_false List.not_mem_nil fun h => absurd h.1 (Nat.not_lt_zero _)
  nodup := List.nodup_nil
  written _ hi := absurd hi (Nat.not_lt_zero _)
  returned hnone := absurd hnone List.not_mem_nil
  answered _ hi := absurd hi List.not_mem_nil
  once := List.nodup_nil

/-- The order of the workers does not matter. -/
theorem Valid.perm (hv : Valid tasks h workers s) (hperm : workers.Perm workers') :
    Valid tasks h workers' s where
  nextIndex_le := hv.nextIndex_le
  started := hv.started
  length_results := hv.length_results
  awaited i := hperm.mem_iff.symm.trans (hv.awaited i)
  nodup := (hperm.filterMap id).nodup_iff.mp hv.nodup
  written i hi hnot := hv.written i hi fun hmem => hnot (hperm.mem_iff.mp hmem)
  returned hnone := hv.returned (hperm.mem_iff.mpr hnone)
  answered := hv.answered
  once := hv.once

/-- A worker goes on. -/
theorem Valid.resume (hv : Valid tasks h workers s) (hl : Loops tasks s awaits s') :
    Valid tasks h (awaits :: workers) s' where
  nextIndex_le := hl.nextIndex_le
  started := by
    rw [hl.started, hv.started, List.range'_eq_map_range, ← List.range_add,
      Nat.add_sub_cancel' hl.le]
  length_results := hl.length_results.trans hv.length_results
  awaited i := by
    rw [List.mem_cons]
    constructor
    · rintro (hi | hi)
      · obtain ⟨hge, hlt, hreturns⟩ := hl.awaits_some i hi.symm
        exact ⟨hlt, hreturns, fun hmem => absurd (hv.answered i hmem) (Nat.not_lt.mpr hge)⟩
      · obtain ⟨hlt, hreturns, hnot⟩ := (hv.awaited i).mp hi
        exact ⟨Nat.lt_of_lt_of_le hlt hl.le, hreturns, hnot⟩
    · rintro ⟨hlt, hreturns, hnot⟩
      rcases Nat.lt_or_ge i s.nextIndex with hbefore | hge
      · exact .inr ((hv.awaited i).mpr ⟨hbefore, hreturns, hnot⟩)
      · left
        by_contra hne
        obtain ⟨reason, hthrows, -⟩ := hl.called i hge hlt hne
        rw [hreturns] at hthrows
        cases hthrows
  nodup := by
    cases awaits with
    | none => exact hv.nodup
    | some i =>
      -- the task is a new one
      have hnew : i ∉ workers.filterMap id := by
        intro hmem
        obtain ⟨o, ho, rfl⟩ := List.mem_filterMap.mp hmem
        have hlt := ((hv.awaited i).mp ho).1
        exact absurd (hl.awaits_some i rfl).1 (Nat.not_le.mpr hlt)
      exact List.nodup_cons.mpr ⟨hnew, hv.nodup⟩
  written i hi hnot := by
    obtain ⟨hne, hnot⟩ := not_or.mp (mt List.mem_cons.mpr hnot)
    rcases Nat.lt_or_ge i s.nextIndex with hbefore | hge
    · rw [hl.before i hbefore]
      exact hv.written i hbefore hnot
    · obtain ⟨reason, hthrows, hresult⟩ := hl.called i hge hi hne
      exact ⟨_, hresult, .inl ⟨reason, hthrows, rfl⟩⟩
  returned hnone := by
    rcases List.mem_cons.mp hnone with hnone | hnone
    · exact hl.awaits_none hnone.symm
    · have hlast := hv.returned hnone
      have hle := hl.le
      have hle' := hl.nextIndex_le
      omega
  answered i hi := Nat.lt_of_lt_of_le (hv.answered i hi) hl.le
  once := hv.once

theorem Outcome.cons {e : Event ε α} (ho : Outcome tasks h i r) : Outcome tasks (e :: h) i r := by
  rcases ho with hthrows | ⟨hreturns, hmem⟩
  · exact .inl hthrows
  · exact .inr ⟨hreturns, List.mem_cons_of_mem _ hmem⟩

/-- A promise settles, and its worker is about to go on. -/
theorem Valid.answer (hv : Valid tasks h (some i :: workers) s) :
    Valid tasks ((i, r) :: h) workers { s with results := s.results.set i (some r) } := by
  -- the task answered was called, returned a promise and has no answer yet
  obtain ⟨hlt, hreturns, hnot⟩ := (hv.awaited i).mp List.mem_cons_self
  have hnodup : i ∉ workers.filterMap id ∧ (workers.filterMap id).Nodup :=
    List.nodup_cons.mp hv.nodup
  have hother : some i ∉ workers := fun hmem =>
    hnodup.1 (List.mem_filterMap.mpr ⟨some i, hmem, rfl⟩)
  refine ⟨hv.nextIndex_le, hv.started, ?_, fun j => ?_, hnodup.2, fun j hj hnotj => ?_,
    fun hnone => hv.returned (List.mem_cons_of_mem _ hnone), fun j hj => ?_, ?_⟩
  · exact List.length_set.trans hv.length_results
  · rw [List.map_cons, List.mem_cons, not_or]
    constructor
    · intro hmem
      obtain ⟨hltj, hreturnsj, hnotj⟩ := (hv.awaited j).mp (List.mem_cons_of_mem _ hmem)
      exact ⟨hltj, hreturnsj, fun heq : j = i => hother (heq ▸ hmem), hnotj⟩
    · rintro ⟨hltj, hreturnsj, hne, hnotj⟩
      rcases List.mem_cons.mp ((hv.awaited j).mpr ⟨hltj, hreturnsj, hnotj⟩) with heq | hmem
      · exact absurd (Option.some.inj heq) hne
      · exact hmem
  · -- its slot is written now; the others are as they were
    by_cases hne : j = i
    · subst hne
      refine ⟨r, List.getElem?_set_self ?_, .inr ⟨hreturns, List.mem_cons_self⟩⟩
      rw [hv.length_results]
      exact Nat.lt_of_lt_of_le hlt hv.nextIndex_le
    · have hnot' : some j ∉ some i :: workers := by
        rw [List.mem_cons, not_or]
        exact ⟨fun heq => hne (Option.some.inj heq), hnotj⟩
      obtain ⟨r', hresult, houtcome⟩ := hv.written j hj hnot'
      exact ⟨r', (List.getElem?_set_ne fun heq => hne heq.symm).trans hresult, houtcome.cons⟩
  · rw [List.map_cons, List.mem_cons] at hj
    rcases hj with rfl | hj
    · exact hlt
    · exact hv.answered j hj
  · rw [List.map_cons, List.nodup_cons]
    exact ⟨hnot, hv.once⟩

/-- The invariant of the function. -/
abbrev Settles (tasks : List (Task ε)) (h : List (Event ε α)) (s : State ε α) : Prop :=
  Valid tasks h s.workers s

theorem Valid.loops (hv : Valid tasks h workers s) :
    Loops tasks s (worker (tasks.drop s.nextIndex) s).1 (worker (tasks.drop s.nextIndex) s).2 :=
  loops_worker rfl hv.nextIndex_le hv.length_results

/-- The workers are not part of what is said of the rest of the state. -/
theorem Valid.withWorkers (hv : Valid tasks h workers s) :
    Settles tasks h { s with workers := workers } :=
  ⟨hv.nextIndex_le, hv.started, hv.length_results, hv.awaited, hv.nodup, hv.written, hv.returned,
    hv.answered, hv.once⟩

theorem settles_launch (hv : Settles tasks h s) : Settles tasks h (launch tasks s) := by
  have hl := hv.loops
  have hnext := (hv.resume hl).perm (List.perm_append_singleton _ s.workers).symm
  have hkept : (worker (tasks.drop s.nextIndex) s).2.workers = s.workers := workers_worker
  rw [← hkept] at hnext
  exact hnext.withWorkers

theorem settles_start (tasks : List (Task ε)) (limit : ℕ) :
    Settles tasks ([] : List (Event ε α)) (allSettledWithConcurrency tasks limit) := by
  unfold allSettledWithConcurrency
  induction workerCount tasks limit with
  | zero => exact valid_nil
  | succ k ih =>
    rw [Function.iterate_succ_apply']
    exact settles_launch ih

/-- What a settled task does to the results. -/
theorem settles_step {e : Event ε α} (hv : Settles tasks h s) (hs : Step tasks s e s') :
    Settles tasks (e :: h) s' := by
  unfold Step settle at hs
  split_ifs at hs with hmem
  obtain rfl := Option.some.inj hs
  obtain ⟨before, after, hworkers, hbefore⟩ := List.eq_append_cons_of_mem hmem
  have hanswered : Valid tasks (e :: h) (before ++ after) _ :=
    (hv.perm ((List.Perm.of_eq hworkers).trans List.perm_middle)).answer (r := e.2)
  have hl := hanswered.loops
  have hnext := (hanswered.resume hl).perm List.perm_middle.symm
  have hreplace (next : Option ℕ) : (some e.1 :: after).replace (some e.1) next = next :: after :=
    List.replace_cons_self
  rw [← hreplace, ← List.replace_append_right hbefore, ← hworkers] at hnext
  rw [workers_worker]
  exact hnext.withWorkers

/-! ### The number of workers -/

theorem length_workers_step {e : Event ε α} (hs : Step tasks s e s') :
    s'.workers.length = s.workers.length := by
  unfold Step settle at hs
  split_ifs at hs with hmem
  obtain rfl := Option.some.inj hs
  rw [List.length_replace, workers_worker]

theorem length_workers_start (tasks : List (Task ε)) (limit : ℕ) :
    (allSettledWithConcurrency tasks limit : State ε α).workers.length = workerCount tasks limit := by
  unfold allSettledWithConcurrency
  induction workerCount tasks limit with
  | zero => rfl
  | succ k ih =>
    rw [Function.iterate_succ_apply', launch, List.length_append, workers_worker, ih,
      List.length_singleton]

/-! ### The whole run -/

variable {limit : ℕ+}

theorem settles_run (hr : Run (Step tasks) (allSettledWithConcurrency tasks limit) h s) :
    Settles tasks h s ∧ s.workers.length = workerCount tasks limit := by
  induction hr with
  | nil => exact ⟨settles_start tasks limit, length_workers_start tasks limit⟩
  | snoc _ hs ih => exact ⟨settles_step ih.1 hs, (length_workers_step hs).trans ih.2⟩

/-- The task does not throw before it returns a promise. -/
def Task.isReturned : Task ε → Bool
  | .throws _ => false
  | .returns => true

@[simp] theorem any_isReturned {task : Option (Task ε)} :
    task.any Task.isReturned ↔ task = some .returns := by
  rcases task with _ | _ | _ <;> simp [Task.isReturned]

/-- The tasks that have been called and whose promises have not settled. -/
def unfinished (tasks : List (Task ε)) (h : List (Event ε α)) (s : State ε α) : List ℕ :=
  s.started.filter fun i => tasks[i]?.any Task.isReturned && !(h.map Prod.fst).contains i

theorem mem_unfinished (hv : Settles tasks h s) : i ∈ unfinished tasks h s ↔ some i ∈ s.workers := by
  rw [hv.awaited, unfinished, List.mem_filter, hv.started, List.mem_range, Bool.and_eq_true,
    any_isReturned, Bool.not_eq_true', List.contains_eq_mem, decide_eq_false_iff_not]

/-- No more tasks are on their way than there are workers. -/
theorem length_unfinished (hv : Settles tasks h s)
    (hworkers : s.workers.length = workerCount tasks limit) :
    (unfinished tasks h s).length ≤ min (limit : ℕ) tasks.length := by
  have hnodup : (unfinished tasks h s).Nodup := by
    rw [unfinished, hv.started]
    exact List.nodup_range.filter _
  have hperm : (unfinished tasks h s).Perm (s.workers.filterMap id) := by
    refine (List.perm_ext_iff_of_nodup hnodup hv.nodup).mpr fun i => ?_
    rw [mem_unfinished hv, List.mem_filterMap]
    simp
  have hle : (unfinished tasks h s).length ≤ workerCount tasks limit := by
    rw [hperm.length_eq, ← hworkers]
    exact List.length_filterMap_le _ _
  rcases tasks.length.eq_zero_or_pos with hzero | hpos
  · have hnext : s.nextIndex = 0 := Nat.le_zero.mp (hzero ▸ hv.nextIndex_le)
    rw [unfinished, hv.started, hnext]
    exact Nat.zero_le _
  · have hlimit := limit.pos
    unfold workerCount at hle
    omega

/-- A task is settled once, so the run is no longer than the list. -/
theorem Valid.length_le (hv : Valid tasks h workers s) : h.length ≤ tasks.length := by
  have hsub : h.map Prod.fst ⊆ List.range s.nextIndex := fun i hi =>
    List.mem_range.mpr (hv.answered i hi)
  have hle := (List.subperm_of_subset hv.once hsub).length_le
  rw [List.length_map, List.length_range] at hle
  exact hle.trans hv.nextIndex_le

theorem step_iff_unfinished (hv : Settles tasks h s) :
    (∃ s', Step tasks s (i, r) s') ↔ i ∈ unfinished tasks h s := by
  rw [mem_unfinished hv]
  unfold Step settle
  split_ifs with hmem
  · exact iff_of_true ⟨_, rfl⟩ hmem
  · exact iff_of_false (fun ⟨_, hs⟩ => hs.elim) hmem

/-- The call resolves when no task is unfinished. -/
theorem resolved_isSome (hv : Settles tasks h s) :
    (resolved s).isSome ↔ unfinished tasks h s = [] := by
  have hall : s.workers.all Option.isNone ↔ unfinished tasks h s = [] := by
    rw [List.all_eq_true, List.eq_nil_iff_forall_not_mem]
    constructor
    · intro hnone i hi
      cases hnone _ ((mem_unfinished hv).mp hi)
    · intro hempty awaits hmem
      cases awaits with
      | none => rfl
      | some i => exact absurd ((mem_unfinished hv).mpr hmem) (hempty i)
  rw [← hall, resolved]
  split_ifs with hreturned
  · exact iff_of_true rfl hreturned
  · exact iff_of_false Bool.false_ne_true hreturned

/-- With nothing unfinished all workers have returned, each past the last task. -/
theorem Valid.last (hv : Settles tasks h s) (hworkers : s.workers.length = workerCount tasks limit)
    (hempty : unfinished tasks h s = []) : s.nextIndex = tasks.length := by
  apply hv.returned
  have hpos : 0 < s.workers.length := by
    rw [hworkers]
    exact Nat.lt_of_lt_of_le Nat.one_pos (le_max_left _ _)
  obtain ⟨awaits, hmem⟩ := List.exists_mem_of_length_pos hpos
  cases awaits with
  | none => exact hmem
  | some i => exact absurd ((mem_unfinished hv).mpr hmem) (hempty ▸ List.not_mem_nil)

/-- The outcomes are returned in the order of the tasks. -/
theorem Valid.resolved (hv : Settles tasks h s) (hlast : s.nextIndex = tasks.length)
    (hempty : unfinished tasks h s = []) : ∃ results, resolved s = some results ∧
      results.length = tasks.length ∧
      ∀ k < tasks.length, ∃ r, results[k]? = some (some r) ∧ Outcome tasks h k r := by
  refine ⟨s.results, ?_, hv.length_results, fun k hk => ?_⟩
  · have hresolved := (resolved_isSome hv).mpr hempty
    unfold Settling.resolved at hresolved ⊢
    split_ifs at hresolved ⊢
    · rfl
    · cases hresolved
  · refine hv.written k (hlast ▸ hk) fun hmem => ?_
    exact List.not_mem_nil (hempty ▸ (mem_unfinished hv).mpr hmem)

/-- Every run goes on to one that has settled all tasks, whatever becomes of the promises. -/
theorem exists_run_finished (outcome : ℕ → PromiseSettledResult ε α)
    (hr : Run (Step tasks) (allSettledWithConcurrency tasks limit) h s) :
    ∃ h' s', Run (Step tasks) (allSettledWithConcurrency tasks limit) (h' ++ h) s' ∧
      (∀ e ∈ h', e.2 = outcome e.1) ∧ unfinished tasks (h' ++ h) s' = [] := by
  have hv := (settles_run hr).1
  have hle := hv.length_le
  -- each answer leaves one task fewer to answer
  generalize hleft : tasks.length - h.length = left
  induction left generalizing h s with
  | zero =>
    -- with as many answers as tasks no further step is possible
    refine ⟨[], s, hr, fun e he => absurd he List.not_mem_nil, ?_⟩
    rw [List.eq_nil_iff_forall_not_mem]
    intro i hi
    obtain ⟨s', hs⟩ := (step_iff_unfinished (r := outcome i) hv).mpr hi
    have hnext := (settles_step hv hs).length_le
    rw [List.length_cons] at hnext
    omega
  | succ left ih =>
    cases hunfinished : unfinished tasks h s with
    | nil => exact ⟨[], s, hr, fun e he => absurd he List.not_mem_nil, hunfinished⟩
    | cons i rest =>
      have hi : i ∈ unfinished tasks h s := hunfinished ▸ List.mem_cons_self
      obtain ⟨s₁, hs⟩ := (step_iff_unfinished (r := outcome i) hv).mpr hi
      have hnext := settles_step hv hs
      have hleft' : tasks.length - ((i, outcome i) :: h).length = left := by
        rw [List.length_cons]
        omega
      obtain ⟨h', s', hr', houtcome, hfinished⟩ := ih (hr.snoc hs) hnext hnext.length_le hleft'
      have hassoc : h' ++ (i, outcome i) :: h = (h' ++ [(i, outcome i)]) ++ h := by
        rw [List.append_assoc, List.singleton_append]
      rw [hassoc] at hr' hfinished
      refine ⟨h' ++ [(i, outcome i)], s', hr', fun e he => ?_, hfinished⟩
      rcases List.mem_append.mp he with he | he
      · exact houtcome e he
      · rw [List.mem_singleton.mp he]

/-- **Bounded concurrent settling.**  In every run the tasks are called in their order, each once; no more
of them are unfinished than the limit and the number of tasks; any unfinished one may settle next.  Once
none is unfinished all have been called, and the function resolves with the outcome of every task at its
place. -/
theorem allSettledWithConcurrency_spec (tasks : List (Task ε)) (limit : ℕ+)
    (hr : Run (Step tasks) (allSettledWithConcurrency tasks limit) h s) :
    (s.started = List.range s.nextIndex ∧ s.nextIndex ≤ tasks.length) ∧
    (unfinished tasks h s).length ≤ min (limit : ℕ) tasks.length ∧
    (∀ i (r : PromiseSettledResult ε α), (∃ s', Step tasks s (i, r) s') ↔ i ∈ unfinished tasks h s) ∧
    ((h.map Prod.fst).Nodup ∧ h.length ≤ tasks.length) ∧
    ((resolved s).isSome ↔ unfinished tasks h s = []) ∧
    (unfinished tasks h s = [] → s.started = List.range tasks.length ∧
      ∃ results, resolved s = some results ∧ results.length = tasks.length ∧
        ∀ k < tasks.length, ∃ r, results[k]? = some (some r) ∧ Outcome tasks h k r) := by
  obtain ⟨hv, hworkers⟩ := settles_run hr
  refine ⟨⟨hv.started, hv.nextIndex_le⟩, length_unfinished hv hworkers, fun i r => step_iff_unfinished hv,
    ⟨hv.once, hv.length_le⟩, resolved_isSome hv, fun hempty => ?_⟩
  have hlast := hv.last hworkers hempty
  exact ⟨hlast ▸ hv.started, hv.resolved hlast hempty⟩

/-- The second task throws, and the third settles before the first. -/
theorem allSettledWithConcurrency_spec_three : ∃ s : State ℕ ℕ,
    Run (Step [.returns, .throws 7, .returns])
      (allSettledWithConcurrency [.returns, .throws 7, .returns] (2 : ℕ+))
      [(0, .rejected 9), (2, .fulfilled 5)] s ∧
    unfinished [.returns, .throws 7, .returns] [(0, .rejected 9), (2, .fulfilled 5)] s = [] ∧
    resolved s = some [some (.rejected 9), some (.rejected 7), some (.fulfilled 5)] := by
  have hr : Run (Step [.returns, .throws 7, .returns])
      (allSettledWithConcurrency [.returns, .throws 7, .returns] (2 : ℕ+))
      [(0, .rejected 9), (2, .fulfilled 5)]
      ({ nextIndex := 3, results := [some (.rejected 9), some (.rejected 7), some (.fulfilled 5)],
         workers := [none, none], started := [0, 1, 2] } : State ℕ ℕ) := by
    have hfirst : Step [.returns, .throws 7, .returns]
        (allSettledWithConcurrency [.returns, .throws 7, .returns] (2 : ℕ+) : State ℕ ℕ)
        (2, .fulfilled 5)
        { nextIndex := 3, results := [none, some (.rejected 7), some (.fulfilled 5)],
          workers := [some 0, none], started := [0, 1, 2] } := rfl
    exact .snoc (.snoc .nil hfirst) rfl
  have hresolved := (allSettledWithConcurrency_spec _ _ hr).2.2.2.2.1
  exact ⟨_, hr, hresolved.mp rfl, rfl⟩

end StellarForge.Frontend.Settling
