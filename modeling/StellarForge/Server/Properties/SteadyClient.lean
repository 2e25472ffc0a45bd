import Mathlib.Data.List.Count
import StellarForge.Server.Properties.WriteLog
import StellarForge.Transition.Run

/-!
# A client within its quotas

The requests of one client, one after another, over a KV store that never fails.  The window bucket
resets 15 minutes after it was opened.  The day bucket is written with a new lifetime of 24 hours by
every request that it lets through, so it resets after 24 hours without a request only.

* `checkAt_cases`: what one request can do, operation by operation;
* `BucketsAfter.step`: the buckets after the requests so far, and what the next one finds;
* `never_limited_iff`: **within the quotas no request is denied if and only if there are never more than
  `maxPerDay` requests one after another that each come within 24 hours of the one before**;
* `limited_hourly`: one request an hour, and the default limits.
-/

namespace StellarForge.Server

open Collections Concurrency Process Transition

/-! ### Requests in turn -/

/-- When a request reads the clock, and when it performs the operations of its check. -/
structure Timing where
  now : ℕ
  windowGet : ℕ
  windowSet : ℕ
  dayGet : ℕ
  daySet : ℕ
  deriving DecidableEq, Repr

/-- The operations of a check in their order; one that is denied does not perform them all. -/
def Timing.operations (τ : Timing) : List ℕ := [τ.windowGet, τ.windowSet, τ.dayGet, τ.daySet]

/-- The operations come after each other. -/
def Timing.Sorted (τ : Timing) : Prop :=
  τ.now ≤ τ.windowGet ∧ τ.windowGet ≤ τ.windowSet ∧ τ.windowSet ≤ τ.dayGet ∧ τ.dayGet ≤ τ.daySet

/-- Whatever has happened, the bucket has not been touched. -/
structure Untouched (p : BucketPrefix) (w w' : ServerWorld) : Prop where
  clock_le : w.clock ≤ w'.clock
  window : w'.store.kv.entry (.window p) = w.store.kv.entry (.window p)
  day : w'.store.kv.entry (.day p) = w.store.kv.entry (.day p)

/-- The next request on the bucket: when it performs its operations, and whether it is denied. -/
def CheckAt (env : Deployment) (p : BucketPrefix) (maxPerWindow maxPerDay : ℤ)
    (cidOf : PinataRequest → String) (w : ServerWorld) (l : Timing × Bool) (w' : ServerWorld) : Prop :=
  ∃ w₁ times, Untouched p w w₁ ∧ w₁.clock = l.1.now ∧ times <+: l.1.operations ∧
    RunsAt (Answers False cidOf) (isRateLimited p maxPerWindow maxPerDay env) times w₁ l.2 w'

/-- How many of the requests come in an interval. -/
def requestsWithin (start length : ℕ) (requests : List Timing) : ℕ :=
  requests.countP fun τ => start ≤ τ.now ∧ τ.now ≤ start + length

/-- Every interval of this length has at most `max` of the requests. -/
def Quota (length : ℕ) (max : ℤ) (requests : List Timing) : Prop :=
  ∀ start, (requestsWithin start length requests : ℤ) ≤ max

/-- 24 hours. -/
def DAY_MS : ℕ := DAY_EX * 1000

/-- How many of the requests, latest first, have come one after another within 24 hours: each has read
the day bucket at most 24 hours after the one before has written it. -/
def steady : List Timing → ℕ
  | [] => 0
  | [_] => 1
  | τ :: τ' :: requests => if τ.dayGet ≤ τ'.daySet + DAY_MS then steady (τ' :: requests) + 1 else 1

/-- A row of requests is at most all of them. -/
theorem steady_le_length : ∀ requests : List Timing, steady requests ≤ requests.length
  | [] => Nat.le_refl 0
  | [_] => Nat.le_refl 1
  | τ :: τ' :: requests => by
    have hrest : steady (τ' :: requests) ≤ (τ' :: requests).length := steady_le_length _
    rw [steady, List.length_cons]
    split_ifs
    · omega
    · omega

/-! ### One check -/

section

variable {env : Deployment} {p : BucketPrefix} {maxPerWindow maxPerDay : ℤ}
  {cidOf : PinataRequest → String} {w w' : ServerWorld} {τ : Timing} {limited : Bool}
  {times : List ℕ}

/-- A read takes one of the times. -/
theorem runsAt_kvGet {k : Key} {f : Option k.Val → Throwing Bool} :
    RunsAt (Answers False cidOf) (failClosed (kvGet k >>= f)) times w limited w' ↔
      ∃ t rest, times = t :: rest ∧ w.clock ≤ t ∧
        RunsAt (Answers False cidOf) (failClosed (f (w.store.kv.get t k))) rest
          { w with clock := t } limited w' := by
  rw [failClosed_kvGet, runsAt_perform]
  constructor
  · rintro ⟨t, rest, r, s, rfl, ht, ⟨rfl, rfl | ⟨hf, -⟩⟩, hnext⟩
    · exact ⟨t, rest, rfl, ht, hnext⟩
    · exact hf.elim
  · rintro ⟨t, rest, rfl, ht, hnext⟩
    exact ⟨t, rest, .ok (w.store.kv.get t k), w.store, rfl, ht, ⟨rfl, .inl rfl⟩, hnext⟩

/-- A write takes one of the times. -/
theorem runsAt_kvSet {k : Key} {v : k.Val} {ex : ℕ} {f : Unit → Throwing Bool} :
    RunsAt (Answers False cidOf) (failClosed (kvSet k v (some ex) >>= f)) times w limited w' ↔
      ∃ t rest, times = t :: rest ∧ w.clock ≤ t ∧
        RunsAt (Answers False cidOf) (failClosed (f ())) rest
          ⟨t, w.memory, { w.store with kv := w.store.kv.set t k v (some (ex * 1000)) }⟩ limited w' := by
  rw [failClosed_kvSet, runsAt_perform]
  constructor
  · rintro ⟨t, rest, r, s, rfl, ht, ⟨rfl, rfl⟩ | ⟨hf, -⟩, hnext⟩
    · exact ⟨t, rest, rfl, ht, hnext⟩
    · exact hf.elim
  · rintro ⟨t, rest, rfl, ht, hnext⟩
    exact ⟨t, rest, .ok (), _, rfl, ht, .inl ⟨rfl, rfl⟩, hnext⟩

theorem runsAt_isRateLimited (hkv : env.isKvConfigured = true) :
    RunsAt (Answers False cidOf) (isRateLimited p maxPerWindow maxPerDay env) times w limited w' ↔
      ∃ t rest, times = t :: rest ∧ w.clock ≤ t ∧
        RunsAt (Answers False cidOf) (failClosed (checkWindow p maxPerWindow maxPerDay w.clock
          (w.store.kv.get t (.window p)))) rest { w with clock := t } limited w' := by
  rw [isRateLimited_eq hkv, runsAt_sync, ← failClosed_kvGet]
  exact runsAt_kvGet

theorem runsAt_checkWindow_none {now : ℕ} {d : Option Bucket}
    (hn : nextWindow maxPerWindow now d = none) :
    RunsAt (Answers False cidOf) (failClosed (checkWindow p maxPerWindow maxPerDay now d)) times w
        limited w' ↔ times = [] ∧ limited = true ∧ w' = w := by
  rw [checkWindow, hn]
  exact runsAt_done

theorem runsAt_checkWindow_some {now : ℕ} {d : Option Bucket} {b : Bucket}
    (hn : nextWindow maxPerWindow now d = some b) :
    RunsAt (Answers False cidOf) (failClosed (checkWindow p maxPerWindow maxPerDay now d)) times w
        limited w' ↔
      ∃ t t' rest, times = t :: t' :: rest ∧ w.clock ≤ t ∧ t ≤ t' ∧
        RunsAt (Answers False cidOf)
          (failClosed (checkDay p maxPerDay (w.store.kv.get t' (.day p)))) rest
          ⟨t', w.memory, { w.store with
            kv := w.store.kv.set t (.window p) b (some (WINDOW_EX * 1000)) }⟩ limited w' := by
  have hday (t t' : ℕ) : (w.store.kv.set t (.window p) b (some (WINDOW_EX * 1000))).get t' (.day p) =
      w.store.kv.get t' (.day p) := Expiring.get_set_ne nofun
  rw [checkWindow, hn]
  dsimp only
  rw [runsAt_kvSet]
  constructor
  · rintro ⟨t, rest, rfl, ht, hrest⟩
    obtain ⟨t', rest, rfl, ht', hrest⟩ := runsAt_kvGet.mp hrest
    rw [hday] at hrest
    exact ⟨t, t', rest, rfl, ht, ht', hrest⟩
  · rintro ⟨t, t', rest, rfl, ht, ht', hrest⟩
    refine ⟨t, t' :: rest, rfl, ht, runsAt_kvGet.mpr ⟨t', rest, rfl, ht', ?_⟩⟩
    rw [hday]
    exact hrest

theorem runsAt_checkDay_none {d : Option ℕ} (hn : nextDay maxPerDay d = none) :
    RunsAt (Answers False cidOf) (failClosed (checkDay p maxPerDay d)) times w limited w' ↔
      times = [] ∧ limited = true ∧ w' = w := by
  rw [checkDay, hn]
  exact runsAt_done

theorem runsAt_checkDay_some {d : Option ℕ} {count : ℕ} (hn : nextDay maxPerDay d = some count) :
    RunsAt (Answers False cidOf) (failClosed (checkDay p maxPerDay d)) times w limited w' ↔
      ∃ t, times = [t] ∧ w.clock ≤ t ∧ limited = false ∧
        w' = ⟨t, w.memory, { w.store with
          kv := w.store.kv.set t (.day p) count (some (DAY_EX * 1000)) }⟩ := by
  rw [checkDay, hn]
  dsimp only
  rw [runsAt_kvSet]
  constructor
  · rintro ⟨t, rest, rfl, ht, hrest⟩
    obtain ⟨rfl, rfl, rfl⟩ := runsAt_done.mp hrest
    exact ⟨t, rfl, ht, rfl, rfl⟩
  · rintro ⟨t, rfl, ht, rfl, rfl⟩
    exact ⟨t, [], rfl, ht, runsAt_done.mpr ⟨rfl, rfl, rfl⟩⟩

/-- The value of a key is that of its entry. -/
theorem get_congr {kv kv' : Expiring Key Key.Val} {k : Key} {t : ℕ}
    (h : kv'.entry k = kv.entry k) : kv'.get t k = kv.get t k := by
  rw [Expiring.get, h, Expiring.get]

/-- **What a request can do**: it is denied by the window bucket, or counted in it and denied by the day
bucket, or counted in both and let through. -/
theorem checkAt_cases (hkv : env.isKvConfigured = true)
    (h : CheckAt env p maxPerWindow maxPerDay cidOf w (τ, limited) w') :
    w.clock ≤ τ.now ∧
      ((nextWindow maxPerWindow τ.now (w.store.kv.get τ.windowGet (.window p)) = none ∧
          limited = true) ∨
        ∃ b, nextWindow maxPerWindow τ.now (w.store.kv.get τ.windowGet (.window p)) = some b ∧
          ((nextDay maxPerDay (w.store.kv.get τ.dayGet (.day p)) = none ∧ limited = true) ∨
            ∃ count, nextDay maxPerDay (w.store.kv.get τ.dayGet (.day p)) = some count ∧
              limited = false ∧ τ.now ≤ w'.clock ∧
              w'.store.kv.entry (.window p) = some ⟨b, some (τ.windowSet + WINDOW_EX * 1000)⟩ ∧
              w'.store.kv.entry (.day p) = some ⟨count, some (τ.daySet + DAY_EX * 1000)⟩)) := by
  obtain ⟨w₁, times, huntouched, hclock, hprefix, hrun⟩ := h
  dsimp only at hclock hprefix hrun
  refine ⟨hclock ▸ huntouched.clock_le, ?_⟩
  rw [Timing.operations] at hprefix
  -- the order of the calls is fixed, so their times are read off the list
  obtain ⟨t, rest, rfl, ht, hrun⟩ := (runsAt_isRateLimited hkv).mp hrun
  obtain ⟨rfl, hrest⟩ := List.cons_prefix_cons.mp hprefix
  rw [hclock, get_congr huntouched.window] at hrun
  rcases hn : nextWindow maxPerWindow τ.now (w.store.kv.get τ.windowGet (.window p)) with _ | b
  · obtain ⟨-, hlimited, -⟩ := (runsAt_checkWindow_none hn).mp hrun
    exact .inl ⟨rfl, hlimited⟩
  · right
    refine ⟨b, rfl, ?_⟩
    obtain ⟨t, t', rest, rfl, ht₁, ht₂, hrun'⟩ := (runsAt_checkWindow_some hn).mp hrun
    obtain ⟨rfl, hrest'⟩ := List.cons_prefix_cons.mp hrest
    obtain ⟨rfl, hlast⟩ := List.cons_prefix_cons.mp hrest'
    dsimp only at hrun'
    rw [get_congr huntouched.day] at hrun'
    rcases hd : nextDay maxPerDay (w.store.kv.get τ.dayGet (.day p)) with _ | count
    · obtain ⟨-, hlimited, -⟩ := (runsAt_checkDay_none hd).mp hrun'
      exact .inl ⟨rfl, hlimited⟩
    · -- both buckets are written, each under its own key
      obtain ⟨t, rfl, ht₃, hlimited, rfl⟩ := (runsAt_checkDay_some hd).mp hrun'
      obtain ⟨rfl, -⟩ := List.cons_prefix_cons.mp hlast
      have hne : Key.window p ≠ .day p := nofun
      refine .inr ⟨count, rfl, hlimited, ?_, ?_, ?_⟩
      · dsimp only at ht ht₁ ht₂ ht₃ ⊢
        omega
      · dsimp only
        rw [Expiring.entry_set_ne hne, Expiring.entry_set_self]
        rfl
      · dsimp only
        rw [Expiring.entry_set_self]
        rfl

/-- A request can come at any time from now on. -/
theorem exists_checkAt (hkv : env.isKvConfigured = true) (hnow : w.clock ≤ τ.now) (hτ : τ.Sorted) :
    ∃ limited w', CheckAt env p maxPerWindow maxPerDay cidOf w (τ, limited) w' ∧
      w'.clock ≤ τ.daySet := by
  obtain ⟨hwindowGet, hwindowSet, hdayGet, hdaySet⟩ := hτ
  have huntouched : Untouched p w { w with clock := τ.now } := ⟨hnow, rfl, rfl⟩
  rcases hn : nextWindow maxPerWindow τ.now (w.store.kv.get τ.windowGet (.window p)) with _ | b
  · refine ⟨true, { w with clock := τ.windowGet }, ⟨_, [τ.windowGet], huntouched, rfl, ⟨_, rfl⟩, ?_⟩, ?_⟩
    · exact (runsAt_isRateLimited hkv).mpr
        ⟨_, [], rfl, hwindowGet, (runsAt_checkWindow_none hn).mpr ⟨rfl, rfl, rfl⟩⟩
    · dsimp only
      omega
  · rcases hd : nextDay maxPerDay (w.store.kv.get τ.dayGet (.day p)) with _ | count
    · refine ⟨true, _, ⟨_, [τ.windowGet, τ.windowSet, τ.dayGet], huntouched, rfl, ⟨_, rfl⟩,
        (runsAt_isRateLimited hkv).mpr ⟨_, _, rfl, hwindowGet, (runsAt_checkWindow_some hn).mpr
          ⟨_, _, [], rfl, hwindowSet, hdayGet, (runsAt_checkDay_none hd).mpr ⟨rfl, rfl, rfl⟩⟩⟩⟩, hdaySet⟩
    · exact ⟨false, _, ⟨_, τ.operations, huntouched, rfl, ⟨[], List.append_nil _⟩,
        (runsAt_isRateLimited hkv).mpr ⟨_, _, rfl, hwindowGet, (runsAt_checkWindow_some hn).mpr
          ⟨_, _, _, rfl, hwindowSet, hdayGet,
            (runsAt_checkDay_some hd).mpr ⟨_, rfl, hdaySet, rfl, rfl⟩⟩⟩⟩, Nat.le_refl _⟩

end

/-! ### The buckets after some requests -/

section

variable {env : Deployment} {p : BucketPrefix} {maxPerWindow maxPerDay : ℤ}
  {cidOf : PinataRequest → String} {w w' w₀ : ServerWorld} {τ : Timing} {limited : Bool}
  {requests : List Timing} {length : ℕ} {max : ℤ} {h : List (Timing × Bool)}

theorem requestsWithin_cons (τ : Timing) (requests : List Timing) (start length : ℕ) :
    requestsWithin start length (τ :: requests) = requestsWithin start length requests +
      if start ≤ τ.now ∧ τ.now ≤ start + length then 1 else 0 := by
  rw [requestsWithin, List.countP_cons]
  simp only [decide_eq_true_eq]
  rfl

/-- The buckets after the requests, latest first, if none was denied: the window bucket counts no more
than the requests of its window, and the day bucket counts those that have come steadily. -/
structure BucketsAfter (p : BucketPrefix) (requests : List Timing) (w : ServerWorld) : Prop where
  window : ∀ e ∈ w.store.kv.entry (.window p), e.value.windowStart ≤ w.clock ∧
    e.value.count ≤ requestsWithin e.value.windowStart WINDOW_MS requests
  day : w.store.kv.entry (.day p) =
    requests.head?.map fun τ => ⟨steady requests, some (τ.daySet + DAY_MS)⟩

/-- The count that a request finds in the day bucket. -/
theorem BucketsAfter.get_day (hb : BucketsAfter p requests w) (t : ℕ) :
    w.store.kv.get t (.day p) =
      requests.head?.bind fun τ' => if t ≤ τ'.daySet + DAY_MS then some (steady requests) else none := by
  rw [Expiring.get, hb.day]
  cases requests with
  | nil => rfl
  | cons τ' requests => simp [Entry.Live]

/-- A request prolongs the row, or begins a new one. -/
theorem steady_cons : steady (τ :: requests) =
    ((requests.head?.bind fun τ' => if τ.dayGet ≤ τ'.daySet + DAY_MS then some (steady requests)
      else none).getD 0) + 1 := by
  cases requests with
  | nil => rfl
  | cons τ' requests =>
    rw [steady, List.head?_cons, Option.bind_some]
    split_ifs
    · rfl
    · rfl

/-- The window bucket denies no request of a client within its quota. -/
theorem BucketsAfter.window_ne_none (hb : BucketsAfter p requests w) (hnow : w.clock ≤ τ.now)
    (hquota : Quota WINDOW_MS maxPerWindow (τ :: requests)) (t : ℕ) :
    nextWindow maxPerWindow τ.now (w.store.kv.get t (.window p)) ≠ none := by
  intro hn
  rcases hget : w.store.kv.get t (.window p) with _ | ⟨count, windowStart⟩
  · rw [hget, nextWindow] at hn
    cases hn
  · obtain ⟨e, he, -, hvalue⟩ := Expiring.get_eq_some.mp hget
    obtain ⟨hstart, hcount⟩ := hb.window e he
    rw [hvalue] at hstart hcount
    rw [hget, nextWindow] at hn
    split_ifs at hn with hexpired hfull
    -- this request is one more of the window
    have hone := requestsWithin_cons τ requests windowStart WINDOW_MS
    dsimp only at hstart hcount
    rw [if_pos (by omega)] at hone
    have hmax : (requestsWithin windowStart WINDOW_MS (τ :: requests) : ℤ) ≤ maxPerWindow :=
      hquota windowStart
    omega

theorem BucketsAfter.steady_cons_eq (hb : BucketsAfter p requests w) :
    steady (τ :: requests) = (w.store.kv.get τ.dayGet (.day p)).getD 0 + 1 := by
  rw [hb.get_day, steady_cons]

theorem nextDay_eq_none {d : Option ℕ} (h : nextDay maxPerDay d = none) :
    ∃ count ∈ d, maxPerDay ≤ (count : ℤ) := by
  rcases d with _ | count
  · cases h
  · rw [nextDay] at h
    split_ifs at h with hfull
    exact ⟨count, rfl, hfull⟩

/-- A request is one of an interval that begins with it. -/
theorem Quota.one_le (hquota : Quota length max (τ :: requests)) : 1 ≤ max := by
  have hone := requestsWithin_cons τ requests τ.now length
  rw [if_pos ⟨Nat.le_refl _, Nat.le_add_right ..⟩] at hone
  have hmax := hquota τ.now
  omega

/-- The window bucket after a request that it counts. -/
theorem BucketsAfter.window_step (hb : BucketsAfter p requests w) (hnow : w.clock ≤ τ.now) {b : Bucket}
    {t : ℕ} (hn : nextWindow maxPerWindow τ.now (w.store.kv.get t (.window p)) = some b) :
    b.windowStart ≤ τ.now ∧ b.count ≤ requestsWithin b.windowStart WINDOW_MS (τ :: requests) := by
  rcases nextWindow_eq_some hn with ⟨rfl, -⟩ | ⟨b', hget, hend, -, rfl⟩
  · dsimp only
    rw [requestsWithin_cons, if_pos ⟨Nat.le_refl _, Nat.le_add_right ..⟩]
    omega
  · obtain ⟨e, he, -, rfl⟩ := Expiring.get_eq_some.mp hget
    obtain ⟨hstart, hcount⟩ := hb.window e he
    dsimp only
    rw [requestsWithin_cons, if_pos ⟨hstart.trans hnow, hend⟩]
    omega

/-- **What a request within the quotas finds**: it is let through if and only if it is not one too many
of a steady row, and then the buckets count it. -/
theorem BucketsAfter.step (hkv : env.isKvConfigured = true) (hb : BucketsAfter p requests w)
    (hs : CheckAt env p maxPerWindow maxPerDay cidOf w (τ, limited) w')
    (hwindow : Quota WINDOW_MS maxPerWindow (τ :: requests))
    (hday : Quota DAY_MS maxPerDay (τ :: requests)) :
    (limited = false ↔ (steady (τ :: requests) : ℤ) ≤ maxPerDay) ∧
      (limited = false → BucketsAfter p (τ :: requests) w') := by
  have hsteady := hb.steady_cons_eq (τ := τ)
  obtain ⟨hnow, hdenied | ⟨b, hn, ⟨hd, rfl⟩ | ⟨count, hd, rfl, hclock, hw, hentry⟩⟩⟩ :=
    checkAt_cases hkv hs
  · exact absurd hdenied.1 (hb.window_ne_none hnow hwindow _)
  · -- the day bucket is full, and lives
    obtain ⟨count, hget, hfull⟩ := nextDay_eq_none hd
    rw [Option.mem_def.mp hget, Option.getD_some] at hsteady
    refine ⟨iff_of_false Bool.false_ne_true.symm ?_, nofun⟩
    omega
  · obtain ⟨hcount, hroom⟩ := nextDay_eq_some hd
    rw [← hcount] at hsteady
    refine ⟨iff_of_true rfl ?_, fun _ => ⟨?_, ?_⟩⟩
    · rcases hget : w.store.kv.get τ.dayGet (.day p) with _ | before
      · have hone := hday.one_le
        rw [hget, Option.getD_none] at hcount
        omega
      · have hlt := hroom before hget
        rw [hget, Option.getD_some] at hcount
        omega
    · intro e he
      obtain rfl := Option.some.inj (hw.symm.trans he)
      obtain ⟨hstart, hle⟩ := hb.window_step hnow hn
      exact ⟨hstart.trans hclock, hle⟩
    · rw [hentry, hsteady]
      rfl

theorem Quota.tail (hquota : Quota length max (τ :: requests)) : Quota length max requests := by
  intro start
  have hcons := requestsWithin_cons τ requests start length
  have hmax := hquota start
  omega

/-- The requests within the quotas, from a fresh bucket on. -/
theorem bucketsAfter_of_run (hkv : env.isKvConfigured = true)
    (hfresh : BucketsAfter p [] w₀)
    (hr : Run (CheckAt env p maxPerWindow maxPerDay cidOf) w₀ h w)
    (hwindow : Quota WINDOW_MS maxPerWindow (h.map Prod.fst))
    (hday : Quota DAY_MS maxPerDay (h.map Prod.fst)) :
    ((∀ l ∈ h, l.2 = false) ↔ ∀ ts, ts <:+ h.map Prod.fst → (steady ts : ℤ) ≤ maxPerDay) ∧
      ((∀ l ∈ h, l.2 = false) → BucketsAfter p (h.map Prod.fst) w) := by
  induction hr with
  | nil =>
    have hmax : (0 : ℤ) ≤ maxPerDay := hday 0
    refine ⟨iff_of_true nofun fun ts hts => ?_, fun _ => hfresh⟩
    obtain rfl := List.suffix_nil.mp hts
    exact hmax
  | @snoc h l w w' hr hs ih =>
    obtain ⟨τ, limited⟩ := l
    rw [List.map_cons] at hwindow hday ⊢
    obtain ⟨hiff, hbuckets⟩ := ih hwindow.tail hday.tail
    -- the condition for one more check: the whole list, and every shorter one
    have hsuffix : (∀ ts, ts <:+ τ :: h.map Prod.fst → (steady ts : ℤ) ≤ maxPerDay) ↔
        (steady (τ :: h.map Prod.fst) : ℤ) ≤ maxPerDay ∧
          ∀ ts, ts <:+ h.map Prod.fst → (steady ts : ℤ) ≤ maxPerDay := by
      simp only [List.suffix_cons_iff, forall_eq_or_imp]
    rw [List.forall_mem_cons, hsuffix, ← hiff]
    -- once a check was limited both sides are false
    by_cases hall : ∀ l ∈ h, l.2 = false
    · obtain ⟨hlimited, hafter⟩ := (hbuckets hall).step hkv hs hwindow hday
      exact ⟨and_congr_left fun _ => hlimited, fun hboth => hafter hboth.1⟩
    · exact ⟨iff_of_false (fun h => hall h.2) fun h => hall h.2, fun h => absurd h.2 hall⟩

/-- **When a client within its quotas is never denied**: over any sequence of its requests, if and only
if there are never more than `maxPerDay` of them one after another that each come within 24 hours of
the one before. -/
theorem never_limited_iff (hkv : env.isKvConfigured = true)
    (hnoWindow : w₀.store.kv.entry (.window p) = none) (hnoDay : w₀.store.kv.entry (.day p) = none)
    (hr : Run (CheckAt env p maxPerWindow maxPerDay cidOf) w₀ h w)
    (hwindow : Quota WINDOW_MS maxPerWindow (h.map Prod.fst))
    (hday : Quota DAY_MS maxPerDay (h.map Prod.fst)) :
    (∀ l ∈ h, l.2 = false) ↔ ∀ ts, ts <:+ h.map Prod.fst → (steady ts : ℤ) ≤ maxPerDay := by
  have hfresh : BucketsAfter p [] w₀ := by
    refine ⟨fun e he => ?_, hnoDay⟩
    rw [hnoWindow] at he
    cases he
  exact (bucketsAfter_of_run hkv hfresh hr hwindow hday).1

/-- Requests can come at any times, one after another. -/
theorem exists_run (hkv : env.isKvConfigured = true) (hsorted : ∀ τ ∈ requests, τ.Sorted)
    (horder : requests.Pairwise fun τ τ' => τ'.daySet ≤ τ.now)
    (hstart : ∀ τ ∈ requests, w₀.clock ≤ τ.now) :
    ∃ h w, Run (CheckAt env p maxPerWindow maxPerDay cidOf) w₀ h w ∧ h.map Prod.fst = requests ∧
      ∀ t, w₀.clock ≤ t → (∀ τ ∈ requests, τ.daySet ≤ t) → w.clock ≤ t := by
  induction requests with
  | nil => exact ⟨[], w₀, .nil, rfl, fun t ht _ => ht⟩
  | cons τ requests ih =>
    rw [List.forall_mem_cons] at hsorted hstart
    rw [List.pairwise_cons] at horder
    obtain ⟨h, w, hr, hmap, hclock⟩ := ih hsorted.2 horder.2 hstart.2
    obtain ⟨limited, w', hs, hend⟩ := exists_checkAt (p := p) (w := w) hkv
      (hclock τ.now hstart.1 horder.1) hsorted.1
    refine ⟨(τ, limited) :: h, w', .snoc hr hs, by rw [List.map_cons, hmap], fun t _ ht => ?_⟩
    exact hend.trans (ht τ List.mem_cons_self)

end

/-! ### One request an hour -/

/-- The request of an hour, at one moment. -/
def hour (i : ℕ) : Timing :=
  ⟨3600000 * i, 3600000 * i, 3600000 * i, 3600000 * i, 3600000 * i⟩

/-- One request an hour, latest first. -/
def hourly : ℕ → List Timing
  | 0 => []
  | n + 1 => hour n :: hourly n

theorem mem_hourly {n : ℕ} {τ : Timing} : τ ∈ hourly n ↔ ∃ i < n, τ = hour i := by
  induction n with
  | zero => simp [hourly]
  | succ n ih =>
    rw [hourly, List.mem_cons, ih]
    constructor
    · rintro (rfl | ⟨i, hi, rfl⟩)
      · exact ⟨n, Nat.lt_succ_self n, rfl⟩
      · exact ⟨i, Nat.lt_succ_of_lt hi, rfl⟩
    · rintro ⟨i, hi, rfl⟩
      rcases Nat.lt_succ_iff_lt_or_eq.mp hi with hi | rfl
      · exact .inr ⟨i, hi, rfl⟩
      · exact .inl rfl

/-- The hours are steady. -/
theorem steady_hourly (n : ℕ) : steady (hourly n) = n := by
  induction n with
  | zero => rfl
  | succ n ih =>
    cases n with
    | zero => rfl
    | succ n =>
      have hlive : (hour (n + 1)).dayGet ≤ (hour n).daySet + DAY_MS := by
        show 3600000 * (n + 1) ≤ 3600000 * n + 86400 * 1000
        omega
      rw [hourly, hourly, steady, if_pos hlive]
      rw [hourly] at ih
      rw [ih]

/-- Fewer than `n` hours apart there are no more than `n` requests. -/
theorem quota_hourly {length : ℕ} (count n : ℕ) (hlength : length < 3600000 * count) :
    Quota length count (hourly n) := by
  intro start
  -- one request an hour: those in the window are numbered by a short interval
  have hle : requestsWithin start length (hourly n) ≤
      ((Finset.range n).filter fun i => start ≤ 3600000 * i ∧ 3600000 * i ≤ start + length).card := by
    induction n with
    | zero => exact Nat.le_refl 0
    | succ n ih =>
      rw [hourly, requestsWithin_cons, Finset.range_add_one, Finset.filter_insert]
      split_ifs with h h' h'
      · rw [Finset.card_insert_of_notMem (by simp)]
        omega
      · exact absurd h h'
      · exact absurd h' h
      · exact ih
  have hsub : ((Finset.range n).filter fun i =>
      start ≤ 3600000 * i ∧ 3600000 * i ≤ start + length) ⊆
        Finset.Ico ((start + 3599999) / 3600000) ((start + 3599999) / 3600000 + count) := by
    intro i hi
    rw [Finset.mem_filter] at hi
    rw [Finset.mem_Ico]
    omega
  have hcard := Finset.card_le_card hsub
  rw [Nat.card_Ico] at hcard
  omega

/-- A client. -/
def sampleClient : BucketPrefix := .action "GALICE"

/-- The client sends a request every hour. -/
theorem exists_run_hourly (maxPerWindow maxPerDay : ℤ) (n : ℕ) :
    ∃ h w, Run (CheckAt sampleDeployment sampleClient maxPerWindow maxPerDay fun _ => "")
      ⟨0, {}, {}⟩ h w ∧ h.map Prod.fst = hourly n := by
  have horder : (hourly n).Pairwise fun τ τ' => τ'.daySet ≤ τ.now := by
    induction n with
    | zero => exact .nil
    | succ n ih =>
      refine List.pairwise_cons.mpr ⟨fun τ hτ => ?_, ih⟩
      obtain ⟨i, hi, rfl⟩ := mem_hourly.mp hτ
      show 3600000 * i ≤ 3600000 * n
      omega
  have hsorted : ∀ τ ∈ hourly n, τ.Sorted := by
    intro τ hτ
    obtain ⟨i, -, rfl⟩ := mem_hourly.mp hτ
    exact ⟨Nat.le_refl _, Nat.le_refl _, Nat.le_refl _, Nat.le_refl _⟩
  have hstart : ∀ τ ∈ hourly n, (⟨0, {}, {}⟩ : ServerWorld).clock ≤ τ.now :=
    fun τ _ => Nat.zero_le τ.now
  obtain ⟨h, w, hr, hmap, -⟩ := exists_run (show sampleDeployment.isKvConfigured = true from rfl)
    hsorted horder hstart
  exact ⟨h, w, hr, hmap⟩

/-- **With 10 requests in 15 minutes and 100 in 24 hours allowed**, the client that sends one an hour
is denied. -/
theorem limited_hourly :
    ∃ h w, Run (CheckAt sampleDeployment sampleClient 10 100 fun _ => "") ⟨0, {}, {}⟩ h w ∧
      Quota WINDOW_MS 10 (h.map Prod.fst) ∧ Quota DAY_MS 100 (h.map Prod.fst) ∧
      ∃ l ∈ h, l.2 = true := by
  obtain ⟨h, w, hr, hmap⟩ := exists_run_hourly 10 100 101
  have hwindow : Quota WINDOW_MS 10 (h.map Prod.fst) := by
    rw [hmap]
    exact quota_hourly 10 101 (by decide)
  have hday : Quota DAY_MS 100 (h.map Prod.fst) := by
    rw [hmap]
    exact quota_hourly 100 101 (by decide)
  refine ⟨h, w, hr, hwindow, hday, ?_⟩
  have hfresh : BucketsAfter sampleClient [] ⟨0, {}, {}⟩ := ⟨nofun, rfl⟩
  by_contra hnever
  have hall : ∀ l ∈ h, l.2 = false := by
    intro l hl
    by_contra hlimited
    exact hnever ⟨l, hl, Bool.eq_true_of_not_eq_false hlimited⟩
  -- the hundred and first hour of a steady row
  have hsteady := (bucketsAfter_of_run rfl hfresh hr hwindow hday).1.mp hall _ (List.suffix_refl _)
  rw [hmap, steady_hourly] at hsteady
  exact absurd hsteady (by decide)

/-- For two hours nothing is denied. -/
theorem never_limited_iff_hourly :
    ∃ h w, Run (CheckAt sampleDeployment sampleClient 10 100 fun _ => "") ⟨0, {}, {}⟩ h w ∧
      h.map Prod.fst = hourly 2 ∧ ∀ l ∈ h, l.2 = false := by
  obtain ⟨h, w, hr, hmap⟩ := exists_run_hourly 10 100 2
  refine ⟨h, w, hr, hmap, (never_limited_iff rfl rfl rfl hr ?_ ?_).mpr fun ts hts => ?_⟩
  · rw [hmap]
    exact quota_hourly 10 2 (by decide)
  · rw [hmap]
    exact quota_hourly 100 2 (by decide)
  · -- a row of two requests is no longer than that
    rw [hmap] at hts
    have hlength : ts.length ≤ 2 := hts.length_le.trans (Nat.le_of_eq rfl)
    have hsteady : steady ts ≤ ts.length := steady_le_length ts
    omega

end StellarForge.Server
