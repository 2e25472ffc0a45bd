import StellarForge.Server.Services

/-!
# Rate limits

`rateLimit.ts`: a window and a day bucket in the KV store for every prefix, or a window bucket in
memory when there is no KV store.
-/

namespace StellarForge.Server

open Collections Concurrency

/-- 15 minutes. -/
def WINDOW_MS : ℕ := 15 * 60 * 1000

/-- The lifetime in seconds that the window bucket is written with. -/
def WINDOW_EX : ℕ := 900

/-- The lifetime in seconds that the day bucket is written with. -/
def DAY_EX : ℕ := 86400

/-! ### One bucket -/

/-- What the window bucket becomes when it has room at the time `now`.  The subtraction is cut off
at 0, where the comparison is false either way. -/
def nextWindow (maxPerWindow : ℤ) (now : ℕ) : Option Bucket → Option Bucket
  | some ⟨count, windowStart⟩ =>
    -- the window has expired
    if now - windowStart > WINDOW_MS then some ⟨1, now⟩
    else if count ≥ maxPerWindow then none
    else some ⟨count + 1, windowStart⟩
  | none => some ⟨1, now⟩

/-- What the day bucket becomes when it has room. -/
def nextDay (maxPerDay : ℤ) : Option ℕ → Option ℕ
  | some count => if count ≥ maxPerDay then none else some (count + 1)
  | none => some 1

/-! ### The check -/

section

variable (bucketPrefix : BucketPrefix) (maxPerWindow maxPerDay : ℤ)

/-- The check after the day bucket was read. -/
def checkDay (dayData : Option ℕ) : Throwing Bool :=
  match nextDay maxPerDay dayData with
  | none => pure true
  | some count => do
    kvSet (.day bucketPrefix) count (some DAY_EX)
    pure false

/-- The check after the window bucket was read. -/
def checkWindow (now : ℕ) (windowData : Option Bucket) : Throwing Bool :=
  match nextWindow maxPerWindow now windowData with
  | none => pure true
  | some bucket => do
    kvSet (.window bucketPrefix) bucket (some WINDOW_EX)
    let dayData ← kvGet (.day bucketPrefix)
    checkDay bucketPrefix maxPerDay dayData

/-- The body of the `try`. -/
def checkBuckets : Throwing Bool := do
  let now ← dateNow
  let windowData ← kvGet (.window bucketPrefix)
  checkWindow bucketPrefix maxPerWindow maxPerDay now windowData

/-- A check that throws denies the request. -/
def failClosed (check : Throwing Bool) : Program Bool := do
  match ← check.run with
  | .ok limited => pure limited
  | .error _ => pure true

/-- The check of a counter in memory. -/
def isRateLimitedInMemory : Program Bool :=
  .atOnce fun now memory =>
    match memory.buckets bucketPrefix with
    | some ⟨count, windowStart⟩ =>
      if now - windowStart > WINDOW_MS then
        (false, { memory with
          buckets := Function.update memory.buckets bucketPrefix (some ⟨1, now⟩) })
      else
        (decide ((count + 1 : ℕ) > maxPerWindow), { memory with
          buckets :=
            Function.update memory.buckets bucketPrefix (some ⟨count + 1, windowStart⟩) })
    | none =>
      (false, { memory with
        buckets := Function.update memory.buckets bucketPrefix (some ⟨1, now⟩) })

/-- `_isRateLimited` -/
def isRateLimited (env : Deployment) : Program Bool :=
  if !env.isKvConfigured then
    -- without a KV store, production denies every request
    if env.isProduction then pure true
    else isRateLimitedInMemory bucketPrefix maxPerWindow
  else failClosed (checkBuckets bucketPrefix maxPerWindow maxPerDay)

end

/-! ### Its operations -/

section

variable {bucketPrefix : BucketPrefix} {maxPerWindow maxPerDay : ℤ} {k : Key} {α : Type} {t : ℕ}
  {m : Memory}

/-- How a check goes on with what it awaited. -/
def resume (f : α → Throwing Bool) : Except KvError α → Program Bool
  | .ok a => failClosed (f a)
  | .error _ => .done true

theorem failClosed_kvGet {f : Option k.Val → Throwing Bool} :
    failClosed (kvGet k >>= f) = .perform (.kvGet k) (resume f) := by
  show Process.perform (Op.kvGet k) _ = _
  congr 1
  funext r
  cases r <;> rfl

theorem failClosed_kvSet {v : k.Val} {ex : Option ℕ} {f : Unit → Throwing Bool} :
    failClosed (kvSet k v ex >>= f) = .perform (.kvSet k v ex) (resume f) := by
  show Process.perform (Op.kvSet k v ex) _ = _
  congr 1
  funext r
  cases r <;> rfl

/-- With a KV store, a check reads the clock and then the window bucket. -/
theorem isRateLimited_eq {env : Deployment} (hkv : env.isKvConfigured = true) :
    isRateLimited bucketPrefix maxPerWindow maxPerDay env =
      .sync (fun _ m => m) fun now _ => .perform (.kvGet (.window bucketPrefix))
        (resume (checkWindow bucketPrefix maxPerWindow maxPerDay now)) := by
  have h : isRateLimited bucketPrefix maxPerWindow maxPerDay env =
      .sync (fun _ m => m) fun now _ => failClosed (kvGet (.window bucketPrefix) >>=
        checkWindow bucketPrefix maxPerWindow maxPerDay now) := by
    rw [isRateLimited, hkv]
    rfl
  rw [h]
  exact congrArg (Process.sync _) (funext fun now => funext fun _ => failClosed_kvGet)

theorem failClosed_checkWindow {now : ℕ} {d : Option Bucket} :
    failClosed (checkWindow bucketPrefix maxPerWindow maxPerDay now d) =
      match nextWindow maxPerWindow now d with
      | none => .done true
      | some b => .perform (.kvSet (.window bucketPrefix) b (some WINDOW_EX))
          (resume fun _ => kvGet (.day bucketPrefix) >>= checkDay bucketPrefix maxPerDay) := by
  rw [checkWindow]
  rcases nextWindow maxPerWindow now d with _ | b
  · rfl
  · exact failClosed_kvSet

theorem failClosed_checkDay {d : Option ℕ} :
    failClosed (checkDay bucketPrefix maxPerDay d) =
      match nextDay maxPerDay d with
      | none => .done true
      | some count => .perform (.kvSet (.day bucketPrefix) count (some DAY_EX))
          (resume fun _ => pure false) := by
  rw [checkDay]
  rcases nextDay maxPerDay d with _ | count
  · rfl
  · exact failClosed_kvSet

/-! The next operation of a check in each of its phases. -/

theorem settle_check {env : Deployment} (hkv : env.isKvConfigured = true) :
    (isRateLimited bucketPrefix maxPerWindow maxPerDay env).settle t m =
      (.perform (.kvGet (.window bucketPrefix))
        (resume (checkWindow bucketPrefix maxPerWindow maxPerDay t)), m) := by
  rw [isRateLimited_eq hkv]
  rfl

theorem settle_checkWindow {now : ℕ} {d : Option Bucket} :
    (failClosed (checkWindow bucketPrefix maxPerWindow maxPerDay now d)).settle t m =
      match nextWindow maxPerWindow now d with
      | none => (.done true, m)
      | some b => (.perform (.kvSet (.window bucketPrefix) b (some WINDOW_EX))
          (resume fun _ => kvGet (.day bucketPrefix) >>= checkDay bucketPrefix maxPerDay), m) := by
  rw [failClosed_checkWindow]
  rcases nextWindow maxPerWindow now d with _ | b <;> rfl

theorem settle_readDay :
    (failClosed (kvGet (.day bucketPrefix) >>= checkDay bucketPrefix maxPerDay)).settle t m =
      (.perform (.kvGet (.day bucketPrefix)) (resume (checkDay bucketPrefix maxPerDay)), m) := by
  rw [failClosed_kvGet]
  rfl

theorem settle_checkDay {d : Option ℕ} :
    (failClosed (checkDay bucketPrefix maxPerDay d)).settle t m =
      match nextDay maxPerDay d with
      | none => (.done true, m)
      | some count => (.perform (.kvSet (.day bucketPrefix) count (some DAY_EX))
          (resume fun _ => pure false), m) := by
  rw [failClosed_checkDay]
  rcases nextDay maxPerDay d with _ | count <;> rfl

end

/-! ### Its frame -/

/-- Nothing but rate-limit buckets has changed. -/
structure BucketsOnly (w w' : ServerWorld) : Prop where
  clock_le : w.clock ≤ w'.clock
  challenges : w'.memory.challenges = w.memory.challenges
  memoryRegistry : w'.memory.memoryRegistry = w.memory.memoryRegistry
  challenge : ∀ a, w'.store.kv.entry (.challenge a) = w.store.kv.entry (.challenge a)
  pinOwner : ∀ cid, w'.store.kv.entry (.pinOwner cid) = w.store.kv.entry (.pinOwner cid)
  drawn : w'.store.drawn = w.store.drawn
  pinataRequests : w'.store.pinataRequests = w.store.pinataRequests

/-- The operations on buckets. -/
def Op.OnBucket : Op → Prop
  | .kvGet (.window _) | .kvGet (.day _) => True
  | .kvSet (.window _) .. | .kvSet (.day _) .. => True
  | _ => False

/-- The updates of the memory that change buckets only. -/
def Memory.BucketUpdate (m m' : Memory) : Prop :=
  m'.challenges = m.challenges ∧ m'.memoryRegistry = m.memoryRegistry

section

variable {w w' w'' : ServerWorld} {bucketPrefix : BucketPrefix} {maxPerWindow maxPerDay : ℤ}
  {faulty : Prop} {cidOf : PinataRequest → String} {limited : Bool} {env : Deployment}

theorem BucketsOnly.trans (h : BucketsOnly w w') (h' : BucketsOnly w' w'') : BucketsOnly w w'' where
  clock_le := Nat.le_trans h.clock_le h'.clock_le
  challenges := h'.challenges.trans h.challenges
  memoryRegistry := h'.memoryRegistry.trans h.memoryRegistry
  challenge a := (h'.challenge a).trans (h.challenge a)
  pinOwner cid := (h'.pinOwner cid).trans (h.pinOwner cid)
  drawn := h'.drawn.trans h.drawn
  pinataRequests := h'.pinataRequests.trans h.pinataRequests

theorem BucketsOnly.of_elapse (h : Process.Elapse w w') : BucketsOnly w w' := by
  obtain ⟨t, ht, rfl⟩ := h
  exact ⟨ht, rfl, rfl, fun _ => rfl, fun _ => rfl, rfl, rfl⟩

/-- A call on a counter changes nothing but counters. -/
theorem BucketsOnly.of_answers {op : Op} {r : op.Reply} {s : Services} (hop : op.OnBucket)
    (hans : Answers faulty cidOf w.clock w.store op r s) : BucketsOnly w { w with store := s } := by
  -- writing a bucket leaves challenges and owners as they are
  have hset : ∀ (k : Key) (v : k.Val) (ttl : Option ℕ), (∀ a, k ≠ .challenge a) →
      (∀ cid, k ≠ .pinOwner cid) →
      BucketsOnly w { w with store := { w.store with kv := w.store.kv.set w.clock k v ttl } } := by
    intro k v ttl hchallenge howner
    refine ⟨Nat.le_refl _, rfl, rfl, fun a => ?_, fun cid => ?_, rfl, rfl⟩
    · exact Expiring.entry_set_ne (hchallenge a).symm
    · exact Expiring.entry_set_ne (howner cid).symm
  have hsame : BucketsOnly w { w with store := w.store } := .of_elapse (.refl w)
  cases op with
  | kvGet k =>
    obtain ⟨rfl, -⟩ := hans
    exact hsame
  | kvSet k v ex =>
    have hk : (∀ a, k ≠ .challenge a) ∧ ∀ cid, k ≠ .pinOwner cid := by
      constructor <;> rintro _ rfl <;> exact hop
    -- a failed write may have been stored all the same
    obtain ⟨-, rfl⟩ | ⟨-, -, rfl | rfl⟩ := hans
    · exact hset k v _ hk.1 hk.2
    · exact hsame
    · exact hset k v _ hk.1 hk.2
  | kvDel _ => exact hop.elim
  | randomBytes => exact hop.elim
  | pinata _ => exact hop.elim

theorem within_checkDay {d : Option ℕ} :
    (failClosed (checkDay bucketPrefix maxPerDay d)).Within Op.OnBucket Memory.BucketUpdate := by
  rw [failClosed_checkDay]
  split
  · trivial
  · refine ⟨trivial, fun r => ?_⟩
    cases r <;> trivial

theorem within_checkWindow {now : ℕ} {d : Option Bucket} :
    (failClosed (checkWindow bucketPrefix maxPerWindow maxPerDay now d)).Within Op.OnBucket
      Memory.BucketUpdate := by
  rw [failClosed_checkWindow]
  split
  · trivial
  · refine ⟨trivial, fun r => ?_⟩
    rcases r with e | ⟨⟩
    · trivial
    · show (failClosed (kvGet (.day bucketPrefix) >>= checkDay bucketPrefix maxPerDay)).Within _ _
      rw [failClosed_kvGet]
      refine ⟨trivial, fun r => ?_⟩
      cases r with
      | error e => trivial
      | ok d => exact within_checkDay

/-- A check concerns buckets only, with a KV store and without. -/
theorem within_isRateLimited :
    (isRateLimited bucketPrefix maxPerWindow maxPerDay env).Within Op.OnBucket
      Memory.BucketUpdate := by
  by_cases hkv : env.isKvConfigured = true
  · rw [isRateLimited_eq hkv]
    refine fun now m => ⟨⟨rfl, rfl⟩, trivial, fun r => ?_⟩
    cases r with
    | error e => trivial
    | ok d => exact within_checkWindow
  · have hnone : (!env.isKvConfigured) = true := by simpa using hkv
    rw [isRateLimited, if_pos hnone]
    by_cases hprod : env.isProduction = true
    · rw [if_pos hprod]
      trivial
    · rw [if_neg hprod]
      refine fun now m => ⟨?_, trivial⟩
      dsimp only
      split
      · split_ifs <;> exact ⟨rfl, rfl⟩
      · exact ⟨rfl, rfl⟩

/-- **A check changes nothing but buckets**, whatever fails. -/
theorem bucketsOnly_of_runs (hr : Process.Runs (Answers faulty cidOf)
    (isRateLimited bucketPrefix maxPerWindow maxPerDay env) w limited w') : BucketsOnly w w' :=
  hr.rel (R := BucketsOnly) .trans .of_elapse
    (fun hm => ⟨Nat.le_refl _, hm.1, hm.2, fun _ => rfl, fun _ => rfl, rfl, rfl⟩)
    .of_answers within_isRateLimited

end

/-- The check of a client that asks for challenges. -/
def isChallengeRateLimited (env : Deployment) (ip : String) : Program Bool :=
  isRateLimited (.challenge ip) env.challengeMaxPerWindow env.challengeMaxPerDay env

/-- The check of a wallet that uploads or unpins. -/
def isActionRateLimited (env : Deployment) (address : String) : Program Bool :=
  isRateLimited (.action address) env.actionMaxPerWindow env.actionMaxPerDay env

end StellarForge.Server
