import StellarForge.Server.Properties.WriteLog

/-!
# The rate limit under concurrency

Any number of checks of one bucket in progress, whose KV operations interleave in any order.  A check
reads a key and writes it afterwards, and nothing keeps another check from writing in between:

* `not_limited_two_checks`: two checks that both read before either writes are both let through by a
  limit of one;
* **`limited_of_uninterrupted`**: when no other check writes a key between a check's read of it and
  its write, the limits hold.
-/

namespace StellarForge.Server

open Collections Concurrency Transition Process

/-! ### Histories -/

/-- What the label of a step says: a check begins, or an operation of a check. -/
abbrev CheckTurn := Turn Unit Op

/-- The check that a label belongs to. -/
def callOf : CheckTurn → Option ℕ
  | .arrive _ => none
  | .move i _ _ => some i

/-- The label is a write of the key. -/
def Writes (k : Key) (l : CheckTurn) : Prop := ∃ i t v ex, l = .move i t (some (.kvSet k v ex))

/-- The read of the window bucket by the check `i` at the time `t`. -/
def windowCheck (p : BucketPrefix) (i t : ℕ) : CheckTurn := .move i t (some (.kvGet (.window p)))

/-- The checks in progress on a bucket. -/
abbrev Checks := Pool Memory Op Op.Reply Bool Services

/-- Checks of a bucket begin and perform their operations; none of these fails. -/
def CheckStep (env : Deployment) (p : BucketPrefix) (maxPerWindow maxPerDay : ℤ)
    (cidOf : PinataRequest → String) : Checks → CheckTurn → Checks → Prop :=
  Pool.Step (fun _ => isRateLimited p maxPerWindow maxPerDay env) (Answers False cidOf)

/-- No check has begun, and nothing is stored for the bucket. -/
structure Fresh (p : BucketPrefix) (s : Checks) : Prop where
  tasks : s.tasks = []
  window : s.world.store.kv.entry (.window p) = none
  day : s.world.store.kv.entry (.day p) = none

/-- At most `maxPerWindow` of the checks that fall in one window let their request through. -/
def WindowBound (p : BucketPrefix) (maxPerWindow : ℤ) (h : List CheckTurn) (s : Checks) : Prop :=
  ∀ i t b ex, .move i t (some (.kvSet (.window p) b ex)) ∈ h → ∀ calls : Finset ℕ,
    (∀ j ∈ calls, s.result? j = some false ∧
      ∃ now, windowCheck p j now ∈ h ∧ b.windowStart ≤ now ∧ now ≤ b.windowStart + WINDOW_MS) →
    (calls.card : ℤ) ≤ maxPerWindow

/-- The times at which a key is written, latest first. -/
def writeTimes (k : Key) : List CheckTurn → List ℕ
  | [] => []
  | .move _ t (some (.kvSet k' _ _)) :: h => if k' = k then t :: writeTimes k h else writeTimes k h
  | _ :: h => writeTimes k h

/-- In this part of the history the day bucket lives on: each write comes before the last one has
expired. -/
def OneDay (p : BucketPrefix) (h : List CheckTurn) : Prop :=
  (writeTimes (.day p) h).IsChain fun t t' => t ≤ t' + DAY_EX * 1000

/-- At most `maxPerDay` of the checks that write one day bucket let their request through. -/
def DayBound (p : BucketPrefix) (maxPerDay : ℤ) (h : List CheckTurn) (s : Checks) : Prop :=
  ∀ h₁ h₂ h₃, h = h₃ ++ h₂ ++ h₁ → OneDay p h₂ → ∀ calls : Finset ℕ,
    (∀ j ∈ calls, s.result? j = some false ∧
      ∃ t count ex, .move j t (some (.kvSet (.day p) count ex)) ∈ h₂) →
    (calls.card : ℤ) ≤ maxPerDay

/-- Nobody else writes the key between a check's last operation and its write of the key. -/
def Uninterrupted : List CheckTurn → Prop
  | [] => True
  | l :: h => Uninterrupted h ∧ ∀ i t k v ex, l = .move i t (some (.kvSet k v ex)) →
      ∀ l' ∈ h.takeWhile fun l' => callOf l' ≠ some i, ¬ Writes k l'

/-! ### The writes of a key -/

/-- The time of the last operation of a check. -/
def readTime (i : ℕ) : List CheckTurn → ℕ
  | [] => 0
  | .move j t _ :: h => if j = i then t else readTime i h
  | _ :: h => readTime i h

/-- The writes to a counter, with the times at which their checks had read it. -/
def writes (k : Key) : List CheckTurn → List (Write k.Val)
  | [] => []
  | .move i t (some (.kvSet k' v _)) :: h =>
    if e : k' = k then ⟨i, readTime i h, t, e ▸ v⟩ :: writes k h else writes k h
  | _ :: h => writes k h

section

variable {k : Key} {h h₁ h₂ : List CheckTurn} {l : CheckTurn} {i t : ℕ}

theorem writes_cons_self {v : k.Val} {ex : Option ℕ} :
    writes k (.move i t (some (.kvSet k v ex)) :: h) = ⟨i, readTime i h, t, v⟩ :: writes k h := by
  simp [writes]

/-- Other turns write nothing to the counter. -/
theorem writes_cons_of_not (hl : ¬ Writes k l) : writes k (l :: h) = writes k h := by
  rcases l with _ | ⟨i, t, _ | op⟩
  · rfl
  · rfl
  · cases op with
    | kvSet k' v ex =>
      have hk : k' ≠ k := by
        rintro rfl
        exact hl ⟨i, t, v, ex, rfl⟩
      simp [writes, hk]
    | _ => rfl

theorem writes_append_of_not (h₂not : ∀ l ∈ h₂, ¬ Writes k l) :
    writes k (h₂ ++ h₁) = writes k h₁ := by
  induction h₂ with
  | nil => rfl
  | cons l h₂ ih =>
    rw [List.cons_append, writes_cons_of_not (h₂not l (List.mem_cons_self ..))]
    exact ih fun l' hl' => h₂not l' (List.mem_cons_of_mem _ hl')

theorem mem_writes_cons {w : Write k.Val} (hw : w ∈ writes k h) : w ∈ writes k (l :: h) := by
  by_cases hl : Writes k l
  · obtain ⟨i, t, v, ex, rfl⟩ := hl
    rw [writes_cons_self]
    exact List.mem_cons_of_mem _ hw
  · rwa [writes_cons_of_not hl]

theorem readTime_append (hi : ∀ l ∈ h₂, callOf l ≠ some i) :
    readTime i (h₂ ++ h₁) = readTime i h₁ := by
  induction h₂ with
  | nil => rfl
  | cons l h₂ ih =>
    have ih := ih fun l' hl' => hi l' (List.mem_cons_of_mem _ hl')
    have hl := hi l (List.mem_cons_self ..)
    cases l with
    | arrive => exact ih
    | move j t op =>
      have hj : j ≠ i := by
        rintro rfl
        exact hl rfl
      rw [List.cons_append, readTime, if_neg hj, ih]

/-- The writes of a part of a history. -/
theorem exists_writes_append (k : Key) (h₂ h₁ : List CheckTurn) :
    ∃ seg, writes k (h₂ ++ h₁) = seg ++ writes k h₁ ∧ seg.map Write.time = writeTimes k h₂ ∧
      ∀ i t v ex, .move i t (some (.kvSet k v ex)) ∈ h₂ → ∃ w ∈ seg, w.call = i ∧ w.value = v := by
  induction h₂ with
  | nil => exact ⟨[], rfl, rfl, by simp⟩
  | cons l h₂ ih =>
    obtain ⟨seg, hseg, htimes, hmem⟩ := ih
    -- a turn that writes the key is one more segment entry, any other is none
    by_cases hl : Writes k l
    · obtain ⟨i, t, v, ex, rfl⟩ := hl
      refine ⟨⟨i, readTime i (h₂ ++ h₁), t, v⟩ :: seg, ?_, ?_, ?_⟩
      · rw [List.cons_append, writes_cons_self, hseg, List.cons_append]
      · simp [writeTimes, htimes]
      · intro i' t' v' ex' hin
        rcases List.mem_cons.mp hin with heq | hin
        · cases heq
          exact ⟨_, List.mem_cons_self .., rfl, rfl⟩
        · obtain ⟨w, hw, hw'⟩ := hmem i' t' v' ex' hin
          exact ⟨w, List.mem_cons_of_mem _ hw, hw'⟩
    · refine ⟨seg, ?_, ?_, ?_⟩
      · rw [List.cons_append, writes_cons_of_not hl, hseg]
      · rw [htimes]
        rcases l with _ | ⟨i, t, _ | op⟩
        · rfl
        · rfl
        · cases op with
          | kvSet k' v ex =>
            have hk : k' ≠ k := by
              rintro rfl
              exact hl ⟨i, t, v, ex, rfl⟩
            rw [writeTimes, if_neg hk]
          | _ => rfl
      · intro i t v ex hin
        rcases List.mem_cons.mp hin with rfl | hin
        · exact absurd ⟨i, t, v, ex, rfl⟩ hl
        · exact hmem i t v ex hin

end

/-! ### What a check has read -/

/-- The last operation of the check `i` was a read of the key at the time `now`, and found `d`. -/
def Read (k : Key) (ttl : ℕ) (h : List CheckTurn) (i now : ℕ) (d : Option k.Val) : Prop :=
  ∃ h₁ h₂, h = h₂ ++ .move i now (some (.kvGet k)) :: h₁ ∧ (∀ l ∈ h₂, callOf l ≠ some i) ∧
    d = viewOf ttl now (writes k h₁).head? ∧ ∀ w ∈ (writes k h₁).head?, w.time ≤ now

section

variable {k : Key} {ttl i now t : ℕ} {d : Option k.Val} {h : List CheckTurn} {l : CheckTurn}

theorem not_writes_read : ¬ Writes k (.move i t (some (.kvGet k))) := by
  rintro ⟨_, _, _, _, h⟩
  cases h

theorem Read.cons (hr : Read k ttl h i now d) (hl : callOf l ≠ some i) :
    Read k ttl (l :: h) i now d := by
  obtain ⟨h₁, h₂, rfl, hnot, hrest⟩ := hr
  exact ⟨h₁, l :: h₂, rfl, List.forall_mem_cons.mpr ⟨hl, hnot⟩, hrest⟩

theorem takeWhile_others {h₁ h₂ : List CheckTurn} (hnot : ∀ l ∈ h₂, callOf l ≠ some i)
    (hl : callOf l = some i) :
    (h₂ ++ l :: h₁).takeWhile (fun l' => callOf l' ≠ some i) = h₂ := by
  rw [List.takeWhile_append_of_pos (by simpa using hnot), List.takeWhile_cons]
  simp [hl]

/-- **A write that is not interrupted continues the log.** -/
theorem Read.log_cons {next : ℕ → Option k.Val → Option k.Val} {v : k.Val} {ex : Option ℕ}
    (hr : Read k ttl h i now d) (hun : Uninterrupted (.move i t (some (.kvSet k v ex)) :: h))
    (hnext : next now d = some v) (ht : now ≤ t) (hlog : Log next ttl (writes k h)) :
    Log next ttl (writes k (.move i t (some (.kvSet k v ex)) :: h)) := by
  obtain ⟨h₁, h₂, rfl, hnot, rfl, htime⟩ := hr
  have hno : ∀ l ∈ h₂, ¬ Writes k l := by
    have := hun.2 i t k v ex rfl
    rwa [takeWhile_others hnot rfl] at this
  have hwrites : writes k (h₂ ++ .move i now (some (.kvGet k)) :: h₁) = writes k h₁ := by
    rw [writes_append_of_not hno, writes_cons_of_not not_writes_read]
  have hread : readTime i (h₂ ++ .move i now (some (.kvGet k)) :: h₁) = now := by
    rw [readTime_append hnot, readTime, if_pos rfl]
  rw [writes_cons_self, hread, hwrites]
  rw [hwrites] at hlog
  exact ⟨hlog, ht, htime, hnext⟩

end

/-! ### The phases of a check -/

section

variable {env : Deployment} {p : BucketPrefix} {maxPerWindow maxPerDay : ℤ}
  {cidOf : PinataRequest → String} {h : List CheckTurn} {l : CheckTurn} {i : ℕ} {q : Program Bool}
  {s s' s₀ : Checks}

/-- The check `i` has written the window bucket, after the one read of it. -/
def Counted (p : BucketPrefix) (h : List CheckTurn) (i : ℕ) : Prop :=
  ∃ w ∈ writes (.window p) h, w.call = i ∧ ∀ t, windowCheck p i t ∈ h → t = w.read

/-- How far the check `i` has got, and what is left of it. -/
inductive Phase (env : Deployment) (p : BucketPrefix) (maxPerWindow maxPerDay : ℤ)
    (h : List CheckTurn) (i : ℕ) : Program Bool → Prop
  | begun : (∀ l ∈ h, callOf l ≠ some i) →
    Phase env p maxPerWindow maxPerDay h i (isRateLimited p maxPerWindow maxPerDay env)
  | readWindow {now : ℕ} {d : Option Bucket} : Read (.window p) (WINDOW_EX * 1000) h i now d →
    (∀ t, windowCheck p i t ∈ h → t = now) →
    Phase env p maxPerWindow maxPerDay h i
      (failClosed (checkWindow p maxPerWindow maxPerDay now d))
  | wroteWindow : Counted p h i →
    Phase env p maxPerWindow maxPerDay h i
      (failClosed (kvGet (.day p) >>= checkDay p maxPerDay))
  | readDay {now : ℕ} {d : Option ℕ} : Counted p h i →
    Read (.day p) (DAY_EX * 1000) h i now d →
    Phase env p maxPerWindow maxPerDay h i (failClosed (checkDay p maxPerDay d))
  | denied : Phase env p maxPerWindow maxPerDay h i (.done true)
  | letThrough : Counted p h i → Phase env p maxPerWindow maxPerDay h i (.done false)

theorem Counted.cons (hc : Counted p h i) (hl : ∀ t, l ≠ windowCheck p i t) :
    Counted p (l :: h) i := by
  obtain ⟨w, hw, hcall, hread⟩ := hc
  refine ⟨w, mem_writes_cons hw, hcall, fun t ht => ?_⟩
  rcases List.mem_cons.mp ht with heq | ht
  · exact absurd heq.symm (hl t)
  · exact hread t ht

/-- A step of another check changes nothing. -/
theorem Phase.cons (hp : Phase env p maxPerWindow maxPerDay h i q) (hl : callOf l ≠ some i) :
    Phase env p maxPerWindow maxPerDay (l :: h) i q := by
  have hne : ∀ t, l ≠ windowCheck p i t := by
    rintro t rfl
    exact hl rfl
  cases hp with
  | begun hnot => exact .begun (List.forall_mem_cons.mpr ⟨hl, hnot⟩)
  | readWindow hr honce =>
    refine .readWindow (hr.cons hl) fun t ht => ?_
    rcases List.mem_cons.mp ht with heq | ht
    · exact absurd heq.symm (hne t)
    · exact honce t ht
  | wroteWindow hc => exact .wroteWindow (hc.cons hne)
  | readDay hc hr => exact .readDay (hc.cons hne) (hr.cons hl)
  | denied => exact .denied
  | letThrough hc => exact .letThrough (hc.cons hne)

/-- A check that ends without an operation is denied, or had ended before. -/
theorem Phase.ended {t : ℕ} {m m' : Memory} {limited : Bool} (hkv : env.isKvConfigured = true)
    (hp : Phase env p maxPerWindow maxPerDay h i q) (hq : q.settle t m = (.done limited, m')) :
    m' = m ∧ (limited = true ∨ limited = false ∧ Counted p h i) := by
  -- each phase has one way to end, if any
  cases hp with
  | begun hnot =>
    rw [settle_check hkv] at hq
    cases hq
  | @readWindow now d hr honce =>
    rw [settle_checkWindow] at hq
    rcases hn : nextWindow maxPerWindow now d with _ | b <;> rw [hn] at hq <;> cases hq
    exact ⟨rfl, .inl rfl⟩
  | wroteWindow hc =>
    rw [settle_readDay] at hq
    cases hq
  | @readDay now d hc hr =>
    rw [settle_checkDay] at hq
    rcases hn : nextDay maxPerDay d with _ | c <;> rw [hn] at hq <;> cases hq
    exact ⟨rfl, .inl rfl⟩
  | denied =>
    cases hq
    exact ⟨rfl, .inl rfl⟩
  -- the one phase that lets the request through has counted it
  | letThrough hc =>
    cases hq
    exact ⟨rfl, .inr ⟨rfl, hc⟩⟩

/-! ### The invariant -/

/-- What is stored after the write `last`. -/
def stored {α : Type} (ttl : ℕ) (last : Option (Write α)) : Option (Entry α) :=
  last.map fun w => ⟨w.value, some (w.time + ttl)⟩

theorem get_of_stored {k : Key} {kv : Expiring Key Key.Val} {ttl t : ℕ} {last : Option (Write k.Val)}
    (hkv : kv.entry k = stored ttl last) : kv.get t k = viewOf ttl t last := by
  rw [Expiring.get, hkv]
  rcases last with _ | w
  · rfl
  · simp [stored, viewOf, Entry.Live]

/-- A key whose writes are a log, of which the latest is what is stored. -/
structure Logged (k : Key) (next : ℕ → Option k.Val → Option k.Val) (ex : ℕ) (h : List CheckTurn)
    (w : Concurrency.World Memory Services) : Prop where
  stored : w.store.kv.entry k = stored (ex * 1000) (writes k h).head?
  time_le : ∀ v ∈ (writes k h).head?, v.time ≤ w.clock
  log : Log next (ex * 1000) (writes k h)

/-- What holds of the checks after every history. -/
structure Inv (env : Deployment) (p : BucketPrefix) (maxPerWindow maxPerDay : ℤ)
    (h : List CheckTurn) (s : Checks) : Prop where
  phase : ∀ i q, s.tasks[i]? = some q → Phase env p maxPerWindow maxPerDay h i q
  begun : ∀ l ∈ h, ∀ i ∈ callOf l, i < s.tasks.length
  time_le : ∀ i t op, .move i t op ∈ h → t ≤ s.world.clock
  window : Logged (.window p) (nextWindow maxPerWindow) WINDOW_EX h s.world
  day : Logged (.day p) (fun _ => nextDay maxPerDay) DAY_EX h s.world

section

variable {k : Key} {next : ℕ → Option k.Val → Option k.Val} {ex t : ℕ}
  {w w' : Concurrency.World Memory Services}

/-- A step that does not write the key. -/
theorem Logged.cons (hk : Logged k next ex h w) (hl : ¬ Writes k l)
    (hstore : w'.store.kv.entry k = w.store.kv.entry k) (hclock : w.clock ≤ w'.clock) :
    Logged k next ex (l :: h) w' := by
  have hwrites : writes k (l :: h) = writes k h := writes_cons_of_not hl
  refine ⟨?_, ?_, ?_⟩ <;> rw [hwrites]
  · rw [hstore, hk.stored]
  · intro v hv
    exact (hk.time_le v hv).trans hclock
  · exact hk.log

/-- What a check reads. -/
theorem Logged.readNow (hk : Logged k next ex h w) (ht : w.clock ≤ t) :
    Read k (ex * 1000) (.move i t (some (.kvGet k)) :: h) i t (w.store.kv.get t k) := by
  refine ⟨h, [], rfl, by simp, get_of_stored hk.stored, fun v hv => ?_⟩
  exact (hk.time_le v hv).trans ht

/-- **A write that is not interrupted.** -/
theorem Logged.write {now : ℕ} {d : Option k.Val} {v : k.Val} (hk : Logged k next ex h w)
    (hr : Read k (ex * 1000) h i now d)
    (hun : Uninterrupted (.move i t (some (.kvSet k v (some ex))) :: h))
    (hnext : next now d = some v) (hnow : now ≤ t)
    (hstore : w'.store.kv = w.store.kv.set t k v (some (ex * 1000))) (hclock : w'.clock = t) :
    Logged k next ex (.move i t (some (.kvSet k v (some ex))) :: h) w' := by
  refine ⟨?_, ?_, hr.log_cons hun hnext hnow hk.log⟩
  · rw [hstore, Expiring.entry_set_self, writes_cons_self]
    rfl
  · rw [writes_cons_self, hclock]
    intro u hu
    obtain rfl := Option.some.inj hu
    exact Nat.le_refl _

end

theorem Read.readTime_eq {k : Key} {ttl now : ℕ} {d : Option k.Val} (hr : Read k ttl h i now d) :
    readTime i h = now := by
  obtain ⟨h₁, h₂, rfl, hnot, -⟩ := hr
  rw [readTime_append hnot, readTime, if_pos rfl]

theorem Read.mem {k : Key} {ttl now : ℕ} {d : Option k.Val} (hr : Read k ttl h i now d) :
    .move i now (some (.kvGet k)) ∈ h := by
  obtain ⟨h₁, h₂, rfl, -⟩ := hr
  simp

/-- A turn of the check `i`, put together from what it does to that check and to the two keys. -/
theorem Inv.move {t : ℕ} {op : Option Op} {q' : Program Bool} {w : Concurrency.World Memory Services}
    (hinv : Inv env p maxPerWindow maxPerDay h s) (hi : i < s.tasks.length)
    (ht : s.world.clock ≤ w.clock) (hclock : w.clock = t)
    (hphase : Phase env p maxPerWindow maxPerDay (.move i t op :: h) i q')
    (hwindow : Logged (.window p) (nextWindow maxPerWindow) WINDOW_EX (.move i t op :: h) w)
    (hday : Logged (.day p) (fun _ => nextDay maxPerDay) DAY_EX (.move i t op :: h) w) :
    Inv env p maxPerWindow maxPerDay (.move i t op :: h) ⟨w, s.tasks.set i q'⟩ where
  phase j q hq := by
    -- the call that moved, and all others, which only see the list grow
    by_cases hji : i = j
    · subst hji
      rw [List.getElem?_set_self hi] at hq
      obtain rfl := Option.some.inj hq
      exact hphase
    · rw [List.getElem?_set_ne hji] at hq
      exact (hinv.phase j q hq).cons fun heq => hji (Option.some.inj heq)
  begun l hl j hj := by
    rw [List.length_set]
    rcases List.mem_cons.mp hl with rfl | hl
    · obtain rfl := Option.some.inj hj
      exact hi
    · exact hinv.begun l hl j hj
  time_le j u o hmem := by
    rcases List.mem_cons.mp hmem with heq | hmem
    · cases heq
      exact hclock.ge
    · exact (hinv.time_le j u o hmem).trans ht
  window := hwindow
  day := hday

theorem window_ne_day : Key.window p ≠ .day p := nofun

/-- **Every step keeps the invariant** when nobody interrupts a write. -/
theorem Inv.step (hkv : env.isKvConfigured = true) (hinv : Inv env p maxPerWindow maxPerDay h s)
    (hs : CheckStep env p maxPerWindow maxPerDay cidOf s l s') (hun : Uninterrupted (l :: h)) :
    Inv env p maxPerWindow maxPerDay (l :: h) s' := by
  cases hs with
  | @arrive r =>
    have hnot : ¬ Writes (.window p) (.arrive r) := by
      rintro ⟨_, _, _, _, heq⟩
      cases heq
    have hnot' : ¬ Writes (.day p) (.arrive r) := by
      rintro ⟨_, _, _, _, heq⟩
      cases heq
    refine ⟨?_, ?_, ?_, hinv.window.cons hnot rfl (Nat.le_refl _),
      hinv.day.cons hnot' rfl (Nat.le_refl _)⟩
    · intro i q hq
      rcases Nat.lt_or_ge i s.tasks.length with hi | hi
      · rw [List.getElem?_append_left hi] at hq
        exact (hinv.phase i q hq).cons nofun
      · -- the new check
        rw [List.getElem?_append_right hi] at hq
        have hq' : isRateLimited p maxPerWindow maxPerDay env = q := by
          have hmem := List.mem_of_getElem? hq
          exact (List.mem_singleton.mp hmem).symm
        rw [← hq']
        refine .begun fun l hl heq => ?_
        rcases List.mem_cons.mp hl with rfl | hl
        · cases heq
        · exact absurd (hinv.begun l hl i heq) (by omega)
    · intro l hl j hj
      rw [List.length_append]
      rcases List.mem_cons.mp hl with rfl | hl
      · cases hj
      · exact (hinv.begun l hl j hj).trans (by simp)
    · intro j u o hmem
      rcases List.mem_cons.mp hmem with heq | hmem
      · cases heq
      · exact hinv.time_le j u o hmem
  | @finish i t q a m ht hi hq =>
    have hlt := (List.getElem?_eq_some_iff.mp hi).1
    have hnot : ∀ k, ¬ Writes k (.move i t none) := by
      rintro k ⟨_, _, _, _, heq⟩
      cases heq
    obtain ⟨rfl, hend⟩ := (hinv.phase i q hi).ended hkv hq
    refine hinv.move hlt ht rfl ?_ (hinv.window.cons (hnot _) rfl ht) (hinv.day.cons (hnot _) rfl ht)
    rcases hend with rfl | ⟨rfl, hc⟩
    · exact .denied
    · refine .letThrough (hc.cons fun u hu => ?_)
      cases hu
  | @perform i t q op next m r store ht hi hq hans =>
    have hlt := (List.getElem?_eq_some_iff.mp hi).1
    cases hinv.phase i q hi with
    | begun hnot =>
      rw [settle_check hkv] at hq
      cases hq
      obtain ⟨rfl, rfl | ⟨hf, -⟩⟩ := hans
      · refine hinv.move hlt ht rfl ?_ (hinv.window.cons not_writes_read rfl ht)
          (hinv.day.cons ?_ rfl ht)
        · refine .readWindow (hinv.window.readNow ht) fun u hu => ?_
          rcases List.mem_cons.mp hu with heq | hu
          · cases heq
            rfl
          · exact absurd rfl (hnot _ hu)
        · rintro ⟨_, _, _, _, heq⟩
          cases heq
      · exact hf.elim
    | @readWindow now d hr honce =>
      rw [settle_checkWindow] at hq
      rcases hn : nextWindow maxPerWindow now d with _ | b <;> rw [hn] at hq <;> cases hq
      obtain ⟨rfl, rfl⟩ | ⟨hf, -⟩ := hans
      · have hnow : now ≤ t := (hinv.time_le _ _ _ hr.mem).trans ht
        refine hinv.move hlt ht rfl (.wroteWindow ?_)
          (hinv.window.write hr hun hn hnow rfl rfl) (hinv.day.cons ?_ ?_ ht)
        · refine ⟨⟨i, readTime i h, t, b⟩, ?_, rfl, fun u hu => ?_⟩
          · rw [writes_cons_self]
            exact List.mem_cons_self ..
          · rcases List.mem_cons.mp hu with heq | hu
            · cases heq
            · rw [honce u hu, hr.readTime_eq]
        · rintro ⟨_, _, _, _, heq⟩
          cases heq
        · exact Expiring.entry_set_ne (Ne.symm window_ne_day)
      · exact hf.elim
    | wroteWindow hc =>
      rw [settle_readDay] at hq
      cases hq
      obtain ⟨rfl, rfl | ⟨hf, -⟩⟩ := hans
      · refine hinv.move hlt ht rfl (.readDay (hc.cons ?_) (hinv.day.readNow ht))
          (hinv.window.cons ?_ rfl ht) (hinv.day.cons not_writes_read rfl ht)
        · intro u heq
          cases heq
        · rintro ⟨_, _, _, _, heq⟩
          cases heq
      · exact hf.elim
    | @readDay now d hc hr =>
      rw [settle_checkDay] at hq
      rcases hn : nextDay maxPerDay d with _ | c <;> rw [hn] at hq <;> cases hq
      obtain ⟨rfl, rfl⟩ | ⟨hf, -⟩ := hans
      · have hnow : now ≤ t := (hinv.time_le _ _ _ hr.mem).trans ht
        refine hinv.move hlt ht rfl (.letThrough (hc.cons ?_)) (hinv.window.cons ?_ ?_ ht)
          (hinv.day.write hr hun hn hnow rfl rfl)
        · intro u heq
          cases heq
        · rintro ⟨_, _, _, _, heq⟩
          cases heq
        · exact Expiring.entry_set_ne window_ne_day
      · exact hf.elim
    | denied => cases hq
    | letThrough _ => cases hq

/-- The invariant holds in every run in which no write is interrupted. -/
theorem Inv.of_run (hkv : env.isKvConfigured = true) (h₀ : Fresh p s₀)
    (hr : Run (CheckStep env p maxPerWindow maxPerDay cidOf) s₀ h s) (hun : Uninterrupted h) :
    Inv env p maxPerWindow maxPerDay h s := by
  induction hr with
  | nil =>
    refine ⟨?_, by simp, by simp, ⟨h₀.window, by simp [writes], trivial⟩,
      ⟨h₀.day, by simp [writes], trivial⟩⟩
    intro i q hq
    rw [h₀.tasks] at hq
    cases hq
  | snoc _ hs ih => exact (ih hun.1).step hkv hs hun

/-! ### The bounds -/

/-- The bound of a window follows from the invariant. -/
theorem Inv.windowBound (hkv : env.isKvConfigured = true) (hmax : 0 < maxPerWindow)
    (hinv : Inv env p maxPerWindow maxPerDay h s) : WindowBound p maxPerWindow h s := by
  intro i t b ex hmem calls hcalls
  obtain ⟨seg, hseg, -, hwrite⟩ := exists_writes_append (.window p) h []
  obtain ⟨e, he, -, rfl⟩ := hwrite i t b ex hmem
  have heq : writes (.window p) h = seg := by simpa [writes] using hseg
  rw [← heq] at he
  apply hinv.window.log.window_card_le hmax he
  intro j hj
  obtain ⟨hresult, now, hnow, hge, hle⟩ := hcalls j hj
  obtain ⟨q, hq, hdone⟩ := Option.bind_eq_some_iff.mp hresult
  have hsettle : q.settle 0 ({} : Memory) = (.done false, {}) := by
    cases q with
    | done a =>
      obtain rfl := Option.some.inj hdone
      rfl
    | _ => cases hdone
  obtain ⟨-, hend⟩ := (hinv.phase j q hq).ended hkv hsettle
  rcases hend with hlimited | ⟨-, w, hw, hcall, hread⟩
  · cases hlimited
  · rw [hread now hnow] at hge hle
    exact ⟨w, hw, hcall, hge, hle⟩

theorem Log.suffix {α : Type} {next : ℕ → Option α → Option α} {ttl : ℕ} {ws ws' : List (Write α)}
    (h : Log next ttl (ws' ++ ws)) : Log next ttl ws := by
  induction ws' with
  | nil => exact h
  | cons w ws' ih => exact ih h.tail

/-- So does the bound of a day. -/
theorem Inv.dayBound (hmax : 0 < maxPerDay) (hinv : Inv env p maxPerWindow maxPerDay h s) :
    DayBound p maxPerDay h s := by
  intro h₁ h₂ h₃ heq hday calls hcalls
  obtain ⟨late, hlate, -, -⟩ := exists_writes_append (.day p) h₃ (h₂ ++ h₁)
  obtain ⟨seg, hseg, htimes, hwrite⟩ := exists_writes_append (.day p) h₂ h₁
  have hlog : Log (fun _ => nextDay maxPerDay) (DAY_EX * 1000) (seg ++ writes (.day p) h₁) := by
    have hlog := hinv.day.log
    rw [heq, List.append_assoc, hlate, hseg] at hlog
    exact hlog.suffix
  refine hlog.day_card_le hmax (htimes ▸ hday) fun j hj => ?_
  obtain ⟨-, t, count, ex, hmem⟩ := hcalls j hj
  obtain ⟨w, hw, hcall, -⟩ := hwrite j t count ex hmem
  exact ⟨w, hw, hcall⟩

/-- **The limits hold** in every run in which nobody else writes a key between a check's read of it
and its write. -/
theorem limited_of_uninterrupted (hkv : env.isKvConfigured = true) (hwindow : 0 < maxPerWindow)
    (hday : 0 < maxPerDay) (h₀ : Fresh p s₀)
    (hr : Run (CheckStep env p maxPerWindow maxPerDay cidOf) s₀ h s) (hun : Uninterrupted h) :
    WindowBound p maxPerWindow h s ∧ DayBound p maxPerDay h s := by
  have hinv := Inv.of_run hkv h₀ hr hun
  exact ⟨hinv.windowBound hkv hwindow, hinv.dayBound hday⟩

end

/-! ### Two checks at once -/

/-- A server that has made no checks. -/
def noChecks : Checks := ⟨⟨0, {}, {}⟩, []⟩

/-- The counter of a wallet. -/
def samplePrefix : BucketPrefix := .action "GALICE"

/-- Two checks at one moment, each a step behind the other (latest label first). -/
def sampleOverlap : List CheckTurn :=
  [.move 1 0 (some (.kvSet (.day samplePrefix) 1 (some DAY_EX))),
    .move 0 0 (some (.kvSet (.day samplePrefix) 1 (some DAY_EX))),
    .move 1 0 (some (.kvGet (.day samplePrefix))),
    .move 0 0 (some (.kvGet (.day samplePrefix))),
    .move 1 0 (some (.kvSet (.window samplePrefix) ⟨1, 0⟩ (some WINDOW_EX))),
    .move 0 0 (some (.kvSet (.window samplePrefix) ⟨1, 0⟩ (some WINDOW_EX))),
    .move 1 0 (some (.kvGet (.window samplePrefix))),
    .move 0 0 (some (.kvGet (.window samplePrefix))),
    .arrive (), .arrive ()]

theorem answers_kvGet {cidOf : PinataRequest → String} {t : ℕ} {w : Services} {k : Key} :
    Answers False cidOf t w (.kvGet k) (.ok (w.kv.get t k)) w := ⟨rfl, .inl rfl⟩

theorem answers_kvSet {cidOf : PinataRequest → String} {t : ℕ} {w : Services} {k : Key} {v : k.Val}
    {ex : Option ℕ} : Answers False cidOf t w (.kvSet k v ex) (.ok ())
      { w with kv := w.kv.set t k v (ex.map (· * 1000)) } := .inl ⟨rfl, rfl⟩

/-- Two checks read the counter before one of them writes it, and both pass. -/
theorem run_sampleOverlap :
    ∃ s, Run (CheckStep sampleDeployment samplePrefix 1 1 fun _ => "") noChecks sampleOverlap s ∧
      s.result? 0 = some false ∧ s.result? 1 = some false :=
  ⟨_, .snoc (.snoc (.snoc (.snoc (.snoc (.snoc (.snoc (.snoc (.snoc (.snoc .nil .arrive) .arrive)
    (.perform (Nat.le_refl _) rfl (settle_check rfl) answers_kvGet))
    (.perform (Nat.le_refl _) rfl (settle_check rfl) answers_kvGet))
    (.perform (Nat.le_refl _) rfl settle_checkWindow answers_kvSet))
    (.perform (Nat.le_refl _) rfl settle_checkWindow answers_kvSet))
    (.perform (Nat.le_refl _) rfl settle_readDay answers_kvGet))
    (.perform (Nat.le_refl _) rfl settle_readDay answers_kvGet))
    (.perform (Nat.le_refl _) rfl settle_checkDay answers_kvSet))
    (.perform (Nat.le_refl _) rfl settle_checkDay answers_kvSet), rfl, rfl⟩

/-- With limits of one, both requests are let through. -/
theorem not_limited_two_checks :
    ∃ s, Run (CheckStep sampleDeployment samplePrefix 1 1 fun _ => "") noChecks sampleOverlap s ∧
      ¬ WindowBound samplePrefix 1 sampleOverlap s ∧ ¬ DayBound samplePrefix 1 sampleOverlap s := by
  obtain ⟨s, hrun, h₀, h₁⟩ := run_sampleOverlap
  have hboth : ∀ j ∈ ({0, 1} : Finset ℕ), s.result? j = some false := by
    simp [h₀, h₁]
  have htwo : ¬ ((({0, 1} : Finset ℕ).card : ℤ) ≤ 1) := by decide
  refine ⟨s, hrun, fun hbound => htwo ?_, fun hbound => htwo ?_⟩
  · apply hbound 0 0 ⟨1, 0⟩ (some WINDOW_EX) (by simp [sampleOverlap])
    intro j hj
    refine ⟨hboth j hj, 0, ?_, Nat.le_refl _, Nat.zero_le _⟩
    rcases Finset.mem_insert.mp hj with rfl | hj
    · simp [sampleOverlap, windowCheck]
    · obtain rfl := Finset.mem_singleton.mp hj
      simp [sampleOverlap, windowCheck]
  · apply hbound [] sampleOverlap [] (by simp)
    · exact List.isChain_cons_cons.mpr ⟨Nat.zero_le _, List.isChain_singleton _⟩
    · intro j hj
      refine ⟨hboth j hj, 0, 1, some DAY_EX, ?_⟩
      rcases Finset.mem_insert.mp hj with rfl | hj
      · simp [sampleOverlap]
      · obtain rfl := Finset.mem_singleton.mp hj
        simp [sampleOverlap]

/-- Two checks that arrive together, and the second one waits for the first (latest label first). -/
def sampleInTurn : List CheckTurn :=
  [.move 1 0 none,
    .move 1 0 (some (.kvGet (.window samplePrefix))),
    .move 0 0 (some (.kvSet (.day samplePrefix) 1 (some DAY_EX))),
    .move 0 0 (some (.kvGet (.day samplePrefix))),
    .move 0 0 (some (.kvSet (.window samplePrefix) ⟨1, 0⟩ (some WINDOW_EX))),
    .move 0 0 (some (.kvGet (.window samplePrefix))),
    .arrive (), .arrive ()]

/-- Two checks one after the other, of which the second is limited. -/
theorem run_sampleInTurn :
    ∃ s, Run (CheckStep sampleDeployment samplePrefix 1 1 fun _ => "") noChecks sampleInTurn s ∧
      s.result? 0 = some false ∧ s.result? 1 = some true :=
  ⟨_, .snoc (.snoc (.snoc (.snoc (.snoc (.snoc (.snoc (.snoc .nil .arrive) .arrive)
    (.perform (Nat.le_refl _) rfl (settle_check rfl) answers_kvGet))
    (.perform (Nat.le_refl _) rfl settle_checkWindow answers_kvSet))
    (.perform (Nat.le_refl _) rfl settle_readDay answers_kvGet))
    (.perform (Nat.le_refl _) rfl settle_checkDay answers_kvSet))
    (.perform (Nat.le_refl _) rfl (settle_check rfl) answers_kvGet))
    (.finish (Nat.le_refl _) rfl settle_checkWindow), rfl, rfl⟩

/-- With limits of one, the first request is let through and the second one denied. -/
theorem limited_of_uninterrupted_sampleInTurn :
    ∃ s, Run (CheckStep sampleDeployment samplePrefix 1 1 fun _ => "") noChecks sampleInTurn s ∧
      s.result? 0 = some false ∧ s.result? 1 = some true ∧ WindowBound samplePrefix 1 sampleInTurn s ∧
      DayBound samplePrefix 1 sampleInTurn s := by
  obtain ⟨s, hrun, hpassed, hdenied⟩ := run_sampleInTurn
  have hun : Uninterrupted sampleInTurn := by
    refine ⟨⟨⟨⟨⟨⟨⟨⟨trivial, ?_⟩, ?_⟩, ?_⟩, ?_⟩, ?_⟩, ?_⟩, ?_⟩, ?_⟩ <;>
    · intro i t k v ex heq
      cases heq
      all_goals simp [callOf]
  exact ⟨s, hrun, hpassed, hdenied, limited_of_uninterrupted rfl (by decide) (by decide)
    ⟨rfl, rfl, rfl⟩ hrun hun⟩

end StellarForge.Server
