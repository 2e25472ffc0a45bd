import Mathlib.Data.Finset.Card
import Mathlib.Data.List.Chain
import Mathlib.Data.List.Pairwise
import Mathlib.Order.Interval.Finset.Nat
import StellarForge.Concurrency.Pool
import StellarForge.Server.RateLimit

/-!
# The writes of a bucket

`writes k h` are the writes of the key `k` in the history `h`, latest first, each with the time at
which its caller had read the key.  `Log next ttl` says that every write is `next` of what its caller
read, and that what it read is the write before, while that lives.

* `Log.window_card_le`, `Log.day_card_le`: **how many writes of such a log fall in one window, and in
  one life of the day bucket.**
-/

namespace StellarForge.Server

open Concurrency

/-- A write of a key: who made it, when it had read the key, and when it wrote which value. -/
structure Write (α : Type) where
  call : ℕ
  read : ℕ
  time : ℕ
  value : α

section

variable {α : Type} {next : ℕ → Option α → Option α} {ttl : ℕ}

/-- What a read at the time `t` finds after the write `last`. -/
def viewOf (ttl t : ℕ) (last : Option (Write α)) : Option α :=
  last.bind fun w => if t ≤ w.time + ttl then some w.value else none

/-- Every write of the log, latest first, is `next` of what its caller had read, and nobody wrote
in between. -/
def Log (next : ℕ → Option α → Option α) (ttl : ℕ) : List (Write α) → Prop
  | [] => True
  | w :: ws => Log next ttl ws ∧ w.read ≤ w.time ∧ (∀ v ∈ ws.head?, v.time ≤ w.read) ∧
      next w.read (viewOf ttl w.read ws.head?) = some w.value

theorem Log.tail {w : Write α} {ws : List (Write α)} (h : Log next ttl (w :: ws)) :
    Log next ttl ws := h.1

/-- A check reads before it writes. -/
theorem Log.read_le {ws : List (Write α)} (h : Log next ttl ws) : ∀ w ∈ ws, w.read ≤ w.time := by
  induction ws with
  | nil => simp
  | cons v ws ih =>
    intro w hw
    rcases List.mem_cons.mp hw with rfl | hw
    · exact h.2.1
    · exact ih h.tail w hw

end

/-! ### The window bucket -/

section Window

variable {maxPerWindow : ℤ} {w v : Write Bucket} {ws : List (Write Bucket)}

/-- The check of the write falls in its window. -/
structure InWindow (maxPerWindow : ℤ) (w : Write Bucket) : Prop where
  start_le : w.value.windowStart ≤ w.read
  le_end : w.read ≤ w.value.windowStart + WINDOW_MS
  pos : 0 < w.value.count
  le_max : (w.value.count : ℤ) ≤ maxPerWindow

/-- `w` comes after `v`: later in the same window, or in a window that opened after the end of the
window of `v`. -/
def After (w v : Write Bucket) : Prop :=
  (w.value.windowStart = v.value.windowStart ∧ v.value.count < w.value.count) ∨
    v.value.windowStart + WINDOW_MS < w.value.windowStart

theorem After.trans {u : Write Bucket} (h : After w v) (h' : After v u) : After w u := by
  rcases h with ⟨hs, hc⟩ | h <;> rcases h' with ⟨hs', hc'⟩ | h'
  · exact .inl ⟨hs.trans hs', by omega⟩
  · exact .inr (by omega)
  · exact .inr (by omega)
  · exact .inr (by omega)

/-- A window goes on, or begins anew. -/
theorem nextWindow_eq_some {now : ℕ} {o : Option Bucket} {b : Bucket}
    (h : nextWindow maxPerWindow now o = some b) :
    (b = ⟨1, now⟩ ∧ ∀ b' ∈ o, b'.windowStart + WINDOW_MS < now) ∨
      ∃ b' ∈ o, now ≤ b'.windowStart + WINDOW_MS ∧ (b'.count : ℤ) < maxPerWindow ∧
        b = ⟨b'.count + 1, b'.windowStart⟩ := by
  rcases o with _ | ⟨count, windowStart⟩
  · left
    exact ⟨(Option.some.inj h).symm, by simp⟩
  · rw [nextWindow] at h
    split_ifs at h with hexpired hfull
    · left
      refine ⟨(Option.some.inj h).symm, ?_⟩
      intro b' hb'
      obtain rfl := Option.some.inj hb'
      have : windowStart + WINDOW_MS < now := by omega
      exact this
    · right
      refine ⟨_, rfl, ?_, by simpa using hfull, (Option.some.inj h).symm⟩
      show now ≤ windowStart + WINDOW_MS
      omega

/-- The lifetime of the window bucket is the length of a window. -/
theorem window_ttl : WINDOW_EX * 1000 = WINDOW_MS := rfl

/-- The latest write, after a window write `v`. -/
theorem Log.window_step (hmax : 0 < maxPerWindow)
    (h : Log (nextWindow maxPerWindow) (WINDOW_EX * 1000) (w :: v :: ws))
    (hv : InWindow maxPerWindow v) : InWindow maxPerWindow w ∧ After w v := by
  obtain ⟨htail, -, hprev, hnext⟩ := h
  have hvread : v.read ≤ v.time := htail.read_le v (List.mem_cons_self ..)
  have hvtime : v.time ≤ w.read := hprev v rfl
  have hstart := hv.start_le
  rw [window_ttl] at hnext
  rcases nextWindow_eq_some hnext with ⟨hopen, hend⟩ | ⟨b, hb, hnow, hroom, hgo⟩
  · -- a new window: the old one has ended, or its entry has expired
    have hafter : v.value.windowStart + WINDOW_MS < w.read := by
      by_cases hlive : w.read ≤ v.time + WINDOW_MS
      · apply hend
        simp [viewOf, hlive]
      · omega
    refine ⟨⟨?_, ?_, ?_, ?_⟩, .inr ?_⟩ <;> rw [hopen]
    · show w.read ≤ w.read + WINDOW_MS
      omega
    · show 0 < 1
      omega
    · exact hmax
    · exact hafter
  · have hbv : b = v.value := by
      simp only [viewOf, List.head?_cons, Option.bind_some, Option.mem_def,
        Option.ite_none_right_eq_some, Option.some.injEq] at hb
      exact hb.2.symm
    rw [hbv] at hnow hroom hgo
    refine ⟨⟨?_, ?_, ?_, ?_⟩, .inl ⟨?_, ?_⟩⟩ <;> rw [hgo]
    · show v.value.windowStart ≤ w.read
      omega
    · exact hnow
    · exact Nat.succ_pos _
    · show ((v.value.count + 1 : ℕ) : ℤ) ≤ maxPerWindow
      omega
    · exact Nat.lt_succ_self _

/-- The first write of a log opens a window. -/
theorem Log.window_first (hmax : 0 < maxPerWindow)
    (h : Log (nextWindow maxPerWindow) (WINDOW_EX * 1000) [w]) : InWindow maxPerWindow w := by
  obtain ⟨-, -, -, hnext⟩ := h
  have hopen : w.value = ⟨1, w.read⟩ := (Option.some.inj hnext).symm
  refine ⟨?_, ?_, ?_, ?_⟩ <;> rw [hopen]
  · show w.read ≤ w.read + WINDOW_MS
    omega
  · show 0 < 1
    omega
  · exact hmax

/-- In a log of window writes each falls in its window, and windows follow one another. -/
theorem Log.windows (hmax : 0 < maxPerWindow)
    (h : Log (nextWindow maxPerWindow) (WINDOW_EX * 1000) ws) :
    (∀ w ∈ ws, InWindow maxPerWindow w) ∧ ws.Pairwise After := by
  induction ws with
  | nil => simp
  | cons w ws ih =>
    obtain ⟨hin, hpair⟩ := ih h.tail
    cases ws with
    | nil => simpa using h.window_first hmax
    | cons v ws =>
      obtain ⟨hw, hafter⟩ := h.window_step hmax (hin v (List.mem_cons_self ..))
      refine ⟨List.forall_mem_cons.mpr ⟨hw, hin⟩, List.pairwise_cons.mpr ⟨?_, hpair⟩⟩
      intro u hu
      rcases List.mem_cons.mp hu with rfl | hu
      · exact hafter
      · exact hafter.trans (List.rel_of_pairwise_cons hpair hu)

/-- Two checks that fall in one window are counted in it. -/
theorem windowStart_eq (hw : InWindow maxPerWindow w) (h : w = v ∨ After w v ∨ After v w)
    (hge : v.value.windowStart ≤ w.read) (hle : w.read ≤ v.value.windowStart + WINDOW_MS) :
    w.value.windowStart = v.value.windowStart := by
  have hstart := hw.start_le
  have hend := hw.le_end
  rcases h with rfl | (⟨h, -⟩ | h) | (⟨h, -⟩ | h)
  · rfl
  · exact h
  · omega
  · exact h.symm
  · omega

/-- **At most `maxPerWindow` calls have a write in the log whose check falls in the window of one
of its writes.** -/
theorem Log.window_card_le (hmax : 0 < maxPerWindow)
    (h : Log (nextWindow maxPerWindow) (WINDOW_EX * 1000) ws) {e : Write Bucket} (he : e ∈ ws)
    {calls : Finset ℕ}
    (hcalls : ∀ i ∈ calls, ∃ w ∈ ws, w.call = i ∧ e.value.windowStart ≤ w.read ∧
      w.read ≤ e.value.windowStart + WINDOW_MS) : (calls.card : ℤ) ≤ maxPerWindow := by
  obtain ⟨hin, hpair⟩ := h.windows hmax
  have hsymm : Std.Symm fun w v => After w v ∨ After v w := ⟨fun _ _ => Or.symm⟩
  have htotal : ∀ w ∈ ws, ∀ v ∈ ws, w = v ∨ After w v ∨ After v w := by
    intro w hw v hv
    by_cases hwv : w = v
    · exact .inl hwv
    · have hpair' : ws.Pairwise fun w v => After w v ∨ After v w := hpair.imp Or.inl
      exact .inr (hpair'.forall hw hv hwv)
  have : Nonempty (Write Bucket) := ⟨e⟩
  choose! write hwrite using hcalls
  have hstart : ∀ i ∈ calls, (write i).value.windowStart = e.value.windowStart := by
    intro i hi
    obtain ⟨hmem, -, hge, hle⟩ := hwrite i hi
    exact windowStart_eq (hin _ hmem) (htotal _ hmem e he) hge hle
  -- within one window the counts tell the calls apart
  have hcard : calls.card ≤ (Finset.Icc 1 maxPerWindow.toNat).card := by
    apply Finset.card_le_card_of_injOn fun i => (write i).value.count
    · intro i hi
      have hi' := hin _ (hwrite i hi).1
      have hpos := hi'.pos
      have hle := hi'.le_max
      simp only [Finset.coe_Icc, Set.mem_Icc]
      omega
    · intro i hi j hj hij
      have hsame : write i = write j := by
        rcases htotal _ (hwrite i hi).1 _ (hwrite j hj).1 with h | (⟨-, h⟩ | h) | (⟨-, h⟩ | h)
        · exact h
        · exact absurd hij (Nat.ne_of_gt h)
        · rw [hstart i hi, hstart j hj] at h
          omega
        · exact absurd hij (Nat.ne_of_lt h)
        · rw [hstart i hi, hstart j hj] at h
          omega
      rw [← (hwrite i hi).2.1, hsame, (hwrite j hj).2.1]
  rw [Nat.card_Icc] at hcard
  omega

end Window

/-! ### The day bucket -/

section Day

variable {maxPerDay : ℤ} {w v : Write ℕ} {ws : List (Write ℕ)} {ttl : ℕ}

/-- The count of a day goes on. -/
theorem nextDay_eq_some {o : Option ℕ} {count : ℕ} (h : nextDay maxPerDay o = some count) :
    count = o.getD 0 + 1 ∧ ∀ c ∈ o, (c : ℤ) < maxPerDay := by
  rcases o with _ | c
  · exact ⟨(Option.some.inj h).symm, by simp⟩
  · rw [nextDay] at h
    split_ifs at h with hfull
    refine ⟨(Option.some.inj h).symm, ?_⟩
    intro c' hc'
    obtain rfl := Option.some.inj hc'
    omega

/-- The counts of a log of day writes are between 1 and the limit. -/
theorem Log.day_count (hmax : 0 < maxPerDay) (h : Log (fun _ => nextDay maxPerDay) ttl ws) :
    ∀ w ∈ ws, 0 < w.value ∧ (w.value : ℤ) ≤ maxPerDay := by
  induction ws with
  | nil => simp
  | cons v ws ih =>
    intro w hw
    rcases List.mem_cons.mp hw with rfl | hw
    · obtain ⟨-, -, -, hnext⟩ := h
      obtain ⟨hcount, hroom⟩ := nextDay_eq_some hnext
      refine ⟨by omega, ?_⟩
      rcases hview : viewOf ttl w.read ws.head? with _ | c
      · rw [hview, Option.getD_none] at hcount
        omega
      · rw [hview, Option.getD_some] at hcount
        have := hroom c hview
        omega
    · exact ih h.tail w hw

/-- While the bucket lives, the counts go up. -/
theorem Log.day_pairwise {post : List (Write ℕ)} (h : Log (fun _ => nextDay maxPerDay) ttl (ws ++ post))
    (hlife : (ws.map Write.time).IsChain fun t t' => t ≤ t' + ttl) :
    ws.Pairwise fun w v => v.value < w.value := by
  induction ws with
  | nil => exact .nil
  | cons w ws ih =>
    have hpair := ih h.tail hlife.tail
    cases ws with
    | nil => exact List.pairwise_singleton ..
    | cons v ws =>
      -- the entry was still alive when it was read, so the count went up by one
      have hwv : v.value < w.value := by
        obtain ⟨-, hread, hprev, hnext⟩ := h
        obtain ⟨hcount, -⟩ := nextDay_eq_some hnext
        have hlive : w.time ≤ v.time + ttl := by
          simp only [List.map_cons, List.isChain_cons_cons] at hlife
          exact hlife.1
        have hview : viewOf ttl w.read (some v) = some v.value := by
          rw [viewOf, Option.bind_some, if_pos (by omega)]
        have hhead : ((v :: ws).append post).head? = some v := rfl
        rw [hhead, hview, Option.getD_some] at hcount
        omega
      refine List.pairwise_cons.mpr ⟨?_, hpair⟩
      intro u hu
      rcases List.mem_cons.mp hu with rfl | hu
      · exact hwv
      · exact (List.rel_of_pairwise_cons hpair hu).trans hwv

/-- **At most `maxPerDay` calls write the day bucket in one life of it.** -/
theorem Log.day_card_le {post : List (Write ℕ)} (hmax : 0 < maxPerDay)
    (h : Log (fun _ => nextDay maxPerDay) ttl (ws ++ post))
    (hlife : (ws.map Write.time).IsChain fun t t' => t ≤ t' + ttl) {calls : Finset ℕ}
    (hcalls : ∀ i ∈ calls, ∃ w ∈ ws, w.call = i) : (calls.card : ℤ) ≤ maxPerDay := by
  rcases calls.eq_empty_or_nonempty with rfl | ⟨i₀, hi₀⟩
  · simpa using hmax.le
  obtain ⟨e, -, -⟩ := hcalls i₀ hi₀
  have : Nonempty (Write ℕ) := ⟨e⟩
  choose! write hwrite using hcalls
  have hsymm : Std.Symm fun w v : Write ℕ => w.value ≠ v.value := ⟨fun _ _ => Ne.symm⟩
  -- counts strictly grow, so calls inject into the counts up to the maximum
  have hne : ws.Pairwise fun w v => w.value ≠ v.value := (h.day_pairwise hlife).imp Nat.ne_of_gt
  have hcard : calls.card ≤ (Finset.Icc 1 maxPerDay.toNat).card := by
    apply Finset.card_le_card_of_injOn fun i => (write i).value
    · intro i hi
      have hi' := h.day_count hmax (write i) (List.mem_append_left _ (hwrite i hi).1)
      simp only [Finset.coe_Icc, Set.mem_Icc]
      omega
    · intro i hi j hj hij
      have hsame : write i = write j := by
        by_contra hdiff
        exact hne.forall (hwrite i hi).1 (hwrite j hj).1 hdiff hij
      rw [← (hwrite i hi).2, hsame, (hwrite j hj).2]
  rw [Nat.card_Icc] at hcard
  omega

end Day

end StellarForge.Server
