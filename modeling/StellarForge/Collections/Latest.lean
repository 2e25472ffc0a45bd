import Mathlib.Data.List.Basic
import Mathlib.Order.Lattice
import Mathlib.Order.Nat

/-!
# The last value in a log

Some events of a log set a value, which stands until the next such event.  Whoever follows the log shows
some value that stood once, and the question is how old it may be.

* `lastValue f log`: the value that stands at the end of the log;
* `Since f log c x`: `x` stood at some time since the first `c` events;
* `Since.segment`, `Since.advance`: what becomes of it when a stretch of the log is applied, early or in its
  turn.
-/

namespace StellarForge.Collections

variable {ε υ : Type*} {f : ε → Option υ} {log new : List ε} {c c' p q : ℕ} {x : Option υ}

/-- The value that stands at the end of the log. -/
def lastValue (f : ε → Option υ) (log : List ε) : Option υ := (log.filterMap f).getLast?

/-- The value stood at some time since the first `c` events of the log. -/
def Since (f : ε → Option υ) (log : List ε) (c : ℕ) (x : Option υ) : Prop :=
  ∃ n, c ≤ n ∧ n ≤ log.length ∧ x = lastValue f (log.take n)

@[simp] theorem lastValue_nil : lastValue f [] = none := rfl

theorem lastValue_append : lastValue f (log ++ new) = (lastValue f new).or (lastValue f log) := by
  rw [lastValue, lastValue, lastValue, List.filterMap_append, List.getLast?_append]

@[simp] theorem lastValue_eq_none : lastValue f log = none ↔ ∀ e ∈ log, f e = none := by
  rw [lastValue, List.getLast?_eq_none_iff, List.filterMap_eq_nil_iff]

/-- The values are translated. -/
theorem lastValue_comp {τ : Type*} {g : υ → τ} :
    lastValue (fun e => (f e).map g) log = (lastValue f log).map g := by
  rw [lastValue, lastValue, ← List.map_filterMap, List.getLast?_map]

/-- The events are translated. -/
theorem lastValue_map {τ : Type*} {l : List τ} {g : τ → ε} :
    lastValue f (l.map g) = lastValue (fun e => f (g e)) l := by
  rw [lastValue, lastValue, List.filterMap_map]
  rfl

/-- Events that set nothing may be left out. -/
theorem lastValue_filter {r : ε → Bool} (h : ∀ e ∈ log, r e = false → f e = none) :
    lastValue f (log.filter r) = lastValue f log := by
  have hsame : (log.filter r).filterMap f = log.filterMap f := by
    rw [List.filterMap_filter]
    apply List.filterMap_congr
    intro e he
    cases hr : r e with
    | true => rfl
    | false => exact (h e he hr).symm
  rw [lastValue, hsame, lastValue]

/-- A log up to `q` is its part up to `p`, and a stretch. -/
theorem take_eq_append_stretch (h : p ≤ q) : log.take q = log.take p ++ (log.take q).drop p := by
  have hp : (log.take q).take p = log.take p := by rw [List.take_take, min_eq_left h]
  rw [← hp, List.take_append_drop]

theorem lastValue_take_of_le (h : p ≤ q) :
    lastValue f (log.take q) = (lastValue f ((log.take q).drop p)).or (lastValue f (log.take p)) := by
  rw [take_eq_append_stretch h, lastValue_append, ← take_eq_append_stretch h]

namespace Since

theorem mono (h : Since f log c x) (hle : c' ≤ c) : Since f log c' x := by
  obtain ⟨n, hn, hlength, hx⟩ := h
  exact ⟨n, hle.trans hn, hlength, hx⟩

/-- The log grows. -/
theorem append (h : Since f log c x) (new : List ε) : Since f (log ++ new) c x := by
  obtain ⟨n, hn, hlength, hx⟩ := h
  refine ⟨n, hn, ?_, ?_⟩
  · rw [List.length_append]
    omega
  · rw [List.take_append_of_le_length hlength]
    exact hx

/-- The value that stands. -/
theorem current (h : c ≤ log.length) : Since f log c (lastValue f (log.take c)) := ⟨c, le_rfl, h, rfl⟩

/-- **A stretch is applied early**, after what it was applied to. -/
theorem segment (h : Since f log c x) (hp : c ≤ p) (hpq : p ≤ q) (hq : q ≤ log.length) :
    Since f log c ((lastValue f ((log.take q).drop p)).or x) := by
  rcases hv : lastValue f ((log.take q).drop p) with _ | v
  · exact h
  · refine ⟨q, hp.trans hpq, hq, ?_⟩
    rw [lastValue_take_of_le hpq, hv]
    rfl

/-- **A stretch is applied in its turn.** -/
theorem advance (h : Since f log p x) (hpq : p ≤ q) (hq : q ≤ log.length) :
    Since f log q ((lastValue f ((log.take q).drop p)).or x) := by
  rcases hv : lastValue f ((log.take q).drop p) with _ | v
  · obtain ⟨n, hn, hlength, hx⟩ := h
    by_cases hnq : q ≤ n
    · exact ⟨n, hnq, hlength, hx⟩
    · -- the stretch sets nothing, so the value still stands at its end
      have hnq : n ≤ q := by omega
      have hnone : lastValue f ((log.take q).drop n) = none := by
        rw [lastValue_eq_none] at hv ⊢
        intro e he
        have hdrop : (log.take q).drop n = ((log.take q).drop p).drop (n - p) := by
          rw [List.drop_drop, Nat.add_sub_cancel' hn]
        rw [hdrop] at he
        exact hv e (List.mem_of_mem_drop he)
      refine ⟨q, le_rfl, hq, ?_⟩
      rw [lastValue_take_of_le hnq, hnone]
      exact hx
  · refine ⟨q, le_rfl, hq, ?_⟩
    rw [lastValue_take_of_le hpq, hv]
    rfl

end Since

end StellarForge.Collections
