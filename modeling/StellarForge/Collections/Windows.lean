import Mathlib.Data.List.Basic
import Mathlib.Data.List.MinMax
import Mathlib.Data.List.Nodup
import Mathlib.Tactic.Common
import Mathlib.Tactic.Ring

/-!
# Windows over the numbers up to a total, newest first

`window total offset limit` holds up to `limit` of the numbers `1`, …, `total`, from `total - offset`
downwards.  The windows of one total at the offsets `0`, `size`, `2 * size`, … have every number in
exactly one of them.
-/

namespace StellarForge.Collections

variable {total offset limit size i j k p q : ℕ}

/-- At most `limit` numbers from `total - offset` down to `1`. -/
def window (total offset limit : ℕ) : List ℕ :=
  let highIndex := total - offset
  let lowIndex := max 1 (highIndex + 1 - limit)
  (List.range' lowIndex (highIndex + 1 - lowIndex)).reverse

theorem mem_window :
    i ∈ window total offset limit ↔ 1 ≤ i ∧ i + offset ≤ total ∧ total < i + offset + limit := by
  rw [window, List.mem_reverse, List.mem_range'_1]
  omega

theorem window_eq_nil (h : total ≤ offset) : window total offset limit = [] := by
  rw [List.eq_nil_iff_forall_not_mem]
  intro i hi
  rw [mem_window] at hi
  omega

/-- Which window a number is in. -/
theorem mem_window_iff_div (hsize : 0 < size) :
    i ∈ window total (p * size) size ↔ 1 ≤ i ∧ i ≤ total ∧ (total - i) / size = p := by
  rw [mem_window, Nat.div_eq_iff hsize]
  constructor
  · rintro ⟨hpos, hle, hlt⟩
    omega
  · rintro ⟨hpos, hle, hlow, hhigh⟩
    omega

/-- A number is in one window only. -/
theorem window_unique (hsize : 0 < size) (hp : i ∈ window total (p * size) size)
    (hq : i ∈ window total (q * size) size) : p = q := by
  rw [mem_window_iff_div hsize] at hp hq
  rw [← hp.2.2, hq.2.2]

/-- There is nothing between a window and the next one. -/
theorem mem_window_between (hj : j ∈ window total ((p + 1) * size) size)
    (hk : k ∈ window total (p * size) size) (hji : j ≤ i) (hik : i ≤ k) :
    i ∈ window total (p * size) size ∨ i ∈ window total ((p + 1) * size) size := by
  rw [Nat.succ_mul] at hj ⊢
  rw [mem_window] at hj hk ⊢
  rw [mem_window]
  omega

/-- How many numbers there are in a window. -/
theorem length_window : (window total offset limit).length = min limit (total - offset) := by
  rw [window, List.length_reverse, List.length_range']
  omega

/-- A window starts with its largest number. -/
theorem foldr_max_window (hlimit : 0 < limit) : (window total 0 limit).foldr max 0 = total := by
  apply Nat.le_antisymm
  · refine List.max_le_of_forall_le _ _ fun i hi => ?_
    rw [mem_window] at hi
    omega
  · rcases Nat.eq_zero_or_pos total with rfl | htotal
    · exact Nat.zero_le _
    · refine List.le_max_of_le (a := total) ?_ le_rfl
      rw [mem_window]
      omega

/-- Windows are told apart by where they start. -/
theorem window_inj (hlimit : 0 < limit) :
    window i 0 limit = window total offset limit ↔ i = total - offset := by
  have hshift : window total offset limit = window (total - offset) 0 limit := rfl
  rw [hshift]
  constructor
  · intro h
    have hfirst : (window i 0 limit).foldr max 0 = i := foldr_max_window hlimit
    rw [← hfirst, h, foldr_max_window hlimit]
  · rintro rfl
    rfl

/-! ### Putting the windows one after another -/

/-- A window is a piece of the list of all numbers, newest first. -/
theorem window_eq_take_drop :
    window total offset limit = ((List.range' 1 total).reverse.drop offset).take limit := by
  have hrange : ∀ lowIndex count, lowIndex = 1 + (total - offset - limit) →
      count = total - offset - (total - offset - limit) →
      List.range' lowIndex count =
        (List.range' 1 (total - offset)).drop (total - offset - limit) := by
    rintro _ _ rfl rfl
    rw [List.drop_range', Nat.mul_one]
  rw [List.drop_reverse, List.length_range', List.take_range'_of_length_ge (Nat.sub_le _ _),
    List.take_reverse, List.length_range', window, hrange] <;> omega

theorem flatMap_window (total size m : ℕ) :
    ((List.range m).flatMap fun p => window total (p * size) size) =
      (List.range' 1 total).reverse.take (m * size) := by
  induction m with
  | zero => rw [Nat.zero_mul, List.take_zero, List.range_zero, List.flatMap_nil]
  | succ m ih =>
    rw [List.range_succ, List.flatMap_append, ih, List.flatMap_singleton, window_eq_take_drop,
      ← List.take_add, Nat.succ_mul]

/-- A window is empty when it begins beyond the end. -/
theorem window_eq_nil_iff (hsize : 0 < size) : window total offset size = [] ↔ total ≤ offset := by
  refine ⟨fun hnil => ?_, window_eq_nil⟩
  by_contra hlt
  have hmem : total - offset ∈ window total offset size := by
    rw [mem_window]
    omega
  rw [hnil] at hmem
  cases hmem

end StellarForge.Collections
