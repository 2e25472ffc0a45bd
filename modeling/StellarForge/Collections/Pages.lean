import Mathlib.Data.List.Basic
import Mathlib.Tactic.Common

/-!
# A list cut into pages

`page size l p` is the `p`-th page of `l`: its elements at the positions `p * size`, …,
`p * size + size - 1`, and `none` past the end.  Appending an element touches one page, the one
that holds position `l.length`, and an element is found again at position `i % size` of page
`i / size`.
-/

namespace StellarForge.Collections

variable {α : Type*} {size p i : ℕ} {l : List α} {x : α}

/-- The `p`-th page of `l`, `none` where it would be empty. -/
def page (size : ℕ) (l : List α) (p : ℕ) : Option (List α) :=
  if p * size < l.length then some ((l.drop (p * size)).take size) else none

theorem page_nil : page size ([] : List α) p = none := by
  simp [page]

theorem getD_page : (page size l p).getD [] = (l.drop (p * size)).take size := by
  unfold page
  split_ifs with h
  · rfl
  · rw [List.drop_eq_nil_of_le (by omega), List.take_nil, Option.getD_none]

/-- An append extends the page of the new position. -/
theorem page_append_self (hsize : 0 < size) :
    page size (l ++ [x]) (l.length / size) =
      some ((page size l (l.length / size)).getD [] ++ [x]) := by
  have hle : l.length / size * size ≤ l.length := Nat.div_mul_le_self ..
  have hlt : l.length - l.length / size * size < size := by
    have := Nat.lt_div_mul_add (a := l.length) hsize
    omega
  rw [getD_page, page, if_pos (by rw [List.length_append]; simp; omega),
    List.drop_append_of_le_length hle, List.take_of_length_le (by simp; omega),
    List.take_of_length_le (by simp; omega)]

/-- An append leaves the other pages alone. -/
theorem page_append_of_ne (hsize : 0 < size) (hp : p ≠ l.length / size) :
    page size (l ++ [x]) p = page size l p := by
  rcases Nat.lt_or_gt_of_ne hp with hlt | hgt
  · -- an earlier page is full already
    have hfull : p * size + size ≤ l.length := by
      have : (p + 1) * size ≤ l.length := Nat.mul_le_of_le_div _ _ _ hlt
      rwa [Nat.add_mul, Nat.one_mul] at this
    rw [page, page, if_pos (by simp; omega), if_pos (by omega),
      List.drop_append_of_le_length (by omega), List.take_append_of_le_length (by simp; omega)]
  · -- a later page is past the end, also after the append
    have hpast : l.length < p * size := (Nat.div_lt_iff_lt_mul hsize).mp hgt
    rw [page, page, if_neg (by simp; omega), if_neg (by omega)]

/-- The page and the position on it at which the `i`-th element is found. -/
theorem getElem?_page (hsize : 0 < size) :
    ((page size l (i / size)).getD [])[i % size]? = l[i]? := by
  rw [getD_page, List.getElem?_take_of_lt (Nat.mod_lt i hsize), List.getElem?_drop,
    Nat.mul_comm, Nat.div_add_mod]

theorem getElem?_page_mul_add {j : ℕ} (hj : j < size) :
    ((page size l p).getD [])[j]? = l[p * size + j]? := by
  rw [getD_page, List.getElem?_take_of_lt hj, List.getElem?_drop]

theorem getElem?_page_of_le {j : ℕ} (hj : size ≤ j) : ((page size l p).getD [])[j]? = none := by
  rw [getD_page, List.getElem?_eq_none_iff, List.length_take]
  exact Nat.le_trans (Nat.min_le_left ..) hj

/-- The first `n` pages hold the first `n * size` elements. -/
theorem flatMap_page (n : ℕ) :
    (List.range n).flatMap (fun p => (page size l p).getD []) = l.take (n * size) := by
  induction n with
  | zero => simp
  | succ n ih =>
    rw [List.range_succ, List.flatMap_append, ih, List.flatMap_singleton, getD_page,
      Nat.add_mul, Nat.one_mul, List.take_add]

/-- What comes from a page on is on that page or on a later one. -/
theorem mem_drop_iff_page (hsize : 0 < size) :
    x ∈ l.drop (p * size) ↔ ∃ q, p ≤ q ∧ x ∈ (page size l q).getD [] := by
  constructor
  · intro hx
    obtain ⟨j, hj⟩ := List.getElem?_of_mem hx
    rw [List.getElem?_drop] at hj
    refine ⟨(p * size + j) / size, ?_, ?_⟩
    · exact (Nat.le_div_iff_mul_le hsize).mpr (Nat.le_add_right ..)
    · rw [← getElem?_page hsize] at hj
      exact List.mem_of_getElem? hj
  · rintro ⟨q, hle, hx⟩
    rw [getD_page] at hx
    exact List.drop_subset_drop_left l (Nat.mul_le_mul_right size hle) (List.take_subset _ _ hx)

/-! ### Writing a list out page by page

With `n` elements taken, the pages before page `n / size` are full, and the elements of that page are
at hand.
-/

/-- There is no page after the one where the next element goes. -/
theorem page_of_lt (hsize : 0 < size) (hp : l.length / size < p) : page size l p = none := by
  rw [page, if_neg]
  exact Nat.not_lt.mpr (Nat.le_of_lt ((Nat.div_lt_iff_lt_mul hsize).mp hp))

theorem getD_page_eq_nil (hsize : 0 < size) (h : (page size l p).getD [] = []) :
    page size l p = none := by
  rw [getD_page, List.take_eq_nil_iff, List.drop_eq_nil_iff] at h
  rw [page, if_neg (Nat.not_lt.mpr (h.resolve_left (Nat.ne_of_gt hsize)))]

theorem length_page_le {bucket : List α} (h : page size l p = some bucket) :
    bucket.length ≤ size := by
  unfold page at h
  split_ifs at h
  rw [← Option.some.inj h, List.length_take]
  exact Nat.min_le_left ..

/-- The page where the next element goes is not full. -/
theorem length_page_self_lt (hsize : 0 < size) :
    ((page size l (l.length / size)).getD []).length < size := by
  have := Nat.lt_div_mul_add (a := l.length) hsize
  rw [getD_page, List.length_take, List.length_drop]
  omega

theorem page_isSome_of_lt (size : ℕ) (hi : i < l.length) :
    ∃ bucket, page size l (i / size) = some bucket := by
  refine ⟨_, if_pos ?_⟩
  exact Nat.lt_of_le_of_lt (Nat.div_mul_le_self ..) hi

/-- The pages after an append, each of them. -/
theorem page_append (hsize : 0 < size) :
    page size (l ++ [x]) p =
      if p = l.length / size then some ((page size l p).getD [] ++ [x]) else page size l p := by
  split_ifs with hp
  · rw [hp]
    exact page_append_self hsize
  · exact page_append_of_ne hsize hp

end StellarForge.Collections
