import Mathlib.Data.List.Pairwise
import Mathlib.Data.List.Basic
import Mathlib.Tactic.Common

/-!
# What a stable sort leaves

* `filter_mergeSort`: elements that are not told apart keep their order;
* `mergeSort_eq_of_perm`: sorting undoes a permutation of a list that is strictly increasing;
* `getLast?_filter_mergeSort`: the last of the sorted elements that satisfy `p` is the last one, in the
  original order, of those with the greatest key.
-/

namespace StellarForge.Collections

variable {α : Type*} {le : α → α → Bool} {l sorted : List α} {key : α → ℕ} {p : α → Bool} {n : ℕ}

/-- A strictly ordered permutation is what the sort returns. -/
theorem mergeSort_eq_of_perm (trans : ∀ a b c, le a b = true → le b c = true → le a c = true)
    (total : ∀ a b, (le a b || le b a) = true) (hperm : l.Perm sorted)
    (hstrict : sorted.Pairwise fun a b => le a b = true ∧ le b a = false) :
    l.mergeSort le = sorted := by
  have hsorted : (l.mergeSort le).Perm sorted := (List.mergeSort_perm l le).trans hperm
  -- no two elements are behind each other
  have hanti : sorted.Pairwise fun a b => ¬ (le a b = true ∧ le b a = true) := by
    refine hstrict.imp ?_
    rintro a b ⟨-, hba⟩ ⟨-, hba'⟩
    rw [hba] at hba'
    cases hba'
  have : Std.Symm fun a b => ¬ (le a b = true ∧ le b a = true) :=
    ⟨fun _ _ h h' => h ⟨h'.2, h'.1⟩⟩
  have hsame : ∀ a b, a ∈ l.mergeSort le → b ∈ sorted → le a b = true → le b a = true → a = b := by
    intro a b ha hb hab hba
    by_contra hne
    exact hanti.forall (hsorted.mem_iff.mp ha) hb hne ⟨hab, hba⟩
  have hsort : (l.mergeSort le).Pairwise fun a b => le a b = true :=
    List.pairwise_mergeSort trans total l
  exact hsorted.eq_of_pairwise hsame hsort (hstrict.imp fun h => h.1)

/-- Elements that compare equal keep their order. -/
theorem filter_mergeSort (trans : ∀ a b c, le a b = true → le b c = true → le a c = true)
    (total : ∀ a b, (le a b || le b a) = true)
    (hsame : ∀ a b, p a = true → p b = true → le a b = true) :
    (l.mergeSort le).filter p = l.filter p := by
  have hpairwise : (l.filter p).Pairwise fun a b => le a b = true := by
    apply List.pairwise_of_forall_mem_list
    intro a ha b hb
    exact hsame a b (List.mem_filter.mp ha).2 (List.mem_filter.mp hb).2
  have hsub := (List.sublist_mergeSort trans total hpairwise List.filter_sublist).filter p
  rw [List.filter_filter] at hsub
  simp only [Bool.and_self] at hsub
  exact (hsub.eq_of_length ((List.mergeSort_perm l le).filter p).length_eq.symm).symm

/-- The last one after a stable sort is the last one of those with the greatest key. -/
theorem getLast?_filter_mergeSort (hle : ∀ x ∈ l, p x = true → key x ≤ n)
    (hex : ∃ x ∈ l, p x = true ∧ key x = n) :
    ((l.mergeSort fun a b => key a ≤ key b).filter p).getLast? =
      (l.filter fun x => p x && key x == n).getLast? := by
  have trans (a b c : α) (hab : decide (key a ≤ key b) = true)
      (hbc : decide (key b ≤ key c) = true) : decide (key a ≤ key c) = true :=
    decide_eq_true (Nat.le_trans (of_decide_eq_true hab) (of_decide_eq_true hbc))
  have total (a b : α) : (decide (key a ≤ key b) || decide (key b ≤ key a)) = true := by
    rw [Bool.or_eq_true, decide_eq_true_eq, decide_eq_true_eq]
    exact Nat.le_total ..
  have hsorted := List.pairwise_mergeSort trans total l
  have hperm := List.mergeSort_perm l fun a b => decide (key a ≤ key b)
  -- the elements with the greatest key keep their order
  have hgreatest : (l.mergeSort fun a b => key a ≤ key b).filter (fun x => p x && key x == n) =
      l.filter fun x => p x && key x == n := by
    apply filter_mergeSort trans total
    intro a b ha hb
    rw [Bool.and_eq_true, beq_iff_eq] at ha hb
    exact decide_eq_true (Nat.le_of_eq (ha.2.trans hb.2.symm))
  generalize l.mergeSort (fun a b => decide (key a ≤ key b)) = s at hsorted hperm hgreatest ⊢
  have hfilter : (s.filter p).filter (fun x => key x == n) =
      s.filter fun x => p x && key x == n := by
    rw [List.filter_filter]
    congr 1
    funext x
    exact Bool.and_comm ..
  rw [← hgreatest, ← hfilter]
  obtain ⟨y, hy, hpy, hkey⟩ := hex
  rcases List.eq_nil_or_concat (s.filter p) with hnil | ⟨init, x, hlast⟩
  · have hmem : y ∈ s.filter p := List.mem_filter.mpr ⟨hperm.mem_iff.mpr hy, hpy⟩
    rw [hnil] at hmem
    cases hmem
  · have hx : x ∈ s.filter p := by simp [hlast]
    have hkeyx : key x = n := by
      apply Nat.le_antisymm
      · exact hle x (hperm.mem_iff.mp (List.mem_filter.mp hx).1) (List.mem_filter.mp hx).2
      · -- the element with that key is not behind the last one
        have hmem : y ∈ s.filter p := List.mem_filter.mpr ⟨hperm.mem_iff.mpr hy, hpy⟩
        have hpairwise := hsorted.filter p
        rw [hlast, List.concat_eq_append] at hpairwise hmem
        rcases List.mem_append.mp hmem with hmem | hmem
        · rw [← hkey]
          apply of_decide_eq_true
          exact (List.pairwise_append.mp hpairwise).2.2 y hmem x (List.mem_singleton.mpr rfl)
        · rw [← List.mem_singleton.mp hmem]
          exact Nat.le_of_eq hkey.symm
    have hself : [x].filter (fun x => key x == n) = [x] :=
      List.filter_cons_of_pos (beq_iff_eq.mpr hkeyx)
    rw [hlast, List.concat_eq_append, List.filter_append, hself, List.getLast?_concat,
      List.getLast?_concat]

end StellarForge.Collections
