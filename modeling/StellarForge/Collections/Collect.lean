import Mathlib.Data.List.Basic
import Mathlib.Tactic.Common

/-!
# Collecting pages up to one that stops

`collect stops items pages` takes the items of the pages one after the other, and ends with the first
page that `stops`.  It misses nothing if and only if no page that stops has items after it
(`collect_eq_iff`).
-/

namespace StellarForge.Collections

variable {β γ : Type*} {stops : β → Bool} {items : β → List γ} {pages pages' : List β} {p : β}

/-- The items of the pages up to the first that stops. -/
def collect (stops : β → Bool) (items : β → List γ) : List β → List γ
  | [] => []
  | p :: rest => items p ++ if stops p then [] else collect stops items rest

/-- After a page that stops there are no more items. -/
def Uninterrupted (stops : β → Bool) (items : β → List γ) (pages : List β) : Prop :=
  ∀ earlier p later, pages = earlier ++ p :: later → stops p = true → later.flatMap items = []

theorem collect_cons_of_stops (h : stops p = true) :
    collect stops items (p :: pages) = items p := by
  rw [collect, if_pos h, List.append_nil]

theorem collect_cons_of_not_stops (h : stops p = false) :
    collect stops items (p :: pages) = items p ++ collect stops items pages := by
  rw [collect, h, if_neg Bool.false_ne_true]

/-- With two runs of pages the second counts if no page of the first stops. -/
theorem collect_append : collect stops items (pages ++ pages') =
    collect stops items pages ++ if pages.any stops then [] else collect stops items pages' := by
  induction pages with
  | nil => rfl
  | cons p pages ih =>
    rw [List.cons_append, List.any_cons]
    cases hp : stops p with
    | true =>
      rw [collect_cons_of_stops hp, collect_cons_of_stops hp, Bool.true_or, if_pos rfl,
        List.append_nil]
    | false =>
      rw [collect_cons_of_not_stops hp, collect_cons_of_not_stops hp, ih, Bool.false_or,
        List.append_assoc]

/-- What is collected is where the items begin. -/
theorem collect_prefix : collect stops items pages <+: pages.flatMap items := by
  induction pages with
  | nil => exact List.nil_prefix
  | cons p pages ih =>
    rw [List.flatMap_cons]
    cases hp : stops p with
    | true =>
      rw [collect_cons_of_stops hp]
      exact List.prefix_append ..
    | false =>
      rw [collect_cons_of_not_stops hp]
      exact (List.prefix_append_right_inj _).mpr ih

/-- A walk is uninterrupted when nothing follows the page that ends it. -/
theorem uninterrupted_cons : Uninterrupted stops items (p :: pages) ↔
    (stops p = true → pages.flatMap items = []) ∧ Uninterrupted stops items pages := by
  constructor
  · intro h
    refine ⟨h [] p pages rfl, fun earlier q later hpages => ?_⟩
    exact h (p :: earlier) q later (by rw [hpages]; rfl)
  · rintro ⟨hp, h⟩ earlier q later hpages hq
    cases earlier with
    | nil =>
      obtain ⟨rfl, rfl⟩ := List.cons.inj hpages
      exact hp hq
    | cons e earlier =>
      obtain ⟨-, hpages⟩ := List.cons.inj hpages
      exact h earlier q later hpages hq

/-- Nothing is missed if and only if no page that stops has items after it. -/
theorem collect_eq_iff :
    collect stops items pages = pages.flatMap items ↔ Uninterrupted stops items pages := by
  induction pages with
  | nil =>
    refine iff_of_true rfl ?_
    intro earlier p later hpages
    exact absurd hpages.symm (by simp)
  | cons p pages ih =>
    rw [uninterrupted_cons, List.flatMap_cons]
    cases hp : stops p with
    -- the page ends the walk, so that nothing of the later ones is collected
    | true =>
      rw [collect_cons_of_stops hp, List.self_eq_append_right]
      constructor
      · intro hnil
        refine ⟨fun _ => hnil, fun earlier q later hpages _ => ?_⟩
        rw [hpages, List.flatMap_append, List.flatMap_cons] at hnil
        exact (List.append_eq_nil_iff.mp (List.append_eq_nil_iff.mp hnil).2).2
      · intro h
        exact h.1 rfl
    | false =>
      rw [collect_cons_of_not_stops hp, List.append_right_inj, ih]
      constructor
      · intro h
        exact ⟨fun hfalse => absurd hfalse (by decide), h⟩
      · intro h
        exact h.2

/-- For numbered pages: after one that stops, none has items. -/
theorem uninterrupted_map_range {n : ℕ} {f : ℕ → β} :
    Uninterrupted stops items ((List.range n).map f) ↔
      ∀ p < n, stops (f p) = true → ∀ q < n, p < q → items (f q) = [] := by
  induction n generalizing f with
  | zero =>
    refine iff_of_true ?_ (fun p hp => absurd hp (Nat.not_lt_zero p))
    intro earlier p later hpages
    exact absurd hpages.symm (by simp)
  | succ n ih =>
    have hrange : (List.range (n + 1)).map f = f 0 :: (List.range n).map (fun p => f (p + 1)) := by
      rw [List.range_succ_eq_map, List.map_cons, List.map_map]
      rfl
    -- the first page against all later ones, and the later ones among themselves
    rw [hrange, uninterrupted_cons, ih, List.flatMap_map, List.flatMap_eq_nil_iff]
    constructor
    · rintro ⟨hfirst, hrest⟩ p hp hstops q hq hlt
      obtain ⟨q, rfl⟩ := Nat.exists_eq_succ_of_ne_zero (Nat.ne_zero_of_lt hlt)
      rcases Nat.eq_zero_or_pos p with rfl | hpos
      · exact hfirst hstops q (List.mem_range.mpr (Nat.lt_of_succ_lt_succ hq))
      · obtain ⟨p, rfl⟩ := Nat.exists_eq_succ_of_ne_zero (Nat.ne_of_gt hpos)
        apply hrest p (Nat.lt_of_succ_lt_succ hp) hstops q (Nat.lt_of_succ_lt_succ hq)
        exact Nat.lt_of_succ_lt_succ hlt
    · intro h
      refine ⟨fun hstops q hq => ?_, fun p hp hstops q hq hlt => ?_⟩
      · apply h 0 (Nat.succ_pos n) hstops
        · exact Nat.succ_lt_succ (List.mem_range.mp hq)
        · exact Nat.succ_pos q
      · exact h (p + 1) (Nat.succ_lt_succ hp) hstops (q + 1) (Nat.succ_lt_succ hq)
          (Nat.succ_lt_succ hlt)

/-- The same up to the order of the items. -/
theorem collect_perm_iff :
    (collect stops items pages).Perm (pages.flatMap items) ↔ Uninterrupted stops items pages := by
  rw [← collect_eq_iff]
  constructor
  · intro h
    exact collect_prefix.eq_of_length h.length_eq
  · intro h
    rw [h]

end StellarForge.Collections
