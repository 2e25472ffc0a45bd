import Mathlib.Computability.RegularExpressions

/-!
# Regular expressions over classes

The classes and repetitions of which the patterns of a program are made, as regular expressions of
Mathlib, and what they match.
-/

namespace StellarForge.Encoding

variable {α : Type*} {P : RegularExpression α} {units text : List α}

/-- `[…]`: any one of the units. -/
def oneOf (units : List α) : RegularExpression α :=
  units.foldr (fun u P => RegularExpression.char u + P) 0

/-- `P+` -/
def oneOrMore (P : RegularExpression α) : RegularExpression α := P * P.star

/-- A class matches the texts of one of its units. -/
theorem mem_oneOf : text ∈ (oneOf units).matches' ↔ ∃ u ∈ units, text = [u] := by
  induction units with
  | nil =>
    refine iff_of_false (Language.notMem_zero text) ?_
    rintro ⟨u, hu, -⟩
    cases hu
  | cons v units ih =>
    rw [oneOf, List.foldr_cons, RegularExpression.matches'_add, Language.mem_add,
      RegularExpression.matches'_char]
    simp only [List.mem_cons, exists_eq_or_imp]
    exact or_congr Iff.rfl ih

/-- A text over a class. -/
theorem mem_star_oneOf : text ∈ (oneOf units).star.matches' ↔ ∀ u ∈ text, u ∈ units := by
  rw [RegularExpression.matches'_star, Language.mem_kstar]
  constructor
  · rintro ⟨pieces, rfl, hpieces⟩ u hu
    obtain ⟨piece, hpiece, hu⟩ := List.mem_flatten.mp hu
    obtain ⟨v, hv, rfl⟩ := mem_oneOf.mp (hpieces piece hpiece)
    rw [List.mem_singleton.mp hu]
    exact hv
  · intro h
    refine ⟨text.map fun u => [u], ?_, ?_⟩
    · rw [← List.flatMap_def, List.flatMap_singleton']
    · intro piece hpiece
      obtain ⟨u, hu, rfl⟩ := List.mem_map.mp hpiece
      exact mem_oneOf.mpr ⟨u, h u hu, rfl⟩

/-- A text over a class that is not empty. -/
theorem mem_oneOrMore_oneOf :
    text ∈ (oneOrMore (oneOf units)).matches' ↔ text ≠ [] ∧ ∀ u ∈ text, u ∈ units := by
  rw [oneOrMore, RegularExpression.matches'_mul, Language.mem_mul]
  constructor
  · rintro ⟨head, hhead, tail, htail, rfl⟩
    obtain ⟨u, hu, rfl⟩ := mem_oneOf.mp hhead
    refine ⟨List.cons_ne_nil _ _, ?_⟩
    rw [List.singleton_append, List.forall_mem_cons]
    exact ⟨hu, mem_star_oneOf.mp htail⟩
  · rintro ⟨hnil, h⟩
    obtain ⟨u, tail, rfl⟩ := List.exists_cons_of_ne_nil hnil
    rw [List.forall_mem_cons] at h
    exact ⟨[u], mem_oneOf.mpr ⟨u, h.1, rfl⟩, tail, mem_star_oneOf.mpr h.2, rfl⟩

end StellarForge.Encoding
