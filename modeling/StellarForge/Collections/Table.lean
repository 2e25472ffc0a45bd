import StellarForge.Collections.Keyed

/-!
# Tables with a unique column

`Table key unique` is a sequence of records no two of which have the same `key` or the same `unique`
column.  `Table.put` is `INSERT … ON CONFLICT (key) DO UPDATE`: it fails where another record has the
unique column of the new one.
-/

namespace StellarForge.Collections

/-- Records with a primary key and a unique column. -/
structure Table {α κ ι : Type*} (key : α → κ) (unique : α → ι) extends Keyed key where
  distinct : (records.map unique).Nodup

namespace Table

variable {α κ ι : Type*} {key : α → κ} {unique : α → ι} {t : Table key unique} {x y : α}

/-- The table without records. -/
def empty : Table key unique := ⟨.empty, List.nodup_nil⟩

/-- Different records have different unique columns. -/
theorem eq_of_unique_eq (hx : x ∈ t.records) (hy : y ∈ t.records) (h : unique x = unique y) :
    x = y :=
  List.inj_on_of_nodup_map t.distinct hx hy h

variable [DecidableEq κ] [DecidableEq ι]

/-- No record with another key has the unique column of `x`. -/
def Free (t : Keyed key) (unique : α → ι) (x : α) : Prop :=
  ∀ y ∈ t.records, unique y = unique x → key y = key x

instance {t : Keyed key} : Decidable (Free t unique x) :=
  inferInstanceAs (Decidable (∀ _ ∈ t.records, _ → _))

/-- Replace the record that has the key of `x`, or add `x`, unless that breaks the unique column. -/
def put (t : Table key unique) (x : α) : Option (Table key unique) :=
  if h : Free t.toKeyed unique x then
    some
      { toKeyed := t.toKeyed.set x
        distinct := by
          refine List.Nodup.map_on (fun y hy z hz hyz => ?_) (List.Nodup.of_map _ (t.set x).nodup)
          rcases Keyed.mem_set.mp hy with hyx | ⟨hyt, hyx⟩
          · rcases Keyed.mem_set.mp hz with hzx | ⟨hzt, hzx⟩
            · rw [hyx, hzx]
            · rw [hyx] at hyz
              exact absurd (h z hzt hyz.symm) hzx
          · rcases Keyed.mem_set.mp hz with hzx | ⟨hzt, hzx⟩
            · rw [hzx] at hyz
              exact absurd (h y hyt hyz) hyx
            · exact t.eq_of_unique_eq hyt hzt hyz }
  else none

/-- `put` sets the record, or fails. -/
theorem put_eq_some {t' : Table key unique} :
    t.put x = some t' ↔ Free t.toKeyed unique x ∧ t'.toKeyed = t.toKeyed.set x := by
  rw [put]
  split_ifs with h
  · rw [Option.some.injEq]
    constructor
    · rintro rfl
      exact ⟨h, rfl⟩
    · rintro ⟨-, heq⟩
      cases t'
      subst heq
      rfl
  · simp [h]

theorem put_eq_none : t.put x = none ↔ ¬ Free t.toKeyed unique x := by
  rw [put]
  split_ifs with h <;> simp [h]

end Table

end StellarForge.Collections
