import Mathlib.Logic.Function.Basic
import Mathlib.Tactic.Common

/-!
# A store whose entries expire

A key–value store with a type of values for each key.  A write replaces the entry and its expiry; an
entry is there up to and including its expiry.
-/

namespace StellarForge.Collections

universe u v

/-- A value, and the last time at which it is there. -/
structure Entry (α : Type u) where
  value : α
  expiresAt : Option ℕ
  deriving DecidableEq, Repr

/-- The entry has not expired. -/
def Entry.Live {α : Type u} (e : Entry α) (t : ℕ) : Prop := ∀ d ∈ e.expiresAt, t ≤ d

instance {α : Type u} {e : Entry α} {t : ℕ} : Decidable (e.Live t) :=
  inferInstanceAs (Decidable (∀ d ∈ e.expiresAt, t ≤ d))

/-- Keys `κ`, and the values `V k` of a key. -/
structure Expiring (κ : Type u) (V : κ → Type v) where
  entry : ∀ k, Option (Entry (V k))

namespace Expiring

variable {κ : Type u} {V : κ → Type v} {s : Expiring κ V} {k k' : κ} {t t' : ℕ}

/-- The store without entries. -/
def empty : Expiring κ V := ⟨fun _ => none⟩

/-- The value of a key at the time `t`. -/
def get (s : Expiring κ V) (t : ℕ) (k : κ) : Option (V k) :=
  (s.entry k).bind fun e => if e.Live t then some e.value else none

section

variable [DecidableEq κ]

/-- A write at the time `t`, for the lifetime `ttl`. -/
def set (s : Expiring κ V) (t : ℕ) (k : κ) (v : V k) (ttl : Option ℕ) : Expiring κ V :=
  ⟨Function.update s.entry k (some ⟨v, ttl.map (t + ·)⟩)⟩

/-- The entry of a key is removed. -/
def del (s : Expiring κ V) (k : κ) : Expiring κ V := ⟨Function.update s.entry k none⟩

end

@[simp] theorem get_empty : (empty : Expiring κ V).get t k = none := rfl

theorem get_eq_some {v : V k} : s.get t k = some v ↔ ∃ e ∈ s.entry k, e.Live t ∧ e.value = v := by
  rw [get, Option.bind_eq_some_iff]
  simp only [Option.ite_none_right_eq_some, Option.some.injEq, Option.mem_def]

variable [DecidableEq κ] {v : V k} {ttl : Option ℕ}

theorem entry_set_self : (s.set t k v ttl).entry k = some ⟨v, ttl.map (t + ·)⟩ :=
  Function.update_self ..

theorem entry_set_ne (hk : k' ≠ k) : (s.set t k v ttl).entry k' = s.entry k' :=
  Function.update_of_ne hk ..

theorem entry_del_self : (s.del k).entry k = none := Function.update_self ..

theorem entry_del_ne (hk : k' ≠ k) : (s.del k).entry k' = s.entry k' := Function.update_of_ne hk ..

theorem get_set_self :
    (s.set t k v ttl).get t' k = if ∀ d ∈ ttl, t' ≤ t + d then some v else none := by
  have hlive : (Entry.mk v (ttl.map (t + ·))).Live t' ↔ ∀ d ∈ ttl, t' ≤ t + d := by
    cases ttl <;> simp [Entry.Live]
  rw [get, entry_set_self, Option.bind_some]
  simp only [hlive]

@[simp] theorem get_set_ne (hk : k' ≠ k) : (s.set t k v ttl).get t' k' = s.get t' k' := by
  rw [get, entry_set_ne hk, get]

@[simp] theorem get_del_self : (s.del k).get t k = none := by
  rw [get, entry_del_self, Option.bind_none]

@[simp] theorem get_del_ne (hk : k' ≠ k) : (s.del k).get t k' = s.get t k' := by
  rw [get, entry_del_ne hk, get]

end Expiring

end StellarForge.Collections
