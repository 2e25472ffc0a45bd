import Mathlib.Algebra.Order.Ring.Int
import Mathlib.Tactic.Common
import Mathlib.Tactic.NormNum

/-!
# Checked fixed-width arithmetic

The values of the Rust types `i128` and `u32` are integers and natural numbers; what is fixed-width
is the arithmetic.  A checked operation returns `none` when the exact result leaves the range of the
type, a saturating one returns the nearest value of the type.
-/

namespace StellarForge.Soroban

namespace I128

/-- `i128::MIN` -/
def MIN : ℤ := -2 ^ 127

/-- `i128::MAX` -/
def MAX : ℤ := 2 ^ 127 - 1

/-- The exact result when it fits `i128`. -/
def checked (x : ℤ) : Option ℤ := if MIN ≤ x ∧ x ≤ MAX then some x else none

/-- `checked_add` of `i128` -/
def checkedAdd (a b : ℤ) : Option ℤ := checked (a + b)

/-- `checked_sub` of `i128` -/
def checkedSub (a b : ℤ) : Option ℤ := checked (a - b)

/-- `checked_mul` of `i128` -/
def checkedMul (a b : ℤ) : Option ℤ := checked (a * b)

/-- `saturating_add` of `i128` -/
def saturatingAdd (a b : ℤ) : ℤ := max MIN (min (a + b) MAX)

/-- `saturating_sub` of `i128` -/
def saturatingSub (a b : ℤ) : ℤ := max MIN (min (a - b) MAX)

theorem MIN_lt_zero : MIN < 0 := by norm_num [MIN]

@[simp] theorem checked_eq_some {x y : ℤ} : checked x = some y ↔ x = y ∧ MIN ≤ y ∧ y ≤ MAX := by
  unfold checked
  split_ifs with h
  · simp only [Option.some.injEq]
    constructor
    · rintro rfl
      exact ⟨rfl, h⟩
    · exact fun h' => h'.1
  · simp only [false_iff]
    rintro ⟨rfl, h'⟩
    exact h h'

@[simp] theorem checked_eq_none {x : ℤ} : checked x = none ↔ x < MIN ∨ MAX < x := by
  unfold checked
  split_ifs with h <;> simp <;> omega

theorem saturatingAdd_eq {a b : ℤ} (h₁ : MIN ≤ a + b) (h₂ : a + b ≤ MAX) :
    saturatingAdd a b = a + b := by
  rw [saturatingAdd, min_eq_left h₂, max_eq_right h₁]

theorem saturatingSub_eq {a b : ℤ} (h₁ : MIN ≤ a - b) (h₂ : a - b ≤ MAX) :
    saturatingSub a b = a - b := by
  rw [saturatingSub, min_eq_left h₂, max_eq_right h₁]

end I128

namespace U32

/-- `u32::MAX` -/
def MAX : ℕ := 2 ^ 32 - 1

/-- `checked_add` of `u32` -/
def checkedAdd (a b : ℕ) : Option ℕ := if a + b ≤ MAX then some (a + b) else none

/-- `checked_sub` of `u32` -/
def checkedSub (a b : ℕ) : Option ℕ := if b ≤ a then some (a - b) else none

/-- `saturating_add` of `u32` -/
def saturatingAdd (a b : ℕ) : ℕ := min (a + b) MAX

@[simp] theorem checkedAdd_eq_some {a b c : ℕ} :
    checkedAdd a b = some c ↔ a + b = c ∧ c ≤ MAX := by
  unfold checkedAdd
  split_ifs with h
  · simp only [Option.some.injEq]
    omega
  · simp only [false_iff]
    omega

@[simp] theorem checkedAdd_eq_none {a b : ℕ} : checkedAdd a b = none ↔ MAX < a + b := by
  unfold checkedAdd
  split_ifs with h <;> simp <;> omega

@[simp] theorem checkedSub_eq_some {a b c : ℕ} :
    checkedSub a b = some c ↔ b ≤ a ∧ a - b = c := by
  unfold checkedSub
  split_ifs with h <;> simp [h]

end U32

end StellarForge.Soroban
