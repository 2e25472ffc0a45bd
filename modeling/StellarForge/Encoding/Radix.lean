import Mathlib.Algebra.Order.Ring.Nat
import Mathlib.Data.List.Induction
import Mathlib.Tactic.Positivity
import Mathlib.Tactic.Ring

/-!
# Digits of a number in a base

`value b ds` is the number with the digits `ds`, the most significant first, and `digits b len n` the
last `len` digits of `n`.

* `digits_value`, `value_digits`: the two are inverse to each other;
* `digits_mul`: the digits in a power of the base;
* `Regrouped`: what a decoder that reads digits of one width and writes digits of another has got to,
  and `Regrouped.read`, `Regrouped.write` its two steps.
-/

namespace StellarForge.Encoding

variable {b n len : ℕ} {ds es : List ℕ}

/-- The number with the given digits. -/
def value (b : ℕ) (ds : List ℕ) : ℕ := ds.foldl (fun n d => b * n + d) 0

/-- The last `len` digits. -/
def digits (b : ℕ) : (len n : ℕ) → List ℕ
  | 0, _ => []
  | len + 1, n => digits b len (n / b) ++ [n % b]

@[simp] theorem value_nil : value b [] = 0 := rfl

@[simp] theorem value_concat (ds : List ℕ) (d : ℕ) : value b (ds ++ [d]) = b * value b ds + d := by
  rw [value, List.foldl_append]
  rfl

theorem value_append (ds es : List ℕ) :
    value b (ds ++ es) = value b ds * b ^ es.length + value b es := by
  induction es using List.reverseRecOn with
  | nil => simp
  | append_singleton es e ih =>
    rw [← List.append_assoc, value_concat, ih, value_concat, List.length_append,
      List.length_singleton, pow_succ]
    ring

/-- So many digits make a number below that power. -/
theorem value_lt (h : ∀ d ∈ ds, d < b) : value b ds < b ^ ds.length := by
  induction ds using List.reverseRecOn with
  | nil => simp
  | append_singleton ds d ih =>
    have hds : value b ds < b ^ ds.length := ih fun e he => h e (List.mem_append_left _ he)
    have hd : d < b := h d (by simp)
    rw [value_concat, List.length_append, List.length_singleton, pow_succ]
    calc b * value b ds + d < b * value b ds + b := by omega
      _ = b * (value b ds + 1) := by ring
      _ ≤ b * b ^ ds.length := Nat.mul_le_mul_left b hds
      _ = b ^ ds.length * b := Nat.mul_comm ..

@[simp] theorem length_digits : (digits b len n).length = len := by
  induction len generalizing n with
  | zero => rfl
  | succ len ih => rw [digits, List.length_append, ih, List.length_singleton]

/-- A digit is below the base. -/
theorem lt_of_mem_digits (hb : 0 < b) {d : ℕ} (hd : d ∈ digits b len n) : d < b := by
  induction len generalizing n with
  | zero => cases hd
  | succ len ih =>
    rw [digits, List.mem_append, List.mem_singleton] at hd
    rcases hd with hd | rfl
    · exact ih hd
    · exact Nat.mod_lt n hb

/-- The digits of a number have its value. -/
theorem value_digits (h : n < b ^ len) : value b (digits b len n) = n := by
  induction len generalizing n with
  | zero =>
    rw [pow_zero] at h
    exact (Nat.lt_one_iff.mp h).symm
  | succ len ih =>
    have hdiv : n / b < b ^ len := Nat.div_lt_of_lt_mul (by rwa [pow_succ'] at h)
    rw [digits, value_concat, ih hdiv]
    exact Nat.div_add_mod n b

/-- The leading digits and the others. -/
theorem digits_add (m k : ℕ) : digits b (m + k) n = digits b m (n / b ^ k) ++ digits b k n := by
  induction k generalizing n with
  | zero => rw [pow_zero, Nat.div_one, Nat.add_zero, digits, List.append_nil]
  | succ k ih =>
    rw [← Nat.add_assoc, digits, ih, digits, List.append_assoc, Nat.div_div_eq_div_mul, pow_succ']

theorem digits_mod (k : ℕ) : digits b k (n % b ^ k) = digits b k n := by
  induction k generalizing n with
  | zero => rfl
  | succ k ih =>
    rw [digits, digits, pow_succ', Nat.mod_mul_right_div_self, ih, Nat.mod_mul_right_mod]

/-- A digit in the base `b ^ k` makes `k` digits. -/
theorem digits_mul (len k : ℕ) :
    digits b (k * len) n = (digits (b ^ k) len n).flatMap (digits b k) := by
  induction len generalizing n with
  | zero => rfl
  | succ len ih =>
    rw [Nat.mul_succ, digits_add, ih, digits, List.flatMap_append, List.flatMap_singleton, digits_mod]

/-- The number of some digits has them. -/
theorem digits_value (h : ∀ d ∈ ds, d < b) : digits b ds.length (value b ds) = ds := by
  induction ds using List.reverseRecOn with
  | nil => rfl
  | append_singleton ds d ih =>
    have hd : d < b := h d (by simp)
    have hdiv : (b * value b ds + d) / b = value b ds := by
      rw [Nat.mul_add_div (Nat.zero_lt_of_lt hd), Nat.div_eq_of_lt hd, Nat.add_zero]
    have hmod : (b * value b ds + d) % b = d := by
      rw [Nat.mul_add_mod, Nat.mod_eq_of_lt hd]
    rw [List.length_append, List.length_singleton, digits, value_concat, hdiv, hmod,
      ih fun e he => h e (List.mem_append_left _ he)]

/-- Of numbers with so many digits the first digit is what is left after the others. -/
theorem head?_digits (h : n < b ^ (len + 1)) :
    (digits b (len + 1) n).head? = some (n / b ^ len) := by
  induction len generalizing n with
  | zero =>
    rw [zero_add, pow_one] at h
    show some (n % b) = some (n / b ^ 0)
    rw [pow_zero, Nat.div_one, Nat.mod_eq_of_lt h]
  | succ len ih =>
    have hdiv : n / b < b ^ (len + 1) := Nat.div_lt_of_lt_mul (by rwa [pow_succ'] at h)
    rw [digits, List.head?_append, ih hdiv, Option.some_or, Nat.div_div_eq_div_mul, ← pow_succ']

/-! ### Regrouping

The digits that have been read have the same bits as the ones that have been written, and some bits that
are pending. -/

/-- From the digits `read` of width `r` the digits `written` of width `w` have been made, and `bits` bits
are left, with the value `pending`. -/
structure Regrouped (r w : ℕ) (read written : List ℕ) (bits pending : ℕ) : Prop where
  length : r * read.length = w * written.length + bits
  value : value (2 ^ r) read = value (2 ^ w) written * 2 ^ bits + pending
  pending_lt : pending < 2 ^ bits
  written_lt : ∀ d ∈ written, d < 2 ^ w

namespace Regrouped

variable {r w bits pending d : ℕ}

theorem nil : Regrouped r w [] [] 0 0 := ⟨by simp, by simp, by simp, by simp⟩

/-- One more digit is read. -/
theorem read (h : Regrouped r w ds es bits pending) (hd : d < 2 ^ r) :
    Regrouped r w (ds ++ [d]) es (bits + r) (pending * 2 ^ r + d) where
  length := by
    rw [List.length_append, List.length_singleton, Nat.mul_add, h.length]
    ring
  value := by
    rw [value_concat, h.value, pow_add]
    ring
  pending_lt := by
    have hle : pending + 1 ≤ 2 ^ bits := h.pending_lt
    calc pending * 2 ^ r + d < pending * 2 ^ r + 2 ^ r := by omega
      _ = (pending + 1) * 2 ^ r := by ring
      _ ≤ 2 ^ bits * 2 ^ r := Nat.mul_le_mul_right _ hle
      _ = 2 ^ (bits + r) := (pow_add ..).symm
  written_lt := h.written_lt

/-- The first of the pending bits are written as one digit. -/
theorem write (h : Regrouped r w ds es bits pending) (hbits : w ≤ bits) :
    Regrouped r w ds (es ++ [pending / 2 ^ (bits - w)]) (bits - w)
      (pending % 2 ^ (bits - w)) where
  length := by
    have hlength := h.length
    rw [List.length_append, List.length_singleton, Nat.mul_add]
    omega
  value := by
    have hsplit : 2 ^ bits = 2 ^ w * 2 ^ (bits - w) := by
      rw [← pow_add, Nat.add_sub_cancel' hbits]
    -- the upper `w` bits are written, the rest stays pending
    have hpending : pending = 2 ^ (bits - w) * (pending / 2 ^ (bits - w)) +
        pending % 2 ^ (bits - w) := (Nat.div_add_mod ..).symm
    rw [value_concat, h.value, hsplit]
    nth_rewrite 1 [hpending]
    ring
  pending_lt := Nat.mod_lt _ (by positivity)
  written_lt := by
    intro d hd
    rcases List.mem_append.mp hd with hd | hd
    · exact h.written_lt d hd
    · rw [List.mem_singleton.mp hd]
      apply Nat.div_lt_of_lt_mul
      rw [← pow_add, Nat.sub_add_cancel hbits]
      exact h.pending_lt

end Regrouped

end StellarForge.Encoding
