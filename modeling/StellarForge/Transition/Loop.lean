import Mathlib.Order.Basic
import Mathlib.Data.Nat.Find

/-!
# Loops over a stream

A loop that reads one element of a stream for each round, and goes on in a new state or ends with a
result.  `endsAt_spec` is its rule: with an invariant that tells in each round which elements end the
loop, it ends at the first of them.
-/

namespace StellarForge.Transition

variable {σ ι β : Type} {body : σ → ι → σ ⊕ β} {s : ℕ → ι} {p q : σ} {i n : ℕ} {b : β}

/-- The loop after `n` rounds. -/
def rounds (body : σ → ι → σ ⊕ β) (s : ℕ → ι) (p : σ) : ℕ → σ ⊕ β
  | 0 => .inl p
  | n + 1 => (rounds body s p n).elim (fun q => body q (s n)) .inr

/-- The loop has a round number `n`. -/
def Enters (body : σ → ι → σ ⊕ β) (s : ℕ → ι) (p : σ) (n : ℕ) : Prop :=
  ∃ q, rounds body s p n = .inl q

/-- Its last round is number `i`, and the result is `b`. -/
def EndsAt (body : σ → ι → σ ⊕ β) (s : ℕ → ι) (p : σ) (i : ℕ) (b : β) : Prop :=
  Enters body s p i ∧ rounds body s p (i + 1) = .inr b

theorem rounds_succ_of_inl (h : rounds body s p n = .inl q) :
    rounds body s p (n + 1) = body q (s n) := by
  rw [rounds, h]
  rfl

theorem rounds_succ_of_inr (h : rounds body s p n = .inr b) : rounds body s p (n + 1) = .inr b := by
  rw [rounds, h]
  rfl

/-- A result is final. -/
theorem rounds_of_inr (h : rounds body s p n = .inr b) {m : ℕ} (hle : n ≤ m) :
    rounds body s p m = .inr b := by
  induction hle with
  | refl => exact h
  | step _ ih => exact rounds_succ_of_inr ih

/-- A round is entered from the one before. -/
theorem Enters.mono (h : Enters body s p n) {m : ℕ} (hle : m ≤ n) : Enters body s p m := by
  cases hm : rounds body s p m with
  | inl q => exact ⟨q, hm⟩
  | inr b =>
    obtain ⟨q, hq⟩ := h
    rw [rounds_of_inr hm hle] at hq
    cases hq

theorem EndsAt.le (h : EndsAt body s p i b) (hn : Enters body s p n) : n ≤ i := by
  by_contra hlt
  obtain ⟨q, hq⟩ := hn.mono (by omega : i + 1 ≤ n)
  rw [h.2] at hq
  cases hq

/-- `Ends n b`: element number `n` ends the loop, with the result `b`.  An invariant that is right about
this makes the loop end at the first such element. -/
structure Decided (body : σ → ι → σ ⊕ β) (s : ℕ → ι) (p : σ) (inv : ℕ → σ → Prop)
    (Ends : ℕ → β → Prop) : Prop where
  initial : inv 0 p
  ends : ∀ n q b, inv n q → body q (s n) = .inr b → Ends n b
  goesOn : ∀ n q q', inv n q → body q (s n) = .inl q' → inv (n + 1) q' ∧ ∀ b, ¬ Ends n b

namespace Decided

variable {inv : ℕ → σ → Prop} {Ends : ℕ → β → Prop}

/-- In the rounds that have been entered the invariant holds, and no earlier element ends the loop. -/
theorem enters (h : Decided body s p inv Ends) (hn : rounds body s p n = .inl q) :
    inv n q ∧ ∀ j < n, ∀ b, ¬ Ends j b := by
  induction n generalizing q with
  | zero =>
    obtain rfl := Sum.inl.inj hn
    exact ⟨h.initial, fun j hj => absurd hj (Nat.not_lt_zero j)⟩
  | succ n ih =>
    cases hprev : rounds body s p n with
    | inr b =>
      rw [rounds_succ_of_inr hprev] at hn
      cases hn
    | inl q₀ =>
      obtain ⟨hinv, hnone⟩ := ih hprev
      rw [rounds_succ_of_inl hprev] at hn
      obtain ⟨hinv', hlast⟩ := h.goesOn n q₀ q hinv hn
      refine ⟨hinv', fun j hj => ?_⟩
      rcases Nat.lt_succ_iff_lt_or_eq.mp hj with hj | rfl
      · exact hnone j hj
      · exact hlast

theorem endsAt (h : Decided body s p inv Ends) (hi : EndsAt body s p i b) :
    Ends i b ∧ ∀ j < i, ∀ b, ¬ Ends j b := by
  obtain ⟨⟨q, hq⟩, hlast⟩ := hi
  obtain ⟨hinv, hnone⟩ := h.enters hq
  rw [rounds_succ_of_inl hq] at hlast
  exact ⟨h.ends i q b hinv hlast, hnone⟩

/-- An element that ends the loop is not passed. -/
theorem exists_endsAt (h : Decided body s p inv Ends) (hb : Ends n b) :
    ∃ i ≤ n, ∃ b, EndsAt body s p i b := by
  classical
  have hnot : ¬ Enters body s p (n + 1) := by
    rintro ⟨q, hq⟩
    exact (h.enters hq).2 n (Nat.lt_succ_self n) b hb
  have hex : ∃ m, ¬ Enters body s p m := ⟨n + 1, hnot⟩
  -- the first round that is not entered
  have hfirst := Nat.find_spec hex
  cases hm : Nat.find hex with
  | zero =>
    rw [hm] at hfirst
    exact absurd ⟨p, rfl⟩ hfirst
  | succ i =>
    rw [hm] at hfirst
    have hle : i ≤ n := by
      have hmin := Nat.find_min' hex hnot
      omega
    have henters : Enters body s p i := by
      by_contra hi
      have hmin := Nat.find_min' hex hi
      omega
    refine ⟨i, hle, ?_⟩
    cases hlast : rounds body s p (i + 1) with
    | inl q => exact absurd ⟨q, hlast⟩ hfirst
    | inr b => exact ⟨b, henters, hlast⟩

end Decided

end StellarForge.Transition
