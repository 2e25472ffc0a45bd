import Mathlib.Data.Nat.Basic
import StellarForge.Soroban.Frame

/-!
# Calls that reject

A program that makes its calls one after another, and an environment that decides by their numbers
which of them reject.  A program without a handler ends with the first call that rejects:
`Sequential` says so, and it follows from the structure of the program.  `resolves_guarded_iff` is
the rule for a program with a handler that makes one call itself.
-/

namespace StellarForge.Concurrency

open Soroban Contract

universe u

variable {ε σ ρ : Type} {α β : Type u}

/-- What the calls are answered, and which of them reject. -/
structure Unreliable (ε ρ : Type) where
  answers : ε
  rejects : ℕ → Option ρ

/-- The same answers, and no rejections. -/
def Unreliable.reliable (env : Unreliable ε ρ) : Unreliable ε ρ where
  answers := env.answers
  rejects := fun _ => none

/-- A state, and the number of calls that led to it. -/
structure Counted (σ : Type) where
  calls : ℕ
  state : σ

/-- A program whose calls can reject. -/
abbrev Calling (ε σ ρ : Type) := Contract (Unreliable ε ρ) (Counted σ) ρ

/-- One call: its answer and its effect, and what is left of the effect when it rejects. -/
def call (effect : ε → ℕ → σ → α × σ) (rejected : ρ → σ → σ) : Calling ε σ ρ α := fun env s =>
  match env.rejects s.calls with
  | none =>
    some (.ok (effect env.answers s.calls s.state).1,
      ⟨s.calls + 1, (effect env.answers s.calls s.state).2⟩)
  | some r => some (.error r, ⟨s.calls + 1, rejected r s.state⟩)

/-- A step of the program itself. -/
def update (f : σ → σ) : Calling ε σ ρ Unit :=
  modifyWorld fun _ s => ⟨s.calls, f s.state⟩

/-- The state as the program sees it. -/
def look (f : σ → α) : Calling ε σ ρ α := fun _ s => some (.ok (f s.state), s)

/-- `try … catch` -/
def guarded (body : Calling ε σ ρ α) (handler : ρ → Calling ε σ ρ α) : Calling ε σ ρ α := do
  match ← body.attempt with
  | .ok a => pure a
  | .error r => handler r

/-- How many calls have been made when the undisturbed program ends. -/
def callsMade (x : Calling ε σ ρ α) (env : Unreliable ε ρ) (s : Counted σ) : ℕ :=
  match x env.reliable s with
  | some (_, s') => s'.calls
  | none => s.calls

/-- Call number `k` is the first from number `n` on that rejects. -/
structure FirstRejects (env : Unreliable ε ρ) (n k : ℕ) (r : ρ) : Prop where
  le : n ≤ k
  before : ∀ j, n ≤ j → j < k → env.rejects j = none
  rejects : env.rejects k = some r

variable {env : Unreliable ε ρ} {s s' : Counted σ} {n k m : ℕ} {r : ρ}

theorem returns_call {effect : ε → ℕ → σ → α × σ} {rejected : ρ → σ → σ} {a : α} :
    (call effect rejected : Calling ε σ ρ α).Returns env s a s' ↔ env.rejects s.calls = none ∧
      (effect env.answers s.calls s.state).1 = a ∧
        ⟨s.calls + 1, (effect env.answers s.calls s.state).2⟩ = s' := by
  cases hrejects : env.rejects s.calls <;> simp [Returns, call, hrejects]

theorem throws_call {effect : ε → ℕ → σ → α × σ} {rejected : ρ → σ → σ} :
    (call effect rejected : Calling ε σ ρ α).Throws env s r s' ↔ env.rejects s.calls = some r ∧
      ⟨s.calls + 1, rejected r s.state⟩ = s' := by
  cases hrejects : env.rejects s.calls with
  | none => simp [Throws, call, hrejects]
  | some r' =>
    simp only [Throws, call, hrejects, Option.some.injEq, Prod.mk.injEq, Except.error.injEq]
    exact and_congr_right fun hr => by rw [hr]

/-- A sequence ends where its first part throws, or with its rest. -/
theorem ends_bind {x : Calling ε σ ρ α} {f : α → Calling ε σ ρ β} {o : Except ρ β} :
    (x >>= f) env s = some (o, s') ↔
      (∃ r, o = .error r ∧ x.Throws env s r s') ∨
        ∃ a s₁, x.Returns env s a s₁ ∧ f a env s₁ = some (o, s') := by
  cases o with
  | error r =>
    refine Iff.trans (b := (x >>= f).Throws env s r s') Iff.rfl (throws_bind.trans ?_)
    refine or_congr ?_ Iff.rfl
    constructor
    · exact fun h => ⟨r, rfl, h⟩
    · rintro ⟨_, ⟨⟩, h⟩
      exact h
  | ok b =>
    refine Iff.trans (b := (x >>= f).Returns env s b s') Iff.rfl (returns_bind.trans ?_)
    refine ⟨.inr, ?_⟩
    rintro (⟨_, ⟨⟩, -⟩ | h)
    exact h

/-- Either none of the calls from `n` up to `m` rejects, or there is a first. -/
theorem none_or_firstRejects (env : Unreliable ε ρ) (n m : ℕ) :
    (∀ j, n ≤ j → j < m → env.rejects j = none) ∨ ∃ k r, FirstRejects env n k r ∧ k < m := by
  induction m with
  | zero => exact .inl fun j _ hj => absurd hj (Nat.not_lt_zero j)
  | succ m ih =>
    rcases ih with hnone | ⟨k, r, hfirst, hk⟩
    · by_cases hm : n ≤ m
      · cases hr : env.rejects m with
        | none =>
          refine .inl fun j hj hlt => ?_
          rcases Nat.lt_succ_iff_lt_or_eq.mp hlt with hlt | rfl
          · exact hnone j hj hlt
          · exact hr
        | some r => exact .inr ⟨m, r, ⟨hm, hnone, hr⟩, Nat.lt_succ_self m⟩
      · exact .inl fun j hj hlt => absurd hj (by omega)
    · exact .inr ⟨k, r, hfirst, by omega⟩

/-! ### Programs without a handler -/

/-- Undisturbed, the program returns; it ends with the first of its calls that rejects. -/
class Sequential (x : Calling ε σ ρ α) : Prop where
  spec : ∀ (env : Unreliable ε ρ) (s : Counted σ), ∃ a s', x.Returns env.reliable s a s' ∧
    s.calls ≤ s'.calls ∧
    ((∀ j, s.calls ≤ j → j < s'.calls → env.rejects j = none) → x.Returns env s a s') ∧
    ∀ {k r}, FirstRejects env s.calls k r → k < s'.calls → ∃ t, x.Throws env s r ⟨k + 1, t⟩

instance Sequential.pure {a : α} : Sequential (Pure.pure a : Calling ε σ ρ α) where
  spec env s := by
    refine ⟨a, s, rfl, le_rfl, fun _ => rfl, fun {k r} hfirst hk => ?_⟩
    exact absurd hfirst.le (Nat.not_le.mpr hk)

instance Sequential.update {f : σ → σ} : Sequential (update f : Calling ε σ ρ Unit) where
  spec env s := by
    refine ⟨(), ⟨s.calls, f s.state⟩, rfl, le_rfl, fun _ => rfl, fun {k r} hfirst hk => ?_⟩
    exact absurd hfirst.le (Nat.not_le.mpr hk)

instance Sequential.call {effect : ε → ℕ → σ → α × σ} {rejected : ρ → σ → σ} :
    Sequential (call effect rejected : Calling ε σ ρ α) where
  spec env s := by
    refine ⟨_, _, rfl, Nat.le_succ _, fun hnone => ?_, fun {k r} hfirst hk => ?_⟩
    · have hs := hnone s.calls le_rfl (Nat.lt_succ_self _)
      simp only [Returns, Concurrency.call, hs]
      rfl
    · have hk : k = s.calls := by
        have hle := hfirst.le
        exact Nat.le_antisymm (Nat.lt_succ_iff.mp hk) hle
      subst hk
      exact ⟨rejected r s.state, by simp only [Throws, Concurrency.call, hfirst.rejects]⟩

instance Sequential.ite {p : Prop} [Decidable p] {x y : Calling ε σ ρ α} [hx : Sequential x]
    [hy : Sequential y] : Sequential (if p then x else y) := by
  split_ifs
  · exact hx
  · exact hy

instance Sequential.bind {x : Calling ε σ ρ α} {f : α → Calling ε σ ρ β} [hx : Sequential x]
    [hf : ∀ a, Sequential (f a)] : Sequential (x >>= f) where
  spec env s := by
    obtain ⟨a, s₁, hreturns, hle, hnone, hfirst⟩ := hx.spec env s
    obtain ⟨b, s₂, hreturns', hle', hnone', hfirst'⟩ := (hf a).spec env s₁
    refine ⟨b, s₂, returns_bind.mpr ⟨a, s₁, hreturns, hreturns'⟩, Nat.le_trans hle hle',
      fun h => ?_, fun {k r} h hk => ?_⟩
    · refine returns_bind.mpr ⟨a, s₁, hnone fun j hj hlt => ?_, hnone' fun j hj hlt => ?_⟩
      · exact h j hj (Nat.lt_of_lt_of_le hlt hle')
      · exact h j (Nat.le_trans hle hj) hlt
    · by_cases hbefore : k < s₁.calls
      · obtain ⟨t, ht⟩ := hfirst h hbefore
        exact ⟨t, throws_bind.mpr (.inl ht)⟩
      · -- the first part is undisturbed
        have hge : s₁.calls ≤ k := Nat.le_of_not_lt hbefore
        have hs₁ : x.Returns env s a s₁ :=
          hnone fun j hj hlt => h.before j hj (Nat.lt_of_lt_of_le hlt hge)
        obtain ⟨t, ht⟩ := hfirst' ⟨hge, fun j hj => h.before j (Nat.le_trans hle hj), h.rejects⟩ hk
        exact ⟨t, throws_bind.mpr (.inr ⟨a, s₁, hs₁, ht⟩)⟩

/-- How a program ends: it returns what it returns undisturbed, or its first call that rejects ends
it. -/
theorem Sequential.cases (x : Calling ε σ ρ α) [hx : Sequential x] (env : Unreliable ε ρ)
    (s : Counted σ) :
    (∃ a s', x.Returns env s a s' ∧
        ∀ k r, FirstRejects env s.calls k r → callsMade x env s ≤ k) ∨
      ∃ k r t, FirstRejects env s.calls k r ∧ k < callsMade x env s ∧
        x.Throws env s r ⟨k + 1, t⟩ := by
  obtain ⟨a, s', hreturns, hle, hnone, hfirst⟩ := hx.spec env s
  have hcalls : callsMade x env s = s'.calls := by
    unfold callsMade
    rw [show x env.reliable s = some (.ok a, s') from hreturns]
  rw [hcalls]
  rcases none_or_firstRejects env s.calls s'.calls with hall | ⟨k, r, hk, hlt⟩
  · refine .inl ⟨a, s', hnone hall, fun k r hk => ?_⟩
    by_contra hlt
    have hnot := hall k hk.le (Nat.lt_of_not_le hlt)
    rw [hk.rejects] at hnot
    cases hnot
  · obtain ⟨t, ht⟩ := hfirst hk hlt
    exact .inr ⟨k, r, t, hk, hlt, ht⟩

/-- At most one call is the first that is rejected. -/
theorem FirstRejects.unique {k' : ℕ} {r' : ρ} (h : FirstRejects env n k r)
    (h' : FirstRejects env n k' r') : k = k' ∧ r = r' := by
  have hk : k = k' := by
    rcases lt_trichotomy k k' with hlt | heq | hlt
    · have hnone := h'.before k h.le hlt
      rw [h.rejects] at hnone
      cases hnone
    · exact heq
    · have hnone := h.before k' h'.le hlt
      rw [h'.rejects] at hnone
      cases hnone
  subst hk
  exact ⟨rfl, Option.some.inj (h.rejects.symm.trans h'.rejects)⟩

/-! ### Programs with a handler -/

/-- The call after the first of the body that rejects does not reject. -/
def Recovers (body : Calling ε σ ρ α) (env : Unreliable ε ρ) (s : Counted σ) : Prop :=
  ∀ k r, FirstRejects env s.calls k r → k < callsMade body env s → env.rejects (k + 1) = none

/-- A guarded program returns what its body does, or what the handler makes of its rejection. -/
theorem returns_guarded_iff {body : Calling ε σ ρ α} {handler : ρ → Calling ε σ ρ α} {a : α} :
    (guarded body handler).Returns env s a s' ↔
      body.Returns env s a s' ∨ ∃ r t, body.Throws env s r t ∧ (handler r).Returns env t a s' := by
  unfold guarded
  rw [returns_bind]
  constructor
  · rintro ⟨o, t, hbody, hrest⟩
    rw [returns_attempt] at hbody
    cases o with
    | ok a' =>
      obtain ⟨rfl, rfl⟩ := returns_pure.mp hrest
      exact .inl hbody
    | error r => exact .inr ⟨r, t, hbody, hrest⟩
  · rintro (hbody | ⟨r, t, hbody, hhandler⟩)
    · exact ⟨.ok a, s', returns_attempt.mpr hbody, returns_pure.mpr ⟨rfl, rfl⟩⟩
    · exact ⟨.error r, t, returns_attempt.mpr hbody, hhandler⟩

/-- **A handler that makes one call.**  The program returns if and only if that call does not reject
when it is made. -/
theorem resolves_guarded_iff {body : Calling ε σ ρ α} [Sequential body]
    {handler : ρ → Calling ε σ ρ α}
    (hhandler : ∀ r t, (∃ a s', (handler r).Returns env t a s') ↔ env.rejects t.calls = none) :
    (∃ a s', (guarded body handler).Returns env s a s') ↔ Recovers body env s := by
  -- the body ends by itself, or its call number `k` is the first one that is rejected
  rcases Sequential.cases body env s with ⟨a, s', hbody, hnone⟩ | ⟨k, r, t, hfirst, hk, hbody⟩
  · refine iff_of_true ⟨a, s', returns_guarded_iff.mpr (.inl hbody)⟩ fun k r hfirst hk => ?_
    exact absurd (hnone k r hfirst) (Nat.not_le.mpr hk)
  · have hrecovers : Recovers body env s ↔ env.rejects (k + 1) = none := by
      constructor
      · exact fun h => h k r hfirst hk
      · intro h k' r' hfirst' _
        rw [← (hfirst.unique hfirst').1]
        exact h
    rw [hrecovers, ← hhandler r ⟨k + 1, t⟩]
    refine exists_congr fun a => exists_congr fun s' => ?_
    rw [returns_guarded_iff]
    constructor
    · rintro (hreturns | ⟨r', t', hthrows, h⟩)
      · exact absurd (hreturns.symm.trans hbody) (by simp)
      · have hsame := hthrows.symm.trans hbody
        simp only [Option.some.injEq, Prod.mk.injEq, Except.error.injEq] at hsame
        obtain ⟨rfl, rfl⟩ := hsame
        exact h
    · exact fun h => .inr ⟨r, _, hbody, h⟩

/-! ### Frame rules -/

/-- A relation of the states, whatever the calls. -/
def OnState (Q : σ → σ → Prop) (s s' : Counted σ) : Prop := Q s.state s'.state

variable {Q : σ → σ → Prop}

instance [Std.Refl Q] : Std.Refl (OnState Q) := ⟨fun s => Std.Refl.refl s.state⟩

instance [IsTrans σ Q] : IsTrans (Counted σ) (OnState Q) :=
  ⟨fun _ _ _ h h' => IsTrans.trans (r := Q) _ _ _ h h'⟩

theorem moves_call {effect : ε → ℕ → σ → α × σ} {rejected : ρ → σ → σ}
    (heffect : ∀ env n s, Q s (effect env n s).2) (hrejected : ∀ r s, Q s (rejected r s)) :
    Moves (OnState Q) (call effect rejected : Calling ε σ ρ α) where
  rel {env s o s'} h := by
    unfold call at h
    split at h
    · obtain ⟨-, rfl⟩ := Prod.mk.inj (Option.some.inj h)
      exact heffect _ _ _
    · obtain ⟨-, rfl⟩ := Prod.mk.inj (Option.some.inj h)
      exact hrejected _ _

theorem moves_update {f : σ → σ} (hf : ∀ s, Q s (f s)) :
    Moves (OnState Q) (update f : Calling ε σ ρ Unit) :=
  Moves.modifyWorld fun _ s => hf s.state

instance moves_look [Std.Refl Q] {f : σ → α} : Moves (OnState Q) (look f : Calling ε σ ρ α) where
  rel {env s o s'} h := by
    obtain ⟨-, rfl⟩ := Prod.mk.inj (Option.some.inj h)
    exact Std.Refl.refl s.state

end StellarForge.Concurrency
