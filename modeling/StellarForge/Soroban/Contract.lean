import Mathlib.Logic.Basic
import Mathlib.Tactic.Common

/-!
# The contract monad

A contract function reads its environment `ε`, updates the world `σ` and either returns a value,
returns an error of type `err`, or traps.  An error is an ordinary return value of the callee: the
world it left behind is handed to the caller, and rolling back is the host's business at the
boundary of the outermost call.  A trap ends the whole invocation, so it leaves nothing behind.

`Returns x e s a s'` says that `x`, started in `s`, returns the value `a` and leaves `s'`;
`Throws x e s r s'` says that it returns the error `r`, `Traps x e s` that it traps.  Each combinator
has one `simp` lemma for each of them, so that unfolding a function and simplifying yields the list of
everything a successful (or failing) call can have done.
-/

namespace StellarForge.Soroban

/-- A contract function over the environment `ε` and the world `σ`: `none` is a trap. -/
def Contract (ε σ err : Type*) (α : Type*) := ε → σ → Option (Except err α × σ)

namespace Contract

universe u

variable {ε σ err : Type*} {α β : Type u}

/-- Return `a` and change nothing. -/
protected def pure (a : α) : Contract ε σ err α := fun _ s => some (.ok a, s)

/-- Run `x` and hand its value to `f`; an error of `x` ends the function (Rust's `?`). -/
protected def bind (x : Contract ε σ err α) (f : α → Contract ε σ err β) : Contract ε σ err β :=
  fun e s => match x e s with
    | some (.ok a, s') => f a e s'
    | some (.error r, s') => some (.error r, s')
    | none => none

instance : Monad (Contract ε σ err) where
  pure := Contract.pure
  bind := Contract.bind

/-- Return the error `r`. -/
def fail (r : err) : Contract ε σ err α := fun _ s => some (.error r, s)

/-- A panic or a host error. -/
def trap : Contract ε σ err α := fun _ _ => none

/-- Return the error `r` when `p` holds. -/
def throwIf (p : Prop) [Decidable p] (r : err) : Contract ε σ err Unit :=
  if p then fail r else Contract.pure ()

/-- Trap unless `p` holds. -/
def trapUnless (p : Prop) [Decidable p] : Contract ε σ err Unit :=
  if p then Contract.pure () else trap

/-- `Option::ok_or(r)?` -/
def okOr (o : Option α) (r : err) : Contract ε σ err α :=
  match o with
  | some a => Contract.pure a
  | none => fail r

/-- The environment of the call. -/
def getEnv : Contract ε σ err ε := fun e s => some (.ok e, s)

/-- The current world. -/
def getWorld : Contract ε σ err σ := fun _ s => some (.ok s, s)

/-- Replace the world by `f` of it. -/
def modifyWorld (f : ε → σ → σ) : Contract ε σ err Unit := fun e s => some (.ok (), f e s)

/-- Run `x` and return its `Result` as a value, so that the caller goes on after an error. -/
def attempt (x : Contract ε σ err α) : Contract ε σ err (Except err α) :=
  fun e s => (x e s).map fun (r, s') => (.ok r, s')

/-- Return a `Result` obtained from `attempt`. -/
def ofExcept : Except err α → Contract ε σ err α
  | .ok a => Contract.pure a
  | .error r => fail r

/-- Started in `s`, the function returns the value `a` and leaves `s'`. -/
def Returns (x : Contract ε σ err α) (e : ε) (s : σ) (a : α) (s' : σ) : Prop :=
  x e s = some (.ok a, s')

/-- Started in `s`, the function returns the error `r` and leaves `s'`. -/
def Throws (x : Contract ε σ err α) (e : ε) (s : σ) (r : err) (s' : σ) : Prop :=
  x e s = some (.error r, s')

/-- Started in `s`, the function traps. -/
def Traps (x : Contract ε σ err α) (e : ε) (s : σ) : Prop := x e s = none

/-- The world after a call: what the call left behind if it returned a value, and the world it
started from otherwise, since the host rolls a failed invocation back. -/
def commit (x : Contract ε σ err α) (e : ε) (s : σ) : σ :=
  match x e s with
  | some (.ok _, s') => s'
  | _ => s

variable {e : ε} {s s' : σ} {a : α} {b : β} {r : err}

/-! ### What a successful call has done -/

@[simp] theorem returns_pure {a' : α} :
    Returns (pure a : Contract ε σ err α) e s a' s' ↔ a = a' ∧ s = s' := by
  simp only [Returns, pure, Contract.pure, Option.some.injEq, Prod.mk.injEq, Except.ok.injEq]

/-- A sequence returns what its second part does. -/
@[simp] theorem returns_bind {x : Contract ε σ err α} {f : α → Contract ε σ err β} :
    (x >>= f).Returns e s b s' ↔ ∃ a s₁, x.Returns e s a s₁ ∧ (f a).Returns e s₁ b s' := by
  simp only [Returns, bind, Contract.bind]
  constructor
  · intro h
    split at h
    · exact ⟨_, _, by assumption, h⟩
    · simp at h
    · simp at h
  · rintro ⟨a, s₁, hx, hf⟩
    rw [hx]
    exact hf

@[simp] theorem returns_fail : ¬ Returns (fail r : Contract ε σ err α) e s a s' := by
  simp [Returns, fail]

@[simp] theorem returns_trap : ¬ Returns (trap : Contract ε σ err α) e s a s' := by
  simp [Returns, trap]

@[simp] theorem returns_throwIf {p : Prop} [Decidable p] {u : Unit} :
    Returns (throwIf p r : Contract ε σ err Unit) e s u s' ↔ ¬ p ∧ s = s' := by
  unfold throwIf
  split <;> simp_all [Returns, fail, Contract.pure]

@[simp] theorem returns_trapUnless {p : Prop} [Decidable p] {u : Unit} :
    Returns (trapUnless p : Contract ε σ err Unit) e s u s' ↔ p ∧ s = s' := by
  unfold trapUnless
  split <;> simp_all [Returns, trap, Contract.pure]

@[simp] theorem returns_okOr {o : Option α} :
    Returns (okOr o r : Contract ε σ err α) e s a s' ↔ o = some a ∧ s = s' := by
  cases o <;> simp [okOr, Returns, fail, Contract.pure]

@[simp] theorem returns_getEnv {e' : ε} :
    Returns (getEnv : Contract ε σ err ε) e s e' s' ↔ e = e' ∧ s = s' := by
  simp [Returns, getEnv]

@[simp] theorem returns_getWorld {t : σ} :
    Returns (getWorld : Contract ε σ err σ) e s t s' ↔ s = t ∧ s = s' := by
  simp [Returns, getWorld]

@[simp] theorem returns_modifyWorld {f : ε → σ → σ} {u : Unit} :
    Returns (modifyWorld f : Contract ε σ err Unit) e s u s' ↔ f e s = s' := by
  simp [Returns, modifyWorld]

@[simp] theorem returns_attempt {x : Contract ε σ err α} {o : Except err α} :
    x.attempt.Returns e s o s' ↔ x e s = some (o, s') := by
  simp [Returns, attempt]

@[simp] theorem returns_ofExcept {o : Except err α} :
    Returns (ofExcept o : Contract ε σ err α) e s a s' ↔ o = .ok a ∧ s = s' := by
  cases o <;> simp [ofExcept, Returns, fail, Contract.pure]

theorem returns_ite {p : Prop} [Decidable p] {x y : Contract ε σ err α} :
    (if p then x else y).Returns e s a s' ↔
      (p ∧ x.Returns e s a s') ∨ (¬ p ∧ y.Returns e s a s') := by
  split <;> simp_all

/-- A function returns at most one value and leaves at most one world. -/
theorem Returns.unique {x : Contract ε σ err α} {a' : α} {t : σ} (h : x.Returns e s a s')
    (h' : x.Returns e s a' t) : a = a' ∧ s' = t := by
  simpa [Returns] using h.symm.trans h'

/-- A sequence goes on with what its first part returned. -/
theorem Returns.bind_eq {x : Contract ε σ err α} {f : α → Contract ε σ err β} (h : x.Returns e s a s') :
    (x >>= f) e s = f a e s' := by
  have hx : x e s = some (.ok a, s') := h
  simp only [Bind.bind, Contract.bind, hx]

/-- A last step that computes a value leaves the world as it is. -/
theorem exists_of_bind_pure {x : Contract ε σ err α} {g : α → β} {o : Except err β}
    (h : (x >>= fun a => pure (g a)) e s = some (o, s')) : ∃ o', x e s = some (o', s') := by
  simp only [Bind.bind, Contract.bind] at h
  split at h
  · next a t hx =>
    obtain ⟨-, rfl⟩ := Prod.mk.inj (Option.some.inj h)
    exact ⟨_, hx⟩
  · next r t hx =>
    obtain ⟨-, rfl⟩ := Prod.mk.inj (Option.some.inj h)
    exact ⟨_, hx⟩
  · cases h

theorem Returns.commit_eq {x : Contract ε σ err α} (h : x.Returns e s a s') :
    x.commit e s = s' := by
  rw [commit, h]

/-- What does not return a value is rolled back. -/
theorem commit_of_not_returns {x : Contract ε σ err α} (h : ∀ a s', ¬ x.Returns e s a s') :
    x.commit e s = s := by
  unfold commit
  split
  next a s' hx => exact absurd hx (h a s')
  next => rfl

/-- A run that is known to return `a` leaves the committed world. -/
theorem returns_commit {x : Contract ε σ err α} (h : (x e s).map Prod.fst = some (.ok a)) :
    x.Returns e s a (x.commit e s) := by
  rw [Option.map_eq_some_iff] at h
  obtain ⟨⟨o, t⟩, hx, rfl⟩ := h
  have hx : x.Returns e s a t := hx
  rw [hx.commit_eq]
  exact hx

/-! ### What a failing call has done -/

@[simp] theorem throws_pure : ¬ Throws (pure a : Contract ε σ err α) e s r s' := by
  simp [Throws, pure, Contract.pure]

@[simp] theorem throws_bind {x : Contract ε σ err α} {f : α → Contract ε σ err β} :
    (x >>= f).Throws e s r s' ↔
      x.Throws e s r s' ∨ ∃ a s₁, x.Returns e s a s₁ ∧ (f a).Throws e s₁ r s' := by
  simp only [Throws, Returns, bind, Contract.bind]
  rcases hx : x e s with _ | ⟨_ | a, s₁⟩ <;> simp

@[simp] theorem throws_fail {r' : err} :
    Throws (fail r : Contract ε σ err α) e s r' s' ↔ r = r' ∧ s = s' := by
  simp [Throws, fail]

@[simp] theorem throws_throwIf {p : Prop} [Decidable p] {r' : err} :
    Throws (throwIf p r : Contract ε σ err Unit) e s r' s' ↔ p ∧ r = r' ∧ s = s' := by
  unfold throwIf
  split <;> simp_all [Throws, fail, Contract.pure]

@[simp] theorem throws_trapUnless {p : Prop} [Decidable p] :
    ¬ Throws (trapUnless p : Contract ε σ err Unit) e s r s' := by
  unfold trapUnless
  split <;> simp [Throws, trap, Contract.pure]

@[simp] theorem throws_okOr {o : Option α} {r' : err} :
    Throws (okOr o r : Contract ε σ err α) e s r' s' ↔ o = none ∧ r = r' ∧ s = s' := by
  cases o <;> simp [okOr, Throws, fail, Contract.pure]

theorem throws_ite {p : Prop} [Decidable p] {x y : Contract ε σ err α} :
    (if p then x else y).Throws e s r s' ↔
      (p ∧ x.Throws e s r s') ∨ (¬ p ∧ y.Throws e s r s') := by
  split <;> simp_all

@[simp] theorem throws_getEnv : ¬ Throws (getEnv : Contract ε σ err ε) e s r s' := by
  simp [Throws, getEnv]

@[simp] theorem throws_getWorld : ¬ Throws (getWorld : Contract ε σ err σ) e s r s' := by
  simp [Throws, getWorld]

@[simp] theorem throws_modifyWorld {f : ε → σ → σ} :
    ¬ Throws (modifyWorld f : Contract ε σ err Unit) e s r s' := by
  simp [Throws, modifyWorld]

@[simp] theorem throws_attempt {x : Contract ε σ err α} : ¬ Throws x.attempt e s r s' := by
  simp [Throws, attempt]

/-! ### When a call traps -/

@[simp] theorem traps_bind {x : Contract ε σ err α} {f : α → Contract ε σ err β} :
    (x >>= f).Traps e s ↔ x.Traps e s ∨ ∃ a s₁, x.Returns e s a s₁ ∧ (f a).Traps e s₁ := by
  simp only [Traps, Returns, bind, Contract.bind]
  rcases hx : x e s with _ | ⟨_ | a, s₁⟩ <;> simp

@[simp] theorem traps_trap : Traps (trap : Contract ε σ err α) e s := rfl

@[simp] theorem traps_fail : ¬ Traps (fail r : Contract ε σ err α) e s := by
  simp [Traps, fail]

@[simp] theorem traps_pure : ¬ Traps (pure a : Contract ε σ err α) e s := by
  simp [Traps, pure, Contract.pure]

@[simp] theorem traps_getEnv : ¬ Traps (getEnv : Contract ε σ err ε) e s := by
  simp [Traps, getEnv]

@[simp] theorem traps_getWorld : ¬ Traps (getWorld : Contract ε σ err σ) e s := by
  simp [Traps, getWorld]

@[simp] theorem traps_modifyWorld {f : ε → σ → σ} :
    ¬ Traps (modifyWorld f : Contract ε σ err Unit) e s := by
  simp [Traps, modifyWorld]

@[simp] theorem traps_attempt {x : Contract ε σ err α} : x.attempt.Traps e s ↔ x.Traps e s := by
  simp [Traps, attempt]

@[simp] theorem traps_ofExcept {x : Except err α} :
    ¬ Traps (ofExcept x : Contract ε σ err α) e s := by
  rcases x with _ | _ <;> simp [Traps, ofExcept, Contract.pure, fail]

theorem traps_ite {p : Prop} [Decidable p] {x y : Contract ε σ err α} :
    (if p then x else y).Traps e s ↔ (p ∧ x.Traps e s) ∨ (¬ p ∧ y.Traps e s) := by
  split_ifs with hp <;> simp [hp]

@[simp] theorem traps_trapUnless {p : Prop} [Decidable p] :
    Traps (trapUnless p : Contract ε σ err Unit) e s ↔ ¬ p := by
  unfold trapUnless
  split <;> simp_all [Traps, trap, Contract.pure]

theorem Traps.not_returns {x : Contract ε σ err α} (h : x.Traps e s) : ¬ x.Returns e s a s' := by
  rw [Returns, show x e s = none from h]
  simp

end Contract

end StellarForge.Soroban
