import StellarForge.Soroban.Contract
import Mathlib.Order.Defs.Unbundled

/-!
# Frame rules for contract functions

`Moves R x` says that whatever `x` does, and whether it returns a value or an error, the worlds
before and after are related by `R`.  For a preorder `R` it follows from the structure of `x`: the
rules below are instances, so that `infer_instance` proves it of a function that is composed of parts
for which it is known.

`MovesIn E R x` is the same of the runs in the environments `E` alone, which is what a function needs
whose calls to other contracts are answered by the environment.
-/

namespace StellarForge.Soroban.Contract

universe u

variable {ε σ err : Type*} {α β : Type u} {R : σ → σ → Prop}

/-- Every world in which `x` can end is related by `R` to the one in which it started. -/
class Moves (R : σ → σ → Prop) (x : Contract ε σ err α) : Prop where
  rel : ∀ {e : ε} {s : σ} {r : Except err α} {s' : σ}, x e s = some (r, s') → R s s'

theorem Returns.rel {x : Contract ε σ err α} [hx : Moves R x] {e : ε} {s s' : σ} {a : α}
    (h : x.Returns e s a s') : R s s' := hx.rel h

theorem Moves.modifyWorld {f : ε → σ → σ} (hf : ∀ e s, R s (f e s)) :
    Moves R (Contract.modifyWorld f : Contract ε σ err Unit) where
  rel {e s r s'} h := by
    simp only [Contract.modifyWorld, Option.some.injEq, Prod.mk.injEq] at h
    exact h.2 ▸ hf e s

instance Moves.trap : Moves R (Contract.trap : Contract ε σ err α) where
  rel h := by simp [Contract.trap] at h

instance Moves.attempt {x : Contract ε σ err α} [hx : Moves R x] : Moves R x.attempt where
  rel h := by
    simp only [Contract.attempt, Option.map_eq_some_iff, Prod.mk.injEq] at h
    obtain ⟨⟨_, _⟩, hrun, -, rfl⟩ := h
    exact hx.rel hrun

instance Moves.ite {p : Prop} [Decidable p] {x y : Contract ε σ err α} [hx : Moves R x]
    [hy : Moves R y] : Moves R (if p then x else y) := by
  split_ifs
  · exact hx
  · exact hy

instance Moves.bind [IsTrans σ R] {x : Contract ε σ err α} {f : α → Contract ε σ err β}
    [hx : Moves R x] [hf : ∀ a, Moves R (f a)] : Moves R (x >>= f) where
  rel h := by
    simp only [Bind.bind, Contract.bind] at h
    split at h
    case h_1 a s₁ hs => exact IsTrans.trans _ _ _ (hx.rel hs) ((hf a).rel h)
    case h_2 r s₁ hs =>
      obtain ⟨-, rfl⟩ := Prod.mk.inj (Option.some.inj h)
      exact hx.rel hs
    case h_3 => simp at h

/-- The rule for a sequence, to be applied where the rest of the function is a `match`. -/
theorem Moves.andThen [IsTrans σ R] {x : Contract ε σ err α} {f : α → Contract ε σ err β}
    (_ : Moves R x) (_ : ∀ a, Moves R (f a)) : Moves R (x >>= f) := inferInstance

variable [Std.Refl R]

instance Moves.pure {a : α} : Moves R (Pure.pure a : Contract ε σ err α) where
  rel {_ s _ _} h := by
    obtain ⟨-, rfl⟩ := Prod.mk.inj (Option.some.inj h)
    exact Std.Refl.refl s

instance Moves.fail {r : err} : Moves R (Contract.fail r : Contract ε σ err α) where
  rel {_ s _ _} h := by
    obtain ⟨-, rfl⟩ := Prod.mk.inj (Option.some.inj h)
    exact Std.Refl.refl s

instance Moves.throwIf {p : Prop} [Decidable p] {r : err} :
    Moves R (Contract.throwIf p r : Contract ε σ err Unit) :=
  have : Moves R (Contract.pure () : Contract ε σ err Unit) := Moves.pure
  Moves.ite

instance Moves.trapUnless {p : Prop} [Decidable p] :
    Moves R (Contract.trapUnless p : Contract ε σ err Unit) :=
  have : Moves R (Contract.pure () : Contract ε σ err Unit) := Moves.pure
  Moves.ite

instance Moves.okOr {o : Option α} {r : err} :
    Moves R (Contract.okOr o r : Contract ε σ err α) := by
  cases o
  · exact Moves.fail
  · exact Moves.pure

instance Moves.getEnv : Moves R (Contract.getEnv : Contract ε σ err ε) where
  rel {_ s _ _} h := by
    obtain ⟨-, rfl⟩ := Prod.mk.inj (Option.some.inj h)
    exact Std.Refl.refl s

instance Moves.getWorld : Moves R (Contract.getWorld : Contract ε σ err σ) where
  rel {_ s _ _} h := by
    obtain ⟨-, rfl⟩ := Prod.mk.inj (Option.some.inj h)
    exact Std.Refl.refl s

/-! ### Relative to the environment -/

/-- `Moves`, of the runs in an environment that satisfies `E`. -/
class MovesIn (E : ε → Prop) (R : σ → σ → Prop) (x : Contract ε σ err α) : Prop where
  rel : ∀ {e : ε} {s : σ} {r : Except err α} {s' : σ}, E e → x e s = some (r, s') → R s s'

section

variable {E : ε → Prop}

omit [Std.Refl R] in
theorem Returns.relIn {x : Contract ε σ err α} [hx : MovesIn E R x] {e : ε} {s s' : σ} {a : α}
    (he : E e) (h : x.Returns e s a s') : R s s' := hx.rel he h

omit [Std.Refl R] in
instance (priority := low) MovesIn.ofMoves {x : Contract ε σ err α} [hx : Moves R x] :
    MovesIn E R x := ⟨fun _ h => hx.rel h⟩

omit [Std.Refl R] in
instance MovesIn.attempt {x : Contract ε σ err α} [hx : MovesIn E R x] :
    MovesIn E R x.attempt where
  rel he h := by
    simp only [Contract.attempt, Option.map_eq_some_iff, Prod.mk.injEq] at h
    obtain ⟨⟨_, _⟩, hrun, -, rfl⟩ := h
    exact hx.rel he hrun

omit [Std.Refl R] in
instance MovesIn.ite {p : Prop} [Decidable p] {x y : Contract ε σ err α} [hx : MovesIn E R x]
    [hy : MovesIn E R y] : MovesIn E R (if p then x else y) := by
  split_ifs
  · exact hx
  · exact hy

omit [Std.Refl R] in
/-- The rule for a sequence whose rest relies on what its first part returns. -/
theorem MovesIn.andThenOf [IsTrans σ R] {P : α → Prop} {x : Contract ε σ err α}
    {f : α → Contract ε σ err β} (hx : MovesIn E R x)
    (hP : ∀ {e s a s'}, E e → x.Returns e s a s' → P a) (hf : ∀ a, P a → MovesIn E R (f a)) :
    MovesIn E R (x >>= f) where
  rel he h := by
    simp only [Bind.bind, Contract.bind] at h
    split at h
    case h_1 a s₁ hs => exact IsTrans.trans _ _ _ (hx.rel he hs) ((hf a (hP he hs)).rel he h)
    case h_2 r s₁ hs =>
      obtain ⟨-, rfl⟩ := Prod.mk.inj (Option.some.inj h)
      exact hx.rel he hs
    case h_3 => simp at h

omit [Std.Refl R] in
instance MovesIn.bind [IsTrans σ R] {x : Contract ε σ err α} {f : α → Contract ε σ err β}
    [hx : MovesIn E R x] [hf : ∀ a, MovesIn E R (f a)] : MovesIn E R (x >>= f) :=
  hx.andThenOf (fun _ _ => trivial) fun a _ => hf a

omit [Std.Refl R] in
/-- The rule for a sequence, to be applied where the rest of the function is a `match`. -/
theorem MovesIn.andThen [IsTrans σ R] {x : Contract ε σ err α} {f : α → Contract ε σ err β}
    (_ : MovesIn E R x) (_ : ∀ a, MovesIn E R (f a)) : MovesIn E R (x >>= f) := inferInstance

end

end StellarForge.Soroban.Contract
