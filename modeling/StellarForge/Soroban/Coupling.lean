import StellarForge.Soroban.Contract

/-!
# Two runs of a contract function

`Respects e R x` says that two runs of `x`, started in worlds that `R` relates, end alike: both trap,
or both return the same value or the same error and leave related worlds.  For what `x` neither reads
nor depends on, `R` asks for nothing.  Like `Moves`, it follows from the structure of `x`.

`failure x e s` is how a run fails, if it does, without the world it leaves behind.  A function that
respects `R` fails alike in related worlds (`Respects.failure_eq`) and returns the same
(`Respects.returns`); so it does not matter whether a function whose moves are all within `R` has run
before it.
-/

namespace StellarForge.Soroban.Contract

universe u

variable {ε σ err : Type*} {α β : Type u} {e : ε} {R : σ → σ → Prop} {s s' t : σ}

/-! ### How a run fails -/

/-- How a run fails: `some none` for a trap, `some (some r)` for the error `r`. -/
def failure (x : Contract ε σ err α) (e : ε) (s : σ) : Option (Option err) :=
  match x e s with
  | some (.ok _, _) => none
  | some (.error r, _) => some (some r)
  | none => some none

section

variable {x : Contract ε σ err α} {f : α → Contract ε σ err β} {a : α} {r : err}
  {r' : Option err}

theorem failure_eq_none : x.failure e s = none ↔ ∃ a s', x.Returns e s a s' := by
  unfold failure Returns
  rcases h : x e s with _ | ⟨_ | a, s'⟩ <;> simp

theorem failure_eq_error : x.failure e s = some (some r) ↔ ∃ s', x.Throws e s r s' := by
  unfold failure Throws
  rcases h : x e s with _ | ⟨_ | a, s'⟩ <;> simp

theorem failure_eq_trap : x.failure e s = some none ↔ x.Traps e s := by
  unfold failure Traps
  rcases h : x e s with _ | ⟨_ | a, s'⟩ <;> simp

theorem Returns.failure_eq (h : x.Returns e s a s') : x.failure e s = none :=
  failure_eq_none.mpr ⟨a, s', h⟩

theorem Throws.failure_eq (h : x.Throws e s r s') : x.failure e s = some (some r) :=
  failure_eq_error.mpr ⟨s', h⟩

/-- A sequence fails as its first part does, if that fails. -/
theorem failure_bind_of_some (h : x.failure e s = some r') :
    (x >>= f).failure e s = some r' := by
  unfold failure at h ⊢
  simp only [Bind.bind, Contract.bind]
  rcases hx : x e s with _ | ⟨_ | a, s'⟩ <;> simp_all

/-- Otherwise it fails as the rest does. -/
theorem Returns.failure_bind (h : x.Returns e s a s') :
    (x >>= f).failure e s = (f a).failure e s' := by
  unfold failure
  rw [h.bind_eq]

end

/-- Two sequences with the same first part fail alike if their rests do. -/
theorem failure_bind_congr {γ : Type u} {x : Contract ε σ err α} {f : α → Contract ε σ err β}
    {g : α → Contract ε σ err γ}
    (h : ∀ a s', x.Returns e s a s' → (f a).failure e s' = (g a).failure e s') :
    (x >>= f).failure e s = (x >>= g).failure e s := by
  rcases hx : x.failure e s with _ | r
  · obtain ⟨a, s', hret⟩ := failure_eq_none.mp hx
    rw [hret.failure_bind, hret.failure_bind, h a s' hret]
  · rw [failure_bind_of_some hx, failure_bind_of_some hx]

/-- Running `x` for its `Result` and returning that fails as `x` does. -/
theorem failure_attempt {err α β : Type u} {x : Contract ε σ err α}
    {f : Except err α → Contract ε σ err β}
    (hok : ∀ a s', x.Returns e s a s' → (f (.ok a)).failure e s' = none)
    (herror : ∀ r s', x.Throws e s r s' → (f (.error r)).failure e s' = some (some r)) :
    (x.attempt >>= f).failure e s = x.failure e s := by
  rcases hx : x.failure e s with _ | _ | r
  · obtain ⟨a, s', hret⟩ := failure_eq_none.mp hx
    have hattempt : x.attempt.Returns e s (.ok a) s' := returns_attempt.mpr hret
    rw [hattempt.failure_bind, hok a s' hret]
  · exact failure_bind_of_some (failure_eq_trap.mpr (traps_attempt.mpr (failure_eq_trap.mp hx)))
  · obtain ⟨s', hthrows⟩ := failure_eq_error.mp hx
    have hattempt : x.attempt.Returns e s (.error r) s' := returns_attempt.mpr hthrows
    rw [hattempt.failure_bind, herror r s' hthrows]

/-! ### Ending alike -/

/-- Two ends of a run: the same value or error and related worlds, or a trap both times. -/
def Alike (R : σ → σ → Prop) : Option (Except err α × σ) → Option (Except err α × σ) → Prop
  | some (r, s), some (r', s') => r = r' ∧ R s s'
  | none, none => True
  | _, _ => False

/-- Two runs of `x` that start in related worlds end alike. -/
class Respects (e : ε) (R : σ → σ → Prop) (x : Contract ε σ err α) : Prop where
  alike : ∀ {s s' : σ}, R s s' → Alike R (x e s) (x e s')

namespace Respects

instance pure {a : α} : Respects e R (Pure.pure a : Contract ε σ err α) := ⟨fun h => ⟨rfl, h⟩⟩

instance fail {r : err} : Respects e R (Contract.fail r : Contract ε σ err α) :=
  ⟨fun h => ⟨rfl, h⟩⟩

instance trap : Respects e R (Contract.trap : Contract ε σ err α) := ⟨fun _ => trivial⟩

instance getEnv : Respects e R (Contract.getEnv : Contract ε σ err ε) := ⟨fun h => ⟨rfl, h⟩⟩

instance ite {p : Prop} [Decidable p] {x y : Contract ε σ err α} [hx : Respects e R x]
    [hy : Respects e R y] : Respects e R (if p then x else y) := by
  split_ifs
  · exact hx
  · exact hy

instance throwIf {p : Prop} [Decidable p] {r : err} :
    Respects e R (Contract.throwIf p r : Contract ε σ err Unit) :=
  have : Respects e R (Contract.pure () : Contract ε σ err Unit) := Respects.pure
  Respects.ite

instance trapUnless {p : Prop} [Decidable p] :
    Respects e R (Contract.trapUnless p : Contract ε σ err Unit) :=
  have : Respects e R (Contract.pure () : Contract ε σ err Unit) := Respects.pure
  Respects.ite

instance okOr {o : Option α} {r : err} :
    Respects e R (Contract.okOr o r : Contract ε σ err α) := by
  cases o
  · exact Respects.fail
  · exact Respects.pure

/-- A function of the current world that is the same in related worlds. -/
theorem getWorld {σ α : Type u} {R : σ → σ → Prop} {f : σ → Contract ε σ err α}
    (hf : ∀ {s s'}, R s s' → f s = f s') (h : ∀ s, Respects e R (f s)) :
    Respects e R (Contract.getWorld >>= f : Contract ε σ err α) where
  alike {s s'} hR := by
    change Alike R (f s e s) (f s' e s')
    rw [← hf hR]
    exact (h s).alike hR

/-- A read whose result is the same in related worlds. -/
theorem read {σ α : Type u} {R : σ → σ → Prop} {g : σ → α} (hg : ∀ {s s'}, R s s' → g s = g s') :
    Respects e R (Contract.getWorld >>= fun s => Pure.pure (g s) : Contract ε σ err α) :=
  .getWorld (fun h => congrArg Pure.pure (hg h)) fun _ => inferInstance

/-- An update that keeps worlds related. -/
theorem modifyWorld {f : ε → σ → σ} (hf : ∀ {s s'}, R s s' → R (f e s) (f e s')) :
    Respects e R (Contract.modifyWorld f : Contract ε σ err Unit) :=
  ⟨fun h => ⟨rfl, hf h⟩⟩

instance bind {x : Contract ε σ err α} {f : α → Contract ε σ err β} [hx : Respects e R x]
    [hf : ∀ a, Respects e R (f a)] : Respects e R (x >>= f) where
  alike {s s'} h := by
    have hxs := hx.alike h
    simp only [Bind.bind, Contract.bind]
    rcases hs : x e s with _ | ⟨_ | a, t⟩ <;> rcases hs' : x e s' with _ | ⟨_ | a', t'⟩ <;>
      rw [hs, hs'] at hxs
    case none.none => trivial
    case some.error.some.error =>
      obtain ⟨heq, ht⟩ := hxs
      exact ⟨congrArg Except.error (Except.error.inj heq), ht⟩
    case some.ok.some.ok =>
      obtain ⟨heq, ht⟩ := hxs
      obtain rfl := Except.ok.inj heq
      exact (hf a).alike ht
    all_goals first | exact hxs.elim | cases hxs.1

/-- The rule for a sequence, to be applied where the rest of the function is a `match`. -/
theorem andThen {x : Contract ε σ err α} {f : α → Contract ε σ err β} (_ : Respects e R x)
    (_ : ∀ a, Respects e R (f a)) : Respects e R (x >>= f) := inferInstance

section

variable {x : Contract ε σ err α} {a : α}

/-- What returns in one world returns the same in a related one. -/
theorem returns (hx : Respects e R x) (hR : R s s') (h : x.Returns e s a t) :
    ∃ t', x.Returns e s' a t' ∧ R t t' := by
  have halike := hx.alike hR
  rw [show x e s = some (.ok a, t) from h] at halike
  rcases hs' : x e s' with _ | ⟨r, t'⟩
  · rw [hs'] at halike
    exact halike.elim
  · rw [hs'] at halike
    obtain ⟨rfl, ht⟩ := halike
    exact ⟨t', hs', ht⟩

/-- Runs in related worlds fail alike. -/
theorem failure_eq (hx : Respects e R x) (hR : R s s') : x.failure e s = x.failure e s' := by
  have halike := hx.alike hR
  unfold failure
  rcases hs : x e s with _ | ⟨_ | a, t⟩ <;> rcases hs' : x e s' with _ | ⟨_ | a', t'⟩ <;>
    rw [hs, hs'] at halike
  case some.error.some.error => rw [Except.error.inj halike.1]
  all_goals first | exact halike.elim | cases halike.1

end

end Respects

end StellarForge.Soroban.Contract
