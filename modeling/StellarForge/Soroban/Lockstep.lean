import StellarForge.Soroban.Contract

/-!
# Two runs in lockstep

`Couples e R x S` says that two runs of `x`, started in worlds that `R` relates, cannot be told apart: both
trap, both return the same error, or both return the same value and leave worlds that `S` relates.  What an
error leaves behind is not compared, since the host rolls it back.  `Lockstep e R x` is the case of one
relation, and follows from the structure of `x`.

* `Couples.bind`, `Couples.attempt`: the rules for a sequence, and for a function whose error is handled;
* `Matches.outcome_eq`: what matches is the same to the caller;
* `Matches.exists_returns`: what returns in one world returns the same in the other.
-/

namespace StellarForge.Soroban.Contract

universe u

variable {ε σ err : Type*} {α β : Type u} {e : ε} {R S T : σ → σ → Prop} {s s' t : σ}

/-- Two ends of a run that the caller cannot tell apart. -/
def Matches (S : σ → σ → Prop) : Option (Except err α × σ) → Option (Except err α × σ) → Prop
  | some (.ok a, s), some (.ok a', s') => a = a' ∧ S s s'
  | some (.error r, _), some (.error r', _) => r = r'
  | none, none => True
  | _, _ => False

/-- Two runs of `x` from worlds related by `R` end in worlds related by `S`, or fail the same way. -/
def Couples (e : ε) (R : σ → σ → Prop) (x : Contract ε σ err α) (S : σ → σ → Prop) : Prop :=
  ∀ s s', R s s' → Matches S (x e s) (x e s')

/-- The worlds stay related. -/
class Lockstep (e : ε) (R : σ → σ → Prop) (x : Contract ε σ err α) : Prop where
  couples : Couples e R x R

namespace Matches

variable {o o' : Option (Except err α × σ)} {a : α}

/-- The caller sees the same end. -/
theorem outcome_eq (h : Matches S o o') : o.map Prod.fst = o'.map Prod.fst := by
  rcases o with _ | ⟨r | a, t⟩ <;> rcases o' with _ | ⟨r' | a', t'⟩
  case none.none => rfl
  case some.error.some.error => exact congrArg (fun r => some (Except.error r)) h
  case some.ok.some.ok => exact congrArg (fun a => some (Except.ok a)) h.1
  all_goals exact h.elim

/-- If the one returns, so does the other. -/
theorem exists_returns (h : Matches S (some (.ok a, t)) o') : ∃ t', o' = some (.ok a, t') ∧ S t t' := by
  rcases o' with _ | ⟨r' | a', t'⟩
  case some.ok =>
    obtain ⟨rfl, ht⟩ := h
    exact ⟨t', rfl, ht⟩
  all_goals exact h.elim

end Matches

namespace Couples

variable {x : Contract ε σ err α} {f : α → Contract ε σ err β} {a : α}

/-- The rule of consequence. -/
theorem mono {R' S' : σ → σ → Prop} (h : Couples e R x S) (hR : ∀ s s', R' s s' → R s s')
    (hS : ∀ s s', S s s' → S' s s') : Couples e R' x S' := by
  intro s s' hs
  have hx := h s s' (hR s s' hs)
  rcases hl : x e s with _ | ⟨_ | a, t⟩ <;> rcases hr : x e s' with _ | ⟨_ | a', t'⟩ <;>
    rw [hl, hr] at hx
  case none.none => trivial
  case some.error.some.error => exact hx
  case some.ok.some.ok => exact ⟨hx.1, hS t t' hx.2⟩
  all_goals exact hx.elim

/-- **The rule for a sequence.** -/
theorem bind (hx : Couples e R x S) (hf : ∀ a, Couples e S (f a) T) : Couples e R (x >>= f) T := by
  intro s s' hs
  have hstep := hx s s' hs
  simp only [Bind.bind, Contract.bind]
  rcases hl : x e s with _ | ⟨_ | a, t⟩ <;> rcases hr : x e s' with _ | ⟨_ | a', t'⟩ <;>
    rw [hl, hr] at hstep
  case none.none => trivial
  case some.error.some.error => exact hstep
  case some.ok.some.ok =>
    obtain ⟨rfl, ht⟩ := hstep
    exact hf a t t' ht
  all_goals exact hstep.elim

/-- **The rule for a function whose error is handled.**  After an error nothing is known of the worlds. -/
theorem attempt {err α β : Type u} {x : Contract ε σ err α} {f : Except err α → Contract ε σ err β}
    (hx : Couples e R x S)
    (hok : ∀ a, Couples e S (f (.ok a)) T)
    (herror : ∀ r, Couples e (fun _ _ => True) (f (.error r)) T) :
    Couples e R (x.attempt >>= f) T := by
  intro s s' hs
  have hstep := hx s s' hs
  simp only [Bind.bind, Contract.bind, Contract.attempt]
  rcases hl : x e s with _ | ⟨r | a, t⟩ <;> rcases hr : x e s' with _ | ⟨r' | a', t'⟩ <;>
    rw [hl, hr] at hstep
  case none.none => trivial
  case some.error.some.error =>
    have hsame : r = r' := hstep
    obtain rfl := hsame
    exact herror r t t' trivial
  case some.ok.some.ok =>
    obtain ⟨rfl, ht⟩ := hstep
    exact hok a t t' ht
  all_goals exact hstep.elim

/-- A function that always fails with the same error. -/
theorem of_throws {r : err} (h : ∀ s, ∃ t, x.Throws e s r t) : Couples e R x S := by
  intro s s' _
  obtain ⟨t, ht⟩ := h s
  obtain ⟨t', ht'⟩ := h s'
  rw [show x e s = some (.error r, t) from ht, show x e s' = some (.error r, t') from ht']
  rfl

end Couples

namespace Lockstep

variable {x : Contract ε σ err α} {f : α → Contract ε σ err β}

instance pure {a : α} : Lockstep e R (Pure.pure a : Contract ε σ err α) := ⟨fun _ _ h => ⟨rfl, h⟩⟩

instance fail {r : err} : Lockstep e R (Contract.fail r : Contract ε σ err α) := ⟨fun _ _ _ => rfl⟩

instance trap : Lockstep e R (Contract.trap : Contract ε σ err α) := ⟨fun _ _ _ => trivial⟩

instance getEnv : Lockstep e R (Contract.getEnv : Contract ε σ err ε) := ⟨fun _ _ h => ⟨rfl, h⟩⟩

instance ite {p : Prop} [Decidable p] {x y : Contract ε σ err α} [hx : Lockstep e R x]
    [hy : Lockstep e R y] : Lockstep e R (if p then x else y) := by
  split_ifs
  · exact hx
  · exact hy

instance throwIf {p : Prop} [Decidable p] {r : err} :
    Lockstep e R (Contract.throwIf p r : Contract ε σ err Unit) :=
  have : Lockstep e R (Contract.pure () : Contract ε σ err Unit) := Lockstep.pure
  Lockstep.ite

instance trapUnless {p : Prop} [Decidable p] :
    Lockstep e R (Contract.trapUnless p : Contract ε σ err Unit) :=
  have : Lockstep e R (Contract.pure () : Contract ε σ err Unit) := Lockstep.pure
  Lockstep.ite

instance okOr {o : Option α} {r : err} : Lockstep e R (Contract.okOr o r : Contract ε σ err α) := by
  cases o
  · exact Lockstep.fail
  · exact Lockstep.pure

instance bind [hx : Lockstep e R x] [hf : ∀ a, Lockstep e R (f a)] : Lockstep e R (x >>= f) :=
  ⟨hx.couples.bind fun a => (hf a).couples⟩

/-- The rule for a sequence, to be applied where the rest of the function is a `match`. -/
theorem andThen (_ : Lockstep e R x) (_ : ∀ a, Lockstep e R (f a)) : Lockstep e R (x >>= f) :=
  inferInstance

/-- A function of the current world that is the same in related worlds. -/
theorem getWorld {σ α : Type u} {R : σ → σ → Prop} {f : σ → Contract ε σ err α}
    (hf : ∀ {s s'}, R s s' → f s = f s') (h : ∀ s, Lockstep e R (f s)) :
    Lockstep e R (Contract.getWorld >>= f : Contract ε σ err α) := by
  refine ⟨fun s s' hs => ?_⟩
  show Matches R (f s e s) (f s' e s')
  rw [← hf hs]
  exact (h s).couples s s' hs

/-- A read whose result is the same in related worlds. -/
theorem read {σ α : Type u} {R : σ → σ → Prop} {g : σ → α} (hg : ∀ {s s'}, R s s' → g s = g s') :
    Lockstep e R (Contract.getWorld >>= fun s => Pure.pure (g s) : Contract ε σ err α) :=
  .getWorld (fun hs => congrArg Pure.pure (hg hs)) fun _ => inferInstance

/-- An update that keeps worlds related. -/
theorem modifyWorld {f : ε → σ → σ} (hf : ∀ {s s'}, R s s' → R (f e s) (f e s')) :
    Lockstep e R (Contract.modifyWorld f : Contract ε σ err Unit) := ⟨fun _ _ hs => ⟨rfl, hf hs⟩⟩

end Lockstep

end StellarForge.Soroban.Contract
