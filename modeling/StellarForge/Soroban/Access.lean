import StellarForge.Soroban.Contract

/-!
# Access to a part of the world

A run overlooks a part of the world when it neither reads nor writes it: with any other content in its
place, it ends in the same way and leaves that content.  A run that does not overlook the part has
accessed it.

`AccountsAt p may G x e s` says that the run of `x` from `s` overlooks the part `p`, or, where it may,
leaves a content of which `G` holds.  Both alternatives keep `G`, so that this is closed under
sequences, and follows from the structure of `x` (`Accounts`).
-/

namespace StellarForge.Soroban

/-- A part of a state, which can be replaced. -/
structure Part (σ ι : Type*) where
  get : σ → ι
  put : ι → σ → σ
  put_get : ∀ s, put (get s) s = s
  get_put : ∀ i s, get (put i s) = i

namespace Contract

universe u

variable {ε σ err ι : Type*} {α β : Type u}

/-- The run neither reads nor writes the part. -/
def Overlooks (p : Part σ ι) (x : Contract ε σ err α) (e : ε) (s : σ) : Prop :=
  ∀ i, x e (p.put i s) = (x e s).map fun o => (o.1, p.put i o.2)

/-- The run reads or writes the part. -/
def Accesses (p : Part σ ι) (x : Contract ε σ err α) (e : ε) (s : σ) : Prop := ¬ Overlooks p x e s

/-- If the run does not trap, `G` holds of the part at its end. -/
def Leaves (p : Part σ ι) (G : ε → ι → Prop) (x : Contract ε σ err α) (e : ε) (s : σ) : Prop :=
  ∀ r s', x e s = some (r, s') → G e (p.get s')

/-- From this state, the program overlooks the part, or may look at it and leaves it with `G`. -/
def AccountsAt (p : Part σ ι) (may : Prop) (G : ε → ι → Prop) (x : Contract ε σ err α) (e : ε)
    (s : σ) : Prop :=
  Overlooks p x e s ∨ may ∧ Leaves p G x e s

variable {p : Part σ ι} {may : Prop} {G : ε → ι → Prop} {x : Contract ε σ err α}
  {f : α → Contract ε σ err β} {e : ε} {s s' : σ} {r : Except err α} {E : ε → Prop}

/-- What is overlooked is not changed. -/
theorem Overlooks.get_eq (h : Overlooks p x e s) (hrun : x e s = some (r, s')) :
    p.get s' = p.get s := by
  have hsame := h (p.get s)
  rw [p.put_get, hrun, Option.map_some, Option.some.injEq, Prod.mk.injEq] at hsame
  rw [hsame.2]
  exact p.get_put _ _

theorem AccountsAt.leaves (h : AccountsAt p may G x e s) (hs : G e (p.get s)) :
    Leaves p G x e s := by
  rcases h with h | ⟨-, h⟩
  · intro r s' hrun
    rw [h.get_eq hrun]
    exact hs
  · exact h

theorem AccountsAt.leaves_of_accesses (h : AccountsAt p may G x e s) (haccesses : Accesses p x e s) :
    Leaves p G x e s := by
  rcases h with h | ⟨-, h⟩
  · exact absurd h haccesses
  · exact h

/-! ### Sequences -/

theorem Overlooks.bind (hx : Overlooks p x e s)
    (hf : ∀ a s', x.Returns e s a s' → Overlooks p (f a) e s') : Overlooks p (x >>= f) e s := by
  intro i
  simp only [Bind.bind, Contract.bind, hx i]
  rcases hrun : x e s with _ | ⟨_ | a, s'⟩
  · rfl
  · rfl
  · exact hf a s' hrun i

/-- A sequence leaves what its parts do. -/
theorem Leaves.bind (hx : Leaves p G x e s)
    (hf : ∀ a s', x.Returns e s a s' → G e (p.get s') → Leaves p G (f a) e s') :
    Leaves p G (x >>= f) e s := by
  intro r s₁ h
  simp only [Bind.bind, Contract.bind] at h
  split at h
  · next a s' hrun => exact hf a s' hrun (hx _ _ hrun) _ _ h
  · next r' s' hrun =>
    obtain ⟨-, rfl⟩ := Prod.mk.inj (Option.some.inj h)
    exact hx _ _ hrun
  · cases h

/-- A sequence accounts for the part when its parts do. -/
theorem AccountsAt.bind (hx : AccountsAt p may G x e s)
    (hf : ∀ a s', x.Returns e s a s' → AccountsAt p may G (f a) e s') :
    AccountsAt p may G (x >>= f) e s := by
  rcases hx with hx | ⟨hmay, hx⟩
  · -- what the rest does is decided by the one state in which it starts
    rcases hrun : x e s with _ | ⟨r | a, s'⟩
    · refine .inl (hx.bind fun a s' h => ?_)
      rw [Returns, hrun] at h
      cases h
    · refine .inl (hx.bind fun a s' h => ?_)
      rw [Returns, hrun] at h
      cases h
    · rcases hf a s' hrun with hrest | ⟨hmay, hrest⟩
      · refine .inl (hx.bind fun b t h => ?_)
        obtain ⟨rfl, rfl⟩ := Returns.unique hrun h
        exact hrest
      · refine .inr ⟨hmay, fun r t h => ?_⟩
        have hbind : (x >>= f) e s = f a e s' := Returns.bind_eq hrun
        rw [hbind] at h
        exact hrest r t h
  · exact .inr ⟨hmay, hx.bind fun a s' hrun hs' => (hf a s' hrun).leaves hs'⟩

/-! ### Functions that account for a part wherever they start -/

/-- `AccountsAt` from every state, in the environments `E`. -/
class Accounts (E : ε → Prop) (p : Part σ ι) (may : Prop) (G : ε → ι → Prop)
    (x : Contract ε σ err α) : Prop where
  accountsAt : ∀ {e s}, E e → AccountsAt p may G x e s

namespace Accounts

instance bind [hx : Accounts E p may G x] [hf : ∀ a, Accounts E p may G (f a)] :
    Accounts E p may G (x >>= f) where
  accountsAt he := (hx.accountsAt he).bind fun a _ _ => (hf a).accountsAt he

/-- The rule for a sequence, to be applied where the rest of the function is a `match`. -/
theorem andThen (_ : Accounts E p may G x) (_ : ∀ a, Accounts E p may G (f a)) :
    Accounts E p may G (x >>= f) := inferInstance

theorem ofOverlooks (h : ∀ e s, E e → Overlooks p x e s) : Accounts E p may G x :=
  ⟨fun he => .inl (h _ _ he)⟩

instance pure {a : α} : Accounts E p may G (Pure.pure a : Contract ε σ err α) :=
  ofOverlooks fun _ _ _ _ => rfl

instance fail {r : err} : Accounts E p may G (Contract.fail r : Contract ε σ err α) :=
  ofOverlooks fun _ _ _ _ => rfl

instance trap : Accounts E p may G (Contract.trap : Contract ε σ err α) :=
  ofOverlooks fun _ _ _ _ => rfl

instance getEnv : Accounts E p may G (Contract.getEnv : Contract ε σ err ε) :=
  ofOverlooks fun _ _ _ _ => rfl

instance ite {c : Prop} [Decidable c] {x y : Contract ε σ err α} [hx : Accounts E p may G x]
    [hy : Accounts E p may G y] : Accounts E p may G (if c then x else y) := by
  split_ifs
  · exact hx
  · exact hy

instance throwIf {c : Prop} [Decidable c] {r : err} :
    Accounts E p may G (Contract.throwIf c r : Contract ε σ err Unit) :=
  have : Accounts E p may G (Contract.pure () : Contract ε σ err Unit) := pure
  ite

instance trapUnless {c : Prop} [Decidable c] :
    Accounts E p may G (Contract.trapUnless c : Contract ε σ err Unit) :=
  have : Accounts E p may G (Contract.pure () : Contract ε σ err Unit) := pure
  ite

instance okOr {o : Option α} {r : err} :
    Accounts E p may G (Contract.okOr o r : Contract ε σ err α) := by
  cases o
  · exact fail
  · exact pure

instance attempt [hx : Accounts E p may G x] : Accounts E p may G x.attempt where
  accountsAt {e s} he := by
    rcases hx.accountsAt (s := s) he with h | ⟨hmay, h⟩
    · left
      intro i
      unfold Contract.attempt
      rw [h i, Option.map_map, Option.map_map]
      rfl
    · refine .inr ⟨hmay, fun r s' hrun => ?_⟩
      simp only [Contract.attempt, Option.map_eq_some_iff, Prod.mk.injEq] at hrun
      obtain ⟨⟨r', t⟩, hrun, -, rfl⟩ := hrun
      exact h r' t hrun

/-- An update that commutes with the replacement, or makes `G` hold. -/
theorem modifyWorld {g : ε → σ → σ}
    (h : ∀ e s, (∀ i, g e (p.put i s) = p.put i (g e s)) ∨ may ∧ G e (p.get (g e s))) :
    Accounts E p may G (Contract.modifyWorld g : Contract ε σ err Unit) where
  accountsAt {e s} _ := by
    rcases h e s with h | ⟨hmay, h⟩
    · left
      intro i
      unfold Contract.modifyWorld
      rw [h i, Option.map_some]
    · refine .inr ⟨hmay, fun r s' hrun => ?_⟩
      obtain ⟨-, rfl⟩ := Prod.mk.inj (Option.some.inj hrun)
      exact h

/-- A look at the rest of the state. -/
theorem read {σ : Type u} {p : Part σ ι} {f : σ → Contract ε σ err β}
    (hf : ∀ s, Accounts E p may G (f s)) (hcongr : ∀ i s, f (p.put i s) = f s) :
    Accounts E p may G ((Contract.getWorld : Contract ε σ err σ) >>= f) where
  accountsAt {e s} he := by
    rcases (hf s).accountsAt (s := s) he with h | ⟨hmay, h⟩
    · left
      intro i
      show f (p.put i s) e (p.put i s) = _
      rw [hcongr]
      exact h i
    · exact .inr ⟨hmay, h⟩

end Accounts

end Contract

end StellarForge.Soroban
