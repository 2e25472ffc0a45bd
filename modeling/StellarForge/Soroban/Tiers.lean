import StellarForge.Soroban.Storage

/-!
# Moving entries from the instance tier to the persistent tier

A contract that gives up the instance tier leaves old entries there and moves each of them when it
next has to do with it.  `Settles k s s'` says that this is all that has happened to the entry of `k`,
so that its abstract record is unchanged (`Settles.lookup_eq`).  `Single k s` says that the entry lies
in one tier only; otherwise a late move would write an old value over a newer one.

* `settles_moveUp`: moving the entry of a key settles every entry that lies in one tier;
* `Settles.single`: an entry that settles stays in one tier.
-/

namespace StellarForge.Soroban.Storage

variable {κ : Type*} {V : κ → Type*}

/-- The entry of `k` has stayed where it was, or has moved to the persistent tier. -/
inductive Settles (k : κ) (s s' : Storage κ V) : Prop
  | same (persistent : s'.persistent k = s.persistent k) (inst : s'.inst k = s.inst k)
  | moved (persistent : s'.persistent k = s.lookup k) (inst : s'.inst k = none)

/-- The entry of `k` does not lie in both tiers. -/
def Single (k : κ) (s : Storage κ V) : Prop :=
  ∀ v, s.inst k = some v → s.persistent k = none

variable {s s' s₃ : Storage κ V} {k : κ}

theorem lookup_of_inst_none (h : s.inst k = none) : s.lookup k = s.persistent k := by
  rw [lookup, h]
  cases s.persistent k <;> rfl

theorem lookup_of_persistent_none (h : s.persistent k = none) : s.lookup k = s.inst k := by
  rw [lookup, h]
  rfl

theorem lookup_of_persistent {v : V k} (h : s.persistent k = some v) : s.lookup k = some v := by
  rw [lookup, h]
  rfl

theorem lookup_congr (hpersistent : s'.persistent k = s.persistent k) (hinst : s'.inst k = s.inst k) :
    s'.lookup k = s.lookup k := by
  rw [lookup, lookup, hpersistent, hinst]

namespace Settles

theorem refl (s : Storage κ V) : Settles k s s := .same rfl rfl

/-- The abstract record is the same. -/
theorem lookup_eq (h : Settles k s s') : s'.lookup k = s.lookup k := by
  cases h with
  | same hpersistent hinst => exact lookup_congr hpersistent hinst
  | moved hpersistent hinst => rw [lookup_of_inst_none hinst, hpersistent]

theorem trans (h : Settles k s s') (h' : Settles k s' s₃) : Settles k s s₃ := by
  cases h' with
  | same hpersistent' hinst' =>
    cases h with
    | same hpersistent hinst => exact .same (hpersistent'.trans hpersistent) (hinst'.trans hinst)
    | moved hpersistent hinst => exact .moved (hpersistent'.trans hpersistent) (hinst'.trans hinst)
  | moved hpersistent' hinst' => exact .moved (hpersistent'.trans h.lookup_eq) hinst'

/-- What is in the instance tier now was there before. -/
theorem inst_of_some {v : V k} (h : Settles k s s') (hv : s'.inst k = some v) :
    s.inst k = some v ∧ s'.persistent k = s.persistent k := by
  cases h with
  | same hpersistent hinst => exact ⟨hinst.symm.trans hv, hpersistent⟩
  | moved _ hinst => simp [hinst] at hv

theorem single (h : Settles k s s') (hs : Single k s) : Single k s' := by
  intro v hv
  obtain ⟨hold, hpersistent⟩ := h.inst_of_some hv
  rw [hpersistent, hs v hold]

end Settles

/-! ### One move -/

variable [DecidableEq κ] {k' : κ} {v : V k'} {now m t x : ℕ}

/-- Move the entry of `k` to the persistent tier, if it lies in the instance tier. -/
def moveUp (now m t x : ℕ) (k : κ) (s : Storage κ V) : Storage κ V :=
  match s.inst k with
  | some v => ((s.setPersistent now m k v).extendTtl now t x k).removeInst k
  | none => s

theorem moveUp_of_none (h : s.inst k = none) : s.moveUp now m t x k = s := by
  rw [moveUp, h]

theorem moveUp_of_some {v : V k} (h : s.inst k = some v) :
    s.moveUp now m t x k = ((s.setPersistent now m k v).extendTtl now t x k).removeInst k := by
  rw [moveUp, h]

/-- A write of another key leaves the entry alone. -/
theorem settles_setPersistent (h : k ≠ k') : Settles k s (s.setPersistent now m k' v) :=
  .same (persistent_setPersistent_of_ne h) inst_setPersistent

theorem settles_setInst (h : k ≠ k') : Settles k s (s.setInst k' v) :=
  .same persistent_setInst (inst_setInst_of_ne h)

theorem settles_removeInst (h : k ≠ k') : Settles k s (s.removeInst k') :=
  .same persistent_removeInst (inst_removeInst_of_ne h)

theorem settles_removePersistent (h : k ≠ k') : Settles k s (s.removePersistent k') :=
  .same (persistent_removePersistent_of_ne h) inst_removePersistent

theorem settles_extendTtl : Settles k s (s.extendTtl now t x k') :=
  .same persistent_extendTtl inst_extendTtl

omit [DecidableEq κ] in
theorem settles_extendInstTtl : Settles k s (s.extendInstTtl now t x) :=
  .same persistent_extendInstTtl inst_extendInstTtl

theorem inst_moveUp_self : (s.moveUp now m t x k).inst k = none := by
  rcases h : s.inst k with _ | v
  · rw [moveUp_of_none h, h]
  · rw [moveUp_of_some h, inst_removeInst_self]

theorem inst_moveUp_of_ne (h : k ≠ k') : (s.moveUp now m t x k').inst k = s.inst k := by
  rcases hv : s.inst k' with _ | v
  · rw [moveUp_of_none hv]
  · rw [moveUp_of_some hv, inst_removeInst_of_ne h, inst_extendTtl, inst_setPersistent]

/-- **A move settles every entry**, its own where it lies in one tier. -/
theorem settles_moveUp (h : k = k' → Single k s) : Settles k s (s.moveUp now m t x k') := by
  rcases hv : s.inst k' with _ | v
  · rw [moveUp_of_none hv]
    exact .refl s
  · rw [moveUp_of_some hv]
    by_cases hk : k = k'
    · subst hk
      have hnone : s.persistent k = none := h rfl v hv
      refine .moved ?_ inst_removeInst_self
      rw [persistent_removeInst, persistent_extendTtl, persistent_setPersistent_self,
        lookup_of_persistent_none hnone, hv]
    · exact ((settles_setPersistent hk).trans settles_extendTtl).trans (settles_removeInst hk)

end StellarForge.Soroban.Storage
