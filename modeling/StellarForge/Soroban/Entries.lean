import StellarForge.Soroban.Storage

/-!
# Replacing a persistent entry

`putEntry k i` is the storage with the entry `i`, a value and its live-until ledger, under the key `k`.
It commutes with every operation that is not about the persistent entry of `k`.
-/

namespace StellarForge.Soroban.Storage

variable {κ : Type*} {V : κ → Type*} [DecidableEq κ]

/-- An entry is replaced, with the ledger that it lives until. -/
def putEntry (k : κ) (i : Option (V k) × ℕ) (s : Storage κ V) : Storage κ V :=
  { s with
    persistent := Function.update s.persistent k i.1
    liveUntil := Function.update s.liveUntil k i.2 }

variable {s : Storage κ V} {k k' : κ} {i : Option (V k) × ℕ} {v : V k'} {now m t x : ℕ}

@[simp] theorem persistent_putEntry_self : (s.putEntry k i).persistent k = i.1 :=
  Function.update_self ..

@[simp] theorem liveUntil_putEntry_self : (s.putEntry k i).liveUntil k = i.2 :=
  Function.update_self ..

theorem persistent_putEntry_of_ne (h : k' ≠ k) :
    (s.putEntry k i).persistent k' = s.persistent k' :=
  Function.update_of_ne h ..

theorem liveUntil_putEntry_of_ne (h : k' ≠ k) : (s.putEntry k i).liveUntil k' = s.liveUntil k' :=
  Function.update_of_ne h ..

@[simp] theorem inst_putEntry : (s.putEntry k i).inst k' = s.inst k' := rfl

theorem putEntry_eq_self : s.putEntry k (s.persistent k, s.liveUntil k) = s := by
  rw [putEntry, Function.update_eq_self, Function.update_eq_self]

theorem lookup_putEntry_of_ne (h : k' ≠ k) : (s.putEntry k i).lookup k' = s.lookup k' := by
  rw [lookup, lookup, persistent_putEntry_of_ne h, inst_putEntry]

/-! ### Operations on other keys -/

theorem setPersistent_putEntry (h : k' ≠ k) : (s.putEntry k i).setPersistent now m k' v =
    (s.setPersistent now m k' v).putEntry k i := by
  unfold setPersistent
  rw [persistent_putEntry_of_ne h]
  unfold putEntry
  dsimp only
  rw [Function.update_comm h]
  split_ifs with hsome
  · rfl
  · rw [Function.update_comm h]

theorem extendTtl_putEntry (h : k' ≠ k) :
    (s.putEntry k i).extendTtl now t x k' = (s.extendTtl now t x k').putEntry k i := by
  unfold extendTtl
  rw [liveUntil_putEntry_of_ne h]
  unfold putEntry
  dsimp only
  rw [Function.update_comm h]

theorem removePersistent_putEntry (h : k' ≠ k) :
    (s.putEntry k i).removePersistent k' = (s.removePersistent k').putEntry k i := by
  unfold removePersistent putEntry
  dsimp only
  rw [Function.update_comm h]

/-! ### The lifetime after an extension -/

theorem liveUntil_extendTtl_self :
    (s.extendTtl now t x k).liveUntil k =
      if s.liveUntil k < now + t then now + x else s.liveUntil k :=
  Function.update_self ..

/-- An extension beyond the threshold leaves at least the threshold. -/
theorem le_liveUntil_extendTtl (h : t ≤ x) : now + t ≤ (s.extendTtl now t x k).liveUntil k := by
  rw [liveUntil_extendTtl_self]
  split_ifs <;> omega

end StellarForge.Soroban.Storage
