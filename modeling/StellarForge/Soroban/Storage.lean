import Mathlib.Logic.Function.Basic
import Mathlib.Tactic.Common

/-!
# Contract storage: the instance entry and the persistent entries

A contract owns two tiers of storage.  The instance tier is one ledger entry with one live-until
ledger; the persistent tier holds one ledger entry, with its own live-until ledger, for each key.
`Storage κ V` is both tiers over a type `κ` of keys, the value under a key `k` having type `V k`.

Reading a key never depends on writes to other keys: each operation has a lemma for the key it
writes and one for every other key, both `simp`, and `lookup` is the abstract record of a key,
the persistent value if there is one and the instance value otherwise.
-/

namespace StellarForge.Soroban

/-- The storage of one contract over the keys `κ` with values `V k`. -/
structure Storage (κ : Type*) (V : κ → Type*) where
  /-- The value of each persistent entry, `none` where there is no entry. -/
  persistent : (k : κ) → Option (V k)
  /-- The live-until ledger of each persistent entry (meaningless where there is no entry). -/
  liveUntil : κ → ℕ
  /-- The value of each key of the instance entry. -/
  inst : (k : κ) → Option (V k)
  /-- The live-until ledger of the instance entry. -/
  instLiveUntil : ℕ

namespace Storage

variable {κ : Type*} {V : κ → Type*}

/-- The storage of a contract that has written nothing. -/
def empty : Storage κ V := ⟨fun _ => none, fun _ => 0, fun _ => none, 0⟩

/-- The abstract record of a key: its persistent value if present, else its instance value. -/
def lookup (s : Storage κ V) (k : κ) : Option (V k) := s.persistent k <|> s.inst k

/-- Raise the live-until ledger of the instance entry to `now + extendTo` when fewer than
`threshold` ledgers remain. -/
def extendInstTtl (now threshold extendTo : ℕ) (s : Storage κ V) : Storage κ V :=
  { s with
    instLiveUntil :=
      if s.instLiveUntil < now + threshold then now + extendTo else s.instLiveUntil }

section

variable {s : Storage κ V} {k : κ} {now t x : ℕ}

@[simp] theorem persistent_empty : (empty : Storage κ V).persistent k = none := rfl

@[simp] theorem inst_empty : (empty : Storage κ V).inst k = none := rfl

@[simp] theorem persistent_extendInstTtl :
    (s.extendInstTtl now t x).persistent k = s.persistent k := rfl

@[simp] theorem inst_extendInstTtl : (s.extendInstTtl now t x).inst k = s.inst k := rfl

end

variable [DecidableEq κ]

/-- Write a persistent entry.  A new entry lives for `minTtl` ledgers, an entry that exists keeps
its live-until ledger. -/
def setPersistent (now minTtl : ℕ) (k : κ) (v : V k) (s : Storage κ V) : Storage κ V :=
  { s with
    persistent := Function.update s.persistent k (some v)
    liveUntil :=
      if (s.persistent k).isSome then s.liveUntil
      else Function.update s.liveUntil k (now + minTtl - 1) }

/-- Raise the live-until ledger of a persistent entry to `now + extendTo` when fewer than
`threshold` ledgers remain. -/
def extendTtl (now threshold extendTo : ℕ) (k : κ) (s : Storage κ V) : Storage κ V :=
  { s with
    liveUntil := Function.update s.liveUntil k
      (if s.liveUntil k < now + threshold then now + extendTo else s.liveUntil k) }

/-- Delete a persistent entry. -/
def removePersistent (k : κ) (s : Storage κ V) : Storage κ V :=
  { s with persistent := Function.update s.persistent k none }

/-- Write a key of the instance entry. -/
def setInst (k : κ) (v : V k) (s : Storage κ V) : Storage κ V :=
  { s with inst := Function.update s.inst k (some v) }

/-- Delete a key of the instance entry. -/
def removeInst (k : κ) (s : Storage κ V) : Storage κ V :=
  { s with inst := Function.update s.inst k none }

variable {s : Storage κ V} {k k' : κ} {v : V k} {now m t x : ℕ}

/-! ### Reading the persistent tier -/

@[simp] theorem persistent_setPersistent_self :
    (s.setPersistent now m k v).persistent k = some v :=
  Function.update_self ..

@[simp] theorem persistent_setPersistent_of_ne (h : k' ≠ k) :
    (s.setPersistent now m k v).persistent k' = s.persistent k' :=
  Function.update_of_ne h ..

@[simp] theorem persistent_removePersistent_self : (s.removePersistent k).persistent k = none :=
  Function.update_self ..

@[simp] theorem persistent_removePersistent_of_ne (h : k' ≠ k) :
    (s.removePersistent k).persistent k' = s.persistent k' :=
  Function.update_of_ne h ..

@[simp] theorem persistent_extendTtl : (s.extendTtl now t x k).persistent k' = s.persistent k' :=
  rfl

@[simp] theorem persistent_setInst : (s.setInst k v).persistent k' = s.persistent k' := rfl

@[simp] theorem persistent_removeInst : (s.removeInst k).persistent k' = s.persistent k' := rfl

/-! ### Reading the instance tier -/

@[simp] theorem inst_setInst_self : (s.setInst k v).inst k = some v := Function.update_self ..

@[simp] theorem inst_setInst_of_ne (h : k' ≠ k) : (s.setInst k v).inst k' = s.inst k' :=
  Function.update_of_ne h ..

@[simp] theorem inst_removeInst_self : (s.removeInst k).inst k = none := Function.update_self ..

@[simp] theorem inst_removeInst_of_ne (h : k' ≠ k) : (s.removeInst k).inst k' = s.inst k' :=
  Function.update_of_ne h ..

@[simp] theorem inst_setPersistent : (s.setPersistent now m k v).inst k' = s.inst k' := rfl

@[simp] theorem inst_removePersistent : (s.removePersistent k).inst k' = s.inst k' := rfl

@[simp] theorem inst_extendTtl : (s.extendTtl now t x k).inst k' = s.inst k' := rfl

end Storage

end StellarForge.Soroban
