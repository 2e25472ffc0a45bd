import StellarForge.Factory.Frames
import StellarForge.Factory.Properties.Histories

/-!
# Which calls to other contracts an entrypoint makes

`CallsOnly P w w'` says that the calls made between `w` and `w'` all satisfy `P`.  Two predicates are
followed through the entrypoints: `NotTransfer`, for the parts of a call that pay nothing, and
`NotUpgrade`, for every entrypoint but `execute_upgrade` (`Call.moves_notUpgrade`).
-/

namespace StellarForge.Factory

open Soroban Contract Transition

/-- The calls to other contracts between `w` and `w'` all satisfy `P`. -/
def CallsOnly (P : ExtCall → Prop) (w w' : World) : Prop :=
  ∃ new, w'.calls = w.calls ++ new ∧ ∀ c ∈ new, P c.1

/-- Not a transfer of the fee token. -/
def ExtCall.NotTransfer : ExtCall → Prop
  | .tryTransfer .. => False
  | _ => True

/-- Not a replacement of the factory's own code. -/
def ExtCall.NotUpgrade : ExtCall → Prop
  | .updateCurrentContractWasm _ => False
  | _ => True

section

variable {P : ExtCall → Prop} {w w' : World}

instance : Std.Refl (CallsOnly P) where
  refl w := ⟨[], (List.append_nil _).symm, by simp⟩

theorem CallsOnly.trans {w₃ : World} (h : CallsOnly P w w') (h' : CallsOnly P w' w₃) :
    CallsOnly P w w₃ := by
  obtain ⟨new, hnew, hP⟩ := h
  obtain ⟨new', hnew', hP'⟩ := h'
  exact ⟨new ++ new', by rw [hnew', hnew, List.append_assoc], List.forall_mem_append.mpr ⟨hP, hP'⟩⟩

instance : IsTrans World (CallsOnly P) where
  trans _ _ _ := .trans

theorem CallsOnly.of_eq (h : w'.calls = w.calls) : CallsOnly P w w' :=
  ⟨[], by rw [h, List.append_nil], by simp⟩

instance : OwnFrame (CallsOnly P) where
  own h := .of_eq h.1

instance : MayWrite (CallsOnly P) .state where
  setPersistent _ _ := .of_eq World.calls_setPersistent
  removePersistent := .of_eq World.calls_removePersistent
  setInst _ := .of_eq World.calls_setInst
  removeInst := .of_eq World.calls_removeInst

/-! ### Calls to other contracts -/

theorem CallsOnly.mayCall {c : ExtCall} (hc : P c) :
    MayCall (fun _ => True) (CallsOnly P) c where
  tryCall := by
    refine ⟨fun _ h => ?_⟩
    unfold tryCall at h
    split at h <;>
    · obtain ⟨-, rfl⟩ := Prod.mk.inj (Option.some.inj h)
      exact ⟨_, rfl, by simpa using hc⟩

/-- What a part of the contract that makes only calls within `P` has done. -/
theorem CallsOnly.of_returns {α : Type} {x : ContractM α} {env : Env} {a : α}
    [MovesIn (fun _ => True) (CallsOnly P) x] (h : x.Returns env w a w') : CallsOnly P w w' :=
  h.relIn (E := fun _ => True) trivial

end

/-! ### The two predicates -/

instance : CreationFrame (fun _ => True) (CallsOnly ExtCall.NotTransfer) where
  deploy _ _ _ := CallsOnly.mayCall trivial
  initToken _ _ _ _ _ := CallsOnly.mayCall trivial
  mint _ _ _ := CallsOnly.mayCall trivial

instance : CreationFrame (fun _ => True) (CallsOnly ExtCall.NotUpgrade) where
  deploy _ _ _ := CallsOnly.mayCall trivial
  initToken _ _ _ _ _ := CallsOnly.mayCall trivial
  mint _ _ _ := CallsOnly.mayCall trivial

instance : PaymentFrame (fun _ => True) (CallsOnly ExtCall.NotUpgrade) where
  tryTransfer _ _ _ _ := CallsOnly.mayCall trivial

instance : BurnFrame (fun _ => True) (CallsOnly ExtCall.NotUpgrade) where
  balance _ _ := CallsOnly.mayCall trivial
  burn _ _ _ := CallsOnly.mayCall trivial

instance {token admin : Address} {enabled : Bool} :
    Moves (CallsOnly ExtCall.NotUpgrade) (setBurnEnabled token admin enabled) := by
  unfold setBurnEnabled
  iterate 8 refine .andThen inferInstance fun _ => ?_
  infer_instance

/-- Every entrypoint but `execute_upgrade` leaves the factory's own code alone. -/
theorem Call.moves_notUpgrade {c : Call} (hc : ∀ admin hash, c ≠ .executeUpgrade admin hash) :
    MovesIn (fun _ => True) (CallsOnly ExtCall.NotUpgrade) c.exec := by
  cases c with
  | executeUpgrade admin hash => exact absurd rfl (hc admin hash)
  | mintTokens token admin recipient amount feePayment =>
    have : MayCall (fun _ => True) (CallsOnly ExtCall.NotUpgrade)
      (.mint token recipient amount) := inferInstance
    exact inferInstanceAs (MovesIn _ _ (wrap _ _))
  | view v => exact inferInstanceAs (MovesIn _ _ v.exec)
  | _ => exact inferInstanceAs (MovesIn _ _ (wrap _ _))

end StellarForge.Factory
