import StellarForge.Factory.Frames

/-!
# Factory calls nested in a factory call

A contract that the factory calls may call back into the factory before it returns.  `NestedStep` is
one such call, which is rolled back when it fails.  `env.Reenters nested` says that the host's answers
in `env` are explained by the nested calls `nested`: the call that an invocation makes to another
contract after the calls `log` runs the factory calls `nested log`, and hands back the storage they
leave.  `nestedCalls nested w w'` lists them for the invocation that leads from `w` to `w'`; since the
log of calls grows with every call, it says exactly which nested calls were made.
-/

namespace StellarForge.Factory

open Soroban Contract Transition

/-- The log of the calls made to other contracts. -/
abbrev CallLog := List (ExtCall × Bool)

/-- A factory call made by a contract that the factory has called, with the stored state before and
after it. -/
structure NestedCall where
  env : Env
  call : Call
  before : Option FactoryState
  after : Option FactoryState

/-- The nested call `n` leads from `w` to `w'`. -/
structure NestedStep (w : World) (n : NestedCall) (w' : World) : Prop where
  commit : n.call.exec.commit n.env w = w'
  before : w.state? = n.before
  after : w'.state? = n.after

/-- Every answer of the host is explained by the nested calls `nested log`, most recent first. -/
def Env.Reenters (env : Env) (nested : CallLog → List NestedCall) : Prop :=
  ∀ (w : World) (c : ExtCall) (r : c.Reply) (s : FactoryStorage), env.host w c = some (r, s) →
    ∃ w', Run NestedStep w (nested w.calls) w' ∧ w'.storage = s

/-- The host hands back what nested calls leave, and so do the hosts of the nested calls. -/
inductive Env.Reentrant : Env → Prop
  | intro {env : Env} (nested : CallLog → List NestedCall) (reenters : env.Reenters nested)
    (inner : ∀ log, ∀ n ∈ nested log, Env.Reentrant n.env) : Env.Reentrant env

/-- The nested calls made during the calls `ext` of an invocation that has made the calls `log`, most
recent first.  A call that fails is rolled back with everything nested in it. -/
def nestedDuring (nested : CallLog → List NestedCall) : (log ext : CallLog) → List NestedCall
  | _, [] => []
  | log, (c, ok) :: ext =>
    nestedDuring nested (log ++ [(c, ok)]) ext ++ if ok then nested log else []

/-- The nested calls of the invocation that leads from `w` to `w'`, most recent first. -/
def nestedCalls (nested : CallLog → List NestedCall) (w w' : World) : List NestedCall :=
  nestedDuring nested w.calls (w'.calls.drop w.calls.length)

variable {env : Env} {nested : CallLog → List NestedCall} {w w' w₃ : World} {n : NestedCall}
  {log ext ext' : CallLog} {s s' : Option FactoryState} {t t' : List NestedCall}

/-- A host that refuses re-entry has no nested calls. -/
theorem Env.NoReentry.reentrant (h : env.NoReentry) : env.Reentrant := by
  refine .intro (fun _ => []) (fun w c r s hhost => ?_) (fun _ n hn => by simp at hn)
  obtain rfl := h.storage_eq hhost
  exact ⟨_, .nil, rfl⟩

theorem nestedDuring_append : nestedDuring nested log (ext ++ ext') =
    nestedDuring nested (log ++ ext) ext' ++ nestedDuring nested log ext := by
  induction ext generalizing log with
  | nil => rw [List.nil_append, List.append_nil, nestedDuring, List.append_nil]
  | cons e ext ih =>
    obtain ⟨c, ok⟩ := e
    rw [List.cons_append, nestedDuring, nestedDuring, ih, List.append_assoc, List.append_assoc,
      List.singleton_append]

theorem mem_nestedDuring (h : n ∈ nestedDuring nested log ext) : ∃ log', n ∈ nested log' := by
  induction ext generalizing log with
  | nil => simp [nestedDuring] at h
  | cons e ext ih =>
    obtain ⟨c, ok⟩ := e
    rcases List.mem_append.mp h with h | h
    · exact ih h
    · split at h
      · exact ⟨log, h⟩
      · simp at h

/-! ### The stored state along nested calls -/

/-- One nested call, as far as the stored state is concerned. -/
def StateStep (s : Option FactoryState) (n : NestedCall) (s' : Option FactoryState) : Prop :=
  ∃ w w', NestedStep w n w' ∧ w.state? = s ∧ w'.state? = s'

theorem stateRun_of_run (h : Run NestedStep w t w') : Run StateStep w.state? t w'.state? := by
  induction h with
  | nil => exact .nil
  | snoc _ hstep ih => exact .snoc ih ⟨_, _, hstep, rfl, rfl⟩

theorem StateStep.before (h : StateStep s n s') : n.before = s := by
  obtain ⟨_, _, hstep, rfl, -⟩ := h
  exact hstep.before.symm

theorem StateStep.after (h : StateStep s n s') : n.after = s' := by
  obtain ⟨_, _, hstep, -, rfl⟩ := h
  exact hstep.after.symm

/-! ### What an invocation does to the stored state between its own writes of it -/

/-- The stored state changes through the nested calls alone. -/
def Explains (nested : CallLog → List NestedCall) (w w' : World) : Prop :=
  ∃ ext, w'.calls = w.calls ++ ext ∧
    Run StateStep w.state? (nestedDuring nested w.calls ext) w'.state?

theorem Own.explains (h : Own w w') : Explains nested w w' := by
  refine ⟨[], by rw [h.1, List.append_nil], ?_⟩
  rw [h.2]
  exact .nil

theorem Explains.trans (h : Explains nested w w') (h' : Explains nested w' w₃) :
    Explains nested w w₃ := by
  obtain ⟨ext, hcalls, hrun⟩ := h
  obtain ⟨ext', hcalls', hrun'⟩ := h'
  refine ⟨ext ++ ext', by rw [hcalls', hcalls, List.append_assoc], ?_⟩
  rw [nestedDuring_append, ← hcalls]
  exact hrun.append hrun'

instance : OwnFrame (Explains nested) where
  refl _ := Own.explains (Own.refl _)
  trans _ _ _ := Explains.trans
  own := Own.explains

end StellarForge.Factory
