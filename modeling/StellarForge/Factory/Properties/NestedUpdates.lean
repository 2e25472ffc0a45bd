import StellarForge.Factory.Reentry.Lock
import StellarForge.Factory.Properties.Histories

/-!
# Updates made by nested calls

An entrypoint that calls other contracts under the lock keeps a copy of `FactoryState` meanwhile and
writes it back when it releases the lock.  The lock stops the guarded entrypoints, but `pause`,
`update_fees`, the proposals and the other governance entrypoints do not ask for it: what they change
in between is overwritten.

* `nested_updates_present_iff`: the updates of the nested calls are present afterwards exactly when
  those that found the lock held leave, taken together, every field as they found it.  What is
  changed before the lock is taken, during the balance query of `burn`, is always present.
-/

namespace StellarForge.Factory

open Soroban Contract Transition

/-! ### Definitions -/

/-- The entrypoints that call other contracts while they hold the lock. -/
def Call.CallsOut : Call → Prop
  | .createToken .. | .createTokensBatch .. | .setMetadata .. | .mintTokens .. | .burn .. => True
  | _ => False

/-- The admin, the pause flag, the fees, the whitelist flag, the pending proposals and the token
count. -/
def StateField.guarded : List StateField :=
  [.admin, .paused, .baseFee, .metadataFee, .whitelistEnabled, .pendingAdmin, .pendingAdminExpiry,
    .pendingUpgradeHash, .pendingUpgradeReadyAt, .tokenCount]

/-- The stored value of a field. -/
def fieldOf (f : StateField) (s : Option FactoryState) : Option ScVal := s.bind fun st => st.encode f

/-- The call has changed the field.  A call that fails changes nothing. -/
def NestedCall.Changes (n : NestedCall) (f : StateField) : Prop :=
  fieldOf f n.after ≠ fieldOf f n.before

instance (n : NestedCall) (f : StateField) : Decidable (n.Changes f) :=
  inferInstanceAs (Decidable (fieldOf f n.after ≠ fieldOf f n.before))

/-- What the calls `t`, most recent first, have changed is present in `s`, save what a later one of
them has changed again. -/
def Present (t : List NestedCall) (s : Option FactoryState) : Prop :=
  ∀ f ∈ StateField.guarded, ∀ later n earlier, t = later ++ n :: earlier → n.Changes f →
    (∀ m ∈ later, ¬ m.Changes f) → fieldOf f s = fieldOf f n.after

/-- The calls that have found the lock held. -/
def underLock (t : List NestedCall) : List NestedCall :=
  t.filter fun n => n.before.any FactoryState.locked

/-- Taken together, the calls `t` leave every field as the first of them found it. -/
def Neutral (t : List NestedCall) : Prop :=
  ∀ f ∈ StateField.guarded, ∀ last ∈ t.head?, ∀ first ∈ t.getLast?,
    fieldOf f last.after = fieldOf f first.before

/-! ### Fields along a run of nested calls -/

variable {env : Env} {nested : CallLog → List NestedCall} {w w' : World} {st : FactoryState}
  {s s' : Option FactoryState} {t later earlier : List NestedCall} {n : NestedCall} {f : StateField}

theorem StateStep.field (h : StateStep s n s') (hn : ¬ n.Changes f) : fieldOf f s' = fieldOf f s := by
  rw [← h.after, ← h.before]
  exact not_not.mp hn

/-- The last change decides the value. -/
theorem field_of_last (hr : Run StateStep s (later ++ n :: earlier) s')
    (hlater : ∀ m ∈ later, ¬ m.Changes f) : fieldOf f s' = fieldOf f n.after := by
  obtain ⟨s₁, hrn, hrlater⟩ := hr.split
  obtain ⟨s₀, -, hstep⟩ := Run.cons_iff.mp hrn
  rw [hstep.after]
  exact hrlater.frame fun hm hstep => hstep.field (hlater _ hm)

/-- Where the calls have changed a field at all, there is a last change. -/
theorem field_eq_or_last (hr : Run StateStep s t s') : fieldOf f s' = fieldOf f s ∨
    ∃ later n earlier, t = later ++ n :: earlier ∧ n.Changes f ∧ ∀ m ∈ later, ¬ m.Changes f := by
  rcases hr.lastTouch fun n => n.Changes f with hno | ⟨e, n, l, _, _, rfl, hn, hl, -, -, -⟩
  · exact .inl (hr.frame fun hm hstep => hstep.field (hno _ hm))
  · exact .inr ⟨l, n, e, rfl, hn, hl⟩

theorem after_of_head? {last : NestedCall} (hr : Run StateStep s t s') (h : last ∈ t.head?) :
    last.after = s' := by
  rcases t with _ | ⟨n, t⟩
  · simp at h
  · obtain rfl := Option.some.inj h
    obtain ⟨_, -, hstep⟩ := Run.cons_iff.mp hr
    exact hstep.after

theorem before_of_getLast? {first : NestedCall} (hr : Run StateStep s t s')
    (h : first ∈ t.getLast?) : first.before = s := by
  obtain ⟨l, rfl⟩ := List.getLast?_eq_some_iff.mp h
  obtain ⟨s₁, hrfirst, -⟩ := hr.split
  obtain ⟨_, hnil, hstep⟩ := Run.cons_iff.mp hrfirst
  obtain rfl := Run.nil_iff.mp hnil
  exact hstep.before

/-! ### The lock along a run of nested calls -/

/-- The nested calls keep what `heldCount` says. -/
abbrev KeepHeld (t : List NestedCall) : Prop :=
  ∀ n ∈ t, ∀ s s', StateStep s n s' → heldCount s' = heldCount s

theorem heldCount_before (hk : KeepHeld t) (hr : Run StateStep s t s') (hmem : n ∈ t) :
    heldCount n.before = heldCount s := by
  obtain ⟨later, earlier, rfl⟩ := List.append_of_mem hmem
  obtain ⟨s₁, hrn, -⟩ := hr.split
  obtain ⟨s₀, hrearlier, hstep⟩ := Run.cons_iff.mp hrn
  rw [hstep.before]
  exact hrearlier.frame fun hm hs => hk _ (by simp [hm]) _ _ hs

theorem heldCount_run (hk : KeepHeld t) (hr : Run StateStep s t s') : heldCount s' = heldCount s :=
  hr.frame fun hm hs => hk _ hm _ _ hs

theorem any_locked_iff : s.any FactoryState.locked = true ↔ ∃ c, heldCount s = some (some c) := by
  rcases s with _ | st
  · simp [heldCount]
  · by_cases hl : st.locked <;> simp [heldCount, hl]

/-- Calls that start while the lock is held have all found it held. -/
theorem underLock_of_held {c : ℕ} (hk : KeepHeld t) (hr : Run StateStep s t s')
    (hs : heldCount s = some (some c)) : underLock t = t :=
  List.filter_eq_self.mpr fun _ hn =>
    any_locked_iff.mpr ⟨c, (heldCount_before hk hr hn).trans hs⟩

/-- Calls that start while it is not have not. -/
theorem underLock_of_free (hk : KeepHeld t) (hr : Run StateStep s t s')
    (hs : ∀ c, heldCount s ≠ some (some c)) : underLock t = [] := by
  refine List.filter_eq_nil_iff.mpr fun n hn hlocked => ?_
  obtain ⟨c, hc⟩ := any_locked_iff.mp hlocked
  exact hs c ((heldCount_before hk hr hn).symm.trans hc)

/-! ### A guarded call with its nested calls -/

/-- The state `st` is found and locked, the calls `held` are made, and the copy of `st` is written
back. -/
structure Overwrites (s : Option FactoryState) (t : List NestedCall) (s' : Option FactoryState)
    (st : FactoryState) (before held : List NestedCall) : Prop where
  split : t = held ++ before
  unlocked : st.locked = false
  found : Run StateStep s before (some st)
  locked : ∃ s₃, Run StateStep (some { st with locked := true }) held s₃
  written : ∃ count, s' = some { st with locked := false, tokenCount := count } ∧
    (count = st.tokenCount ∨ before = [])

theorem nestedCalls_eq {ext : CallLog} (h : w'.calls = w.calls ++ ext) :
    nestedCalls nested w w' = nestedDuring nested w.calls ext := by
  rw [nestedCalls, h, List.drop_left]

/-- **A guarded call overwrites the state** that the calls nested in it have left. -/
theorem Guards.overwrites {count : ℕ} (h : Guards nested w st count w') :
    ∃ before held, Overwrites w.state? (nestedCalls nested w w') w'.state? st before held := by
  obtain @⟨env, w₁, w₃, ⟨ext, hcalls, hbefore⟩, hst, hunlocked, ⟨ext', hcalls', hheld⟩, hreleased,
    hcounted⟩ := h
  rw [World.calls_saveState, World.state?_saveState] at hheld
  rw [hst] at hbefore
  have hall : w'.calls = w.calls ++ (ext ++ ext') := by
    rw [hreleased.1, World.calls_saveState, hcalls', World.calls_saveState, hcalls,
      List.append_assoc]
  refine ⟨_, _, ?_, hunlocked, hbefore, ⟨_, hheld⟩, ⟨count, ?_, ?_⟩⟩
  · rw [nestedCalls_eq hall, nestedDuring_append, hcalls]
  · rw [hreleased.2, World.state?_saveState]
  · rcases hcounted with hcount | hown
    · exact .inl hcount
    · -- no calls to other contracts, so none nested in them
      have hnil : ext = [] := by
        have := hcalls.symm.trans hown.1
        simpa using this
      exact .inr (by rw [hnil, nestedDuring])

namespace Overwrites

variable {before held : List NestedCall}

/-- The copy has the fields of the state that was found. -/
theorem field_written (h : Overwrites s t s' st before held) (hf : f ∈ StateField.guarded)
    (hcount : f ≠ .tokenCount ∨ before ≠ []) : fieldOf f s' = fieldOf f (some st) := by
  obtain ⟨count, rfl, hc⟩ := h.written
  by_cases hf' : f = .tokenCount
  · subst hf'
    obtain rfl := hc.resolve_right (hcount.resolve_left (not_not.mpr rfl))
    rfl
  · simp only [StateField.guarded, List.mem_cons, List.not_mem_nil, or_false] at hf
    rcases hf with rfl | rfl | rfl | rfl | rfl | rfl | rfl | rfl | rfl | rfl <;>
      first | rfl | exact absurd rfl hf'

/-- The lock itself is not among the fields. -/
theorem field_locked (hf : f ∈ StateField.guarded) :
    fieldOf f (some { st with locked := true }) = fieldOf f (some st) := by
  simp only [StateField.guarded, List.mem_cons, List.not_mem_nil, or_false] at hf
  rcases hf with rfl | rfl | rfl | rfl | rfl | rfl | rfl | rfl | rfl | rfl <;> rfl

/-- No token is counted under the lock. -/
theorem field_tokenCount (hk : KeepHeld held) {s₃ : Option FactoryState}
    (hr : Run StateStep (some { st with locked := true }) held s₃) :
    fieldOf .tokenCount s₃ = fieldOf .tokenCount (some st) := by
  have hheld : heldCount s₃ = some (some st.tokenCount) := heldCount_run hk hr
  rcases s₃ with _ | st₃
  · simp [heldCount] at hheld
  · by_cases hl : st₃.locked
    · have hcount : st₃.tokenCount = st.tokenCount := by simpa [heldCount, hl] using hheld
      simp [fieldOf, FactoryState.encode, hcount]
    · simp [heldCount, hl] at hheld

theorem tokenCount_unchanged (hk : KeepHeld held) {s₃ : Option FactoryState}
    (hr : Run StateStep (some { st with locked := true }) held s₃) (hmem : n ∈ held) :
    ¬ n.Changes .tokenCount := by
  obtain ⟨later, earlier, rfl⟩ := List.append_of_mem hmem
  obtain ⟨s₂, hrn, -⟩ := hr.split
  have hkn : KeepHeld (n :: earlier) := fun m hm => hk m (List.mem_append_right _ hm)
  have hafter := field_tokenCount hkn hrn
  obtain ⟨s₁, hrearlier, hstep⟩ := Run.cons_iff.mp hrn
  have hbefore := field_tokenCount (fun m hm => hkn m (List.mem_cons_of_mem _ hm)) hrearlier
  rw [NestedCall.Changes, hstep.after, hstep.before, hafter, hbefore, not_not]

/-- The calls that have found the lock held are those made under this lock. -/
theorem underLock_eq (h : Overwrites s t s' st before held) (hk : KeepHeld t) :
    underLock t = held := by
  obtain ⟨s₃, hheld⟩ := h.locked
  obtain rfl := h.split
  have hkheld : KeepHeld held := fun n hn => hk n (List.mem_append_left _ hn)
  have hkbefore : KeepHeld before := fun n hn => hk n (List.mem_append_right _ hn)
  have hfree : heldCount s = some none := by
    rw [← heldCount_run hkbefore h.found, heldCount_free h.unlocked]
  rw [underLock, List.filter_append]
  refine (congrArg₂ _ (underLock_of_held hkheld hheld rfl)
    (underLock_of_free hkbefore h.found fun c => ?_)).trans (List.append_nil _)
  rw [hfree]
  simp

/-- **What was changed under the lock is overwritten, what was changed before is not.** -/
theorem present_iff (h : Overwrites s t s' st before held) (hk : KeepHeld t) :
    Present t s' ↔ Neutral held := by
  obtain ⟨s₃, hheld⟩ := h.locked
  obtain rfl := h.split
  have hkheld : KeepHeld held := fun n hn => hk n (List.mem_append_left _ hn)
  constructor
  · intro hpresent f hf last hlast first hfirst
    rw [after_of_head? hheld hlast, before_of_getLast? hheld hfirst]
    by_cases hcount : f = .tokenCount
    · rw [hcount, field_tokenCount hkheld hheld]
      rfl
    · rcases field_eq_or_last (f := f) hheld with heq | ⟨later, n, earlier, rfl, hn, hlater⟩
      · exact heq
      · -- the last change is present in the copy, which has the fields that were found
        have hn' := hpresent f hf later n (earlier ++ before) (by simp) hn hlater
        rw [field_of_last hheld hlater, ← hn', h.field_written hf (.inl hcount), field_locked hf]
  · intro hneutral f hf later n earlier hsplit hn hlater
    rcases List.append_eq_append_iff.mp hsplit with ⟨l, hl, hbefore⟩ | ⟨l, hheld', hl⟩
    · -- changed before the lock was taken
      have hfound : fieldOf f (some st) = fieldOf f n.after :=
        field_of_last (hbefore ▸ h.found) fun m hm => hlater m (hl ▸ List.mem_append_right _ hm)
      rw [h.field_written hf (.inr ?_), hfound]
      rw [hbefore]
      simp
    · rcases l with _ | ⟨m, l⟩
      · -- the split is at the lock: `n` is the last call before it
        rw [List.nil_append] at hl
        have hr : Run StateStep s ([] ++ n :: earlier) (some st) := hl ▸ h.found
        have hfound : fieldOf f (some st) = fieldOf f n.after := field_of_last hr (by simp)
        rw [h.field_written hf (.inr (by simp [← hl])), hfound]
      · -- changed under the lock
        rw [List.cons_append, List.cons.injEq] at hl
        obtain ⟨rfl, -⟩ := hl
        subst hheld'
        have hcount : f ≠ .tokenCount := by
          rintro rfl
          exact tokenCount_unchanged hkheld hheld (by simp) hn
        obtain ⟨last, hlast⟩ : ∃ last, last ∈ (later ++ n :: l).head? := by
          rcases later with _ | ⟨a, later⟩ <;> simp
        obtain ⟨first, hfirst⟩ : ∃ first, first ∈ (later ++ n :: l).getLast? := by
          have : (later ++ n :: l).getLast?.isSome := by simp
          exact ⟨_, Option.get_mem this⟩
        have hsame := hneutral f hf last hlast first hfirst
        rw [after_of_head? hheld hlast, before_of_getLast? hheld hfirst, field_locked hf,
          field_of_last hheld hlater] at hsame
        rw [hsame, h.field_written hf (.inl hcount)]

end Overwrites

/-- Without a stored state there is nothing to change. -/
theorem present_of_no_state (hk : KeepHeld t) (hr : Run StateStep s t s') (hs : s = none) :
    Present t s' ∧ Neutral (underLock t) := by
  subst hs
  have hnone : ∀ {s₁ : Option FactoryState}, heldCount s₁ = none → s₁ = none :=
    fun h => Option.map_eq_none_iff.mp h
  constructor
  · intro f _ later n earlier hsplit hn
    subst hsplit
    obtain ⟨s₁, hrn, -⟩ := hr.split
    obtain ⟨s₀, -, hstep⟩ := Run.cons_iff.mp hrn
    have hbefore : n.before = none := hnone (heldCount_before hk hr (by simp))
    have hkn : KeepHeld (n :: earlier) := fun m hm => hk m (List.mem_append_right _ hm)
    have hafter : n.after = none := by
      rw [hstep.after]
      exact hnone (heldCount_run hkn hrn)
    rw [NestedCall.Changes, hbefore, hafter] at hn
    exact absurd rfl hn
  · rw [underLock_of_free hk hr fun c => by simp [heldCount]]
    intro f _ last hlast
    simp at hlast

/-- **Which nested updates survive a guarded call**: those of the nested calls `nestedCalls nested w
w'` are present after the call exactly when the nested calls that have found the lock held leave,
taken together, every field as they found it. -/
theorem nested_updates_present_iff {call : Call} {ret : Ret} (hcall : call.CallsOut)
    (henv : env.Reenters nested) (hinner : ∀ log, ∀ n ∈ nested log, n.env.Reentrant)
    (h : call.exec.Returns env w ret w') :
    Present (nestedCalls nested w w') w'.state? ↔ Neutral (underLock (nestedCalls nested w w')) := by
  have hn : NestedKeep nested := .of_reentrant hinner
  have hkeep (log ext : CallLog) : KeepHeld (nestedDuring nested log ext) :=
    fun n hmem s s' hstep => hn.of_mem hmem hstep
  have hguards (st : FactoryState) (count : ℕ) (hg : Guards nested w st count w') :
      Present (nestedCalls nested w w') w'.state? ↔
        Neutral (underLock (nestedCalls nested w w')) := by
    obtain ⟨before, held, ho⟩ := hg.overwrites
    rw [ho.underLock_eq (hkeep _ _)]
    exact ho.present_iff (hkeep _ _)
  cases call <;> simp only [Call.exec, returns_wrap] at h
  case createToken =>
    obtain ⟨_, h, -⟩ := h
    obtain ⟨st, count, hg⟩ := guards_createToken henv h
    exact hguards st count hg
  case createTokensBatch =>
    obtain ⟨_, h, -⟩ := h
    obtain ⟨st, count, hg⟩ := guards_createTokensBatch henv h
    exact hguards st count hg
  case setMetadata =>
    obtain ⟨_, h, -⟩ := h
    obtain ⟨st, count, hg⟩ := guards_setMetadata henv h
    exact hguards st count hg
  case mintTokens =>
    obtain ⟨_, h, -⟩ := h
    obtain ⟨st, count, hg⟩ := guards_mintTokens henv h
    exact hguards st count hg
  case burn =>
    obtain ⟨_, h, -⟩ := h
    obtain ⟨st, count, hg⟩ | ⟨w₁, hnone, hbefore, hafter⟩ := guards_burn henv h
    · exact hguards st count hg
    · -- the factory is not initialized, so that nothing is locked
      obtain ⟨ext, hcalls, hrun⟩ := hbefore.trans hafter
      rw [nestedCalls_eq hcalls]
      have hheld : heldCount w.state? = none := by
        rw [← hbefore.keepsHeld hn, hnone]
        rfl
      have hw : w.state? = none := Option.map_eq_none_iff.mp hheld
      obtain ⟨hpresent, hneutral⟩ := present_of_no_state (hkeep _ _) hrun hw
      exact ⟨fun _ => hneutral, fun _ => hpresent⟩
  all_goals exact hcall.elim

/-! ### The admin pauses the factory while a token is created -/

namespace PauseDuringCreate

/-- The state that the nested call finds: that of the sample factory, locked. -/
def found : FactoryState := { SampleRun.constructorArgs.initialState with locked := true }

/-- The admin pauses the factory. -/
def pauseCall : NestedCall :=
  ⟨permissiveEnv 10 ⟨1⟩, .pause ⟨1⟩, some found, some { found with paused := true }⟩

/-- The admin's pause comes during the first call that the invocation makes. -/
def script : CallLog → List NestedCall
  | [] => [pauseCall]
  | _ :: _ => []

/-- The token `3` calls the admin back during the fee transfer. -/
def callbackEnv : Env :=
  { permissiveEnv 10 ⟨5⟩ with
    host := fun w c =>
      match w.calls with
      | [] =>
        if w.state? = some found then
          some (permissiveReply c, (pauseCall.call.exec.commit pauseCall.env w).storage)
        else none
      | _ :: _ => some (permissiveReply c, w.storage) }

/-- A token has been created, and the factory has been paused on the way. -/
def world₁ : World :=
  (Call.createToken ⟨5⟩ SampleRun.params 100).exec.commit callbackEnv SampleRun.world₀

theorem nestedStep {w : World} (hw : w.state? = some found) :
    NestedStep w pauseCall (pauseCall.call.exec.commit pauseCall.env w) := by
  have hret : pauseCall.call.exec.Returns pauseCall.env w .unit
      ((w.saveState pauseCall.env { found with paused := true }).publish (.pause ⟨1⟩)) := by
    simp only [pauseCall, Call.exec, returns_wrap, Factory.pause, returns_bind,
      returns_requireAuth, returns_loadState, returns_throwIf, returns_saveState, returns_publish]
    exact ⟨(), ⟨(), w, ⟨rfl, rfl⟩, found, w, ⟨hw, rfl⟩, (), w, ⟨by decide, rfl⟩, (), _, rfl, rfl⟩,
      trivial⟩
  refine ⟨rfl, hw, ?_⟩
  rw [hret.commit_eq, World.state?_publish, World.state?_saveState]
  rfl

/-- The callback is one of the script. -/
theorem reenters : callbackEnv.Reenters script := by
  intro w c r s h
  dsimp only [callbackEnv] at h
  split at h
  next hcalls =>
    split_ifs at h with hw
    obtain ⟨-, rfl⟩ := Prod.mk.inj (Option.some.inj h)
    rw [hcalls]
    exact ⟨_, .snoc .nil (nestedStep hw), rfl⟩
  next hcalls =>
    obtain ⟨-, rfl⟩ := Prod.mk.inj (Option.some.inj h)
    rw [hcalls]
    exact ⟨w, .nil, rfl⟩

theorem inner : ∀ log, ∀ n ∈ script log, n.env.Reentrant := by
  intro log n hn
  rcases log with _ | ⟨e, log⟩
  · obtain rfl := List.mem_singleton.mp hn
    exact Env.NoReentry.reentrant (inferInstanceAs (permissiveEnv 10 ⟨1⟩).NoReentry)
  · simp [script] at hn

theorem callsOut : (Call.createToken ⟨5⟩ SampleRun.params 100).CallsOut := trivial

theorem returns : (Call.createToken ⟨5⟩ SampleRun.params 100).exec.Returns callbackEnv
    SampleRun.world₀ (.address ⟨50⟩) world₁ := returns_commit rfl

theorem nestedCalls_world₁ : nestedCalls script SampleRun.world₀ world₁ = [pauseCall] := rfl

theorem paused_lost : fieldOf .paused world₁.state? = some (.bool false) := rfl

end PauseDuringCreate

open PauseDuringCreate in
/-- The pause returns, and the factory is not paused afterwards. -/
theorem nested_pause_lost : ¬ ∀ (args : ConstructorArgs) (h : List Invocation) (env : Env)
    (nested : CallLog → List NestedCall) (call : Call) (ret : Ret) (w w' : World),
    Reaches args h w → call.CallsOut → env.Reenters nested →
      (∀ log, ∀ n ∈ nested log, n.env.Reentrant) → call.exec.Returns env w ret w' →
      Present (nestedCalls nested w w') w'.state? := by
  intro hall
  have hpresent := hall _ _ _ _ _ _ _ _ SampleRun.reaches₀ callsOut reenters inner returns
  rw [nestedCalls_world₁] at hpresent
  have hpaused : fieldOf .paused world₁.state? = fieldOf .paused pauseCall.after :=
    hpresent .paused (by decide) [] pauseCall [] rfl (by decide) (by simp)
  rw [paused_lost] at hpaused
  exact absurd hpaused (by decide)

open PauseDuringCreate in

/-- A creation with a pause on the way. -/
theorem nested_updates_present_iff_pause :
    Present (nestedCalls script SampleRun.world₀ world₁) world₁.state? ↔
      Neutral (underLock (nestedCalls script SampleRun.world₀ world₁)) :=
  nested_updates_present_iff callsOut reenters inner returns

end StellarForge.Factory
