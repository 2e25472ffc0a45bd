import Mathlib.Tactic.Common

/-!
# A read whose key changes while it is on its way

A component reads the value of a key.  It has at most one request on its way, and drops what it would ask
for while there is one; some keys have a value at hand, which needs no request.  The answer to a request
is shown whatever the key is by then.

`Right` says that once no request is on its way the value shown is that of the key, or there is an error
for the key and no value of another one.

* `right_load_iff`: loading keeps that if and only if it is for the key, or only asks;
* `Right.turn`: a change of the key keeps it;
* `right_settled_iff`: an answer keeps it if and only if it is one for the key, or fails while the value
  of the key is shown.
-/

namespace StellarForge.Concurrency

variable {κ α : Type*}

/-- What is shown, and the request on its way; with the keys that the value and the error belong to. -/
structure KeyedRead (κ α : Type*) where
  key : κ
  value : α
  error : Option String := none
  /-- The key that has been asked for. -/
  request : Option κ := none
  /-- The key of the value; none before there is one. -/
  origin : Option κ := none
  /-- The key of the error. -/
  failed : Option κ := none

namespace KeyedRead

/-- The value of a key is at hand, or it is asked for.  A component loads its own key; a function that an
earlier render has made loads the key of that render. -/
def load (key : κ) (atHand : Option (κ × α)) (s : KeyedRead κ α) : KeyedRead κ α :=
  match atHand with
  | some (origin, value) => { s with value, origin := some origin }
  | none =>
    -- a request on its way stands for any other
    if s.request.isSome then s
    else { s with request := some key, error := none, failed := none }

/-- The key is another one. -/
def turn [DecidableEq κ] (key : κ) (atHand : Option (κ × α)) (s : KeyedRead κ α) : KeyedRead κ α :=
  if key = s.key then s else { s with key }.load key atHand

/-- The request is answered. -/
def settled (result : Except String α) (s : KeyedRead κ α) : KeyedRead κ α :=
  match s.request with
  | none => s
  | some key =>
    match result with
    | .ok value => { s with request := none, value, origin := some key }
    | .error message => { s with request := none, error := some message, failed := some key }

/-- The value of the key is shown, or an error for it and no value of another one. -/
def Shows (s : KeyedRead κ α) (key : κ) : Prop :=
  s.origin = some key ∨ s.origin = none ∧ s.failed = some key

/-- When nothing is on its way, what is shown is about the key. -/
def Right (s : KeyedRead κ α) : Prop := s.request = none → s.Shows s.key

/-- What is loaded has to be for the key, unless it is asked for or an answer will replace it. -/
def LoadKeeps (s : KeyedRead κ α) (key : κ) (atHand : Option (κ × α)) : Prop :=
  key = s.key ∨ s.request.isSome = true ∨ atHand = none

/-- What the request on its way has to be for. -/
def Keeps (s : KeyedRead κ α) (result : Except String α) : Prop :=
  ∀ key ∈ s.request,
    match result with
    | .ok _ => key = s.key
    | .error _ => s.origin = some s.key ∨ s.origin = none ∧ key = s.key

variable {s : KeyedRead κ α} {atHand : Option (κ × α)} {key asked : κ} {result : Except String α}

@[simp] theorem key_load : (s.load asked atHand).key = s.key := by
  unfold load
  split
  · rfl
  · split_ifs <;> rfl

@[simp] theorem key_settled : (s.settled result).key = s.key := by
  unfold settled
  split
  · rfl
  · cases result <;> rfl

@[simp] theorem key_turn [DecidableEq κ] : (s.turn key atHand).key = key := by
  unfold turn
  split_ifs with h
  · exact h.symm
  · exact key_load

/-- A request on its way stays there: with none after loading there was none before. -/
theorem request_eq_none_of_load (h : (s.load asked atHand).request = none) : s.request = none := by
  unfold load at h
  split at h
  · exact h
  · split_ifs at h
    exact h

theorem request_eq_none_of_turn [DecidableEq κ] (h : (s.turn key atHand).request = none) :
    s.request = none := by
  unfold turn at h
  split_ifs at h
  · exact h
  · exact request_eq_none_of_load (s := { s with key }) h

/-- After an answer no request is on its way. -/
@[simp] theorem request_settled : (s.settled result).request = none := by
  unfold settled
  split
  · assumption
  · cases result <;> rfl

/-- What is shown belongs to one key. -/
theorem Shows.unique (h : s.Shows key) (hasked : s.Shows asked) : key = asked := by
  rcases h with hsome | ⟨hnone, hfailed⟩
  · rcases hasked with hsome' | ⟨hnone', -⟩
    · exact Option.some.inj (hsome.symm.trans hsome')
    · rw [hsome] at hnone'
      cases hnone'
  · rcases hasked with hsome' | ⟨-, hfailed'⟩
    · rw [hnone] at hsome'
      cases hsome'
    · exact Option.some.inj (hfailed.symm.trans hfailed')

/-- Before there is a value the first one is shown. -/
def Unread (s : KeyedRead κ α) (first : α) : Prop := s.origin = none → s.value = first

theorem Unread.load {first : α} (h : s.Unread first) : (s.load asked atHand).Unread first := by
  unfold KeyedRead.load
  split
  · exact fun hnone => absurd hnone (Option.some_ne_none _)
  · split_ifs
    · exact h
    · exact h

theorem Unread.turn [DecidableEq κ] {first : α} (h : s.Unread first) : (s.turn key atHand).Unread first := by
  unfold KeyedRead.turn
  split_ifs
  · exact h
  · exact Unread.load (s := { s with key }) h

theorem Unread.settled {first : α} (h : s.Unread first) : (s.settled result).Unread first := by
  unfold KeyedRead.settled
  split
  · exact h
  · cases result with
    | ok value => exact fun hnone => absurd hnone (Option.some_ne_none _)
    | error message => exact h

/-- **What may be loaded.** -/
theorem right_load_iff (hatHand : ∀ p ∈ atHand, p.1 = asked) :
    Right (s.load asked atHand) ↔ s.LoadKeeps asked atHand := by
  unfold load LoadKeeps
  cases atHand with
  | none =>
    -- nothing is shown without a request, so that there is nothing to be wrong
    refine iff_of_true ?_ (.inr (.inr rfl))
    dsimp only
    split_ifs with hrequest
    · intro hnone
      rw [hnone] at hrequest
      cases hrequest
    · exact fun hnone => absurd hnone (Option.some_ne_none _)
  | some p =>
    -- what is shown at once is about the key that was asked for
    have hasked : p.1 = asked := hatHand p rfl
    constructor
    · intro hright
      by_cases hrequest : s.request.isSome = true
      · exact .inr (.inl hrequest)
      · rcases hright (Option.not_isSome_iff_eq_none.mp hrequest) with hsome | ⟨hnone, -⟩
        · exact .inl (hasked.symm.trans (Option.some.inj hsome))
        · cases hnone
    · rintro (hkey | hrequest | hnone)
      · exact fun _ => .inl (congrArg some (hasked.trans hkey))
      · intro hnone
        have hrequest' : s.request = none := hnone
        rw [hrequest'] at hrequest
        cases hrequest
      · cases hnone

/-- What is loaded for the key itself keeps to it. -/
theorem right_load (hatHand : ∀ p ∈ atHand, p.1 = s.key) : Right (s.load s.key atHand) :=
  (right_load_iff hatHand).mpr (.inl rfl)

theorem Right.turn [DecidableEq κ] (h : Right s) (hatHand : ∀ p ∈ atHand, p.1 = key) :
    Right (s.turn key atHand) := by
  unfold KeyedRead.turn
  split_ifs
  · exact h
  · exact right_load (s := { s with key }) hatHand

/-- **The answers that keep it right.** -/
theorem right_settled_iff (h : Right s) :
    Right (s.settled result) ↔ s.Keeps result := by
  unfold settled Keeps
  cases hrequest : s.request with
  | none => exact iff_of_true h nofun
  | some asked =>
    cases result with
    -- the value is about the key that was asked for, which has to be the one of now
    | ok value =>
      constructor
      · intro hright other hother
        obtain rfl := Option.some.inj hother
        rcases hright rfl with hsome | ⟨hnone, -⟩
        · exact Option.some.inj hsome
        · cases hnone
      · intro hkeeps _
        exact .inl (congrArg some (hkeeps asked rfl))
    -- after a failure the earlier value is shown on
    | error message =>
      constructor
      · intro hright other hother
        obtain rfl := Option.some.inj hother
        rcases hright rfl with hsome | ⟨hnone, hfailed⟩
        · exact .inl hsome
        · exact .inr ⟨hnone, Option.some.inj hfailed⟩
      · intro hkeeps _
        rcases hkeeps asked rfl with hsome | ⟨hnone, hsame⟩
        · exact .inl hsome
        · exact .inr ⟨hnone, congrArg some hsame⟩

end KeyedRead

end StellarForge.Concurrency
