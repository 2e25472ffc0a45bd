import Mathlib.Data.List.Basic

/-!
# What holds throughout a run

A system whose next state is a function of the event.  `Throughout step P s events` says that `P` holds
in every state of the run, and `Kept step K s events` that `K` holds at each of its steps.

* `throughout_iff_kept`: **where `K` tells of each step whether it keeps `P`, the runs in which `P` holds
  throughout are those in which `K` holds at each step**;
* `Throughout.last`: then `P` holds at the end as well.
-/

namespace StellarForge.Transition

variable {σ ε : Type*} (step : σ → ε → σ)

/-- The property holds at the start and after each event. -/
def Throughout (P : σ → Prop) : σ → List ε → Prop
  | s, [] => P s
  | s, e :: events => P s ∧ Throughout P (step s e) events

/-- The condition holds at each event. -/
def Kept (K : σ → ε → Prop) : σ → List ε → Prop
  | _, [] => True
  | s, e :: events => K s e ∧ Kept K (step s e) events

instance Throughout.instDecidable {P : σ → Prop} [DecidablePred P] :
    ∀ (s : σ) (events : List ε), Decidable (Throughout step P s events)
  | s, [] => inferInstanceAs (Decidable (P s))
  | s, e :: events =>
    have := Throughout.instDecidable (P := P) (step s e) events
    inferInstanceAs (Decidable (_ ∧ _))

variable {step} {P I : σ → Prop} {K : σ → ε → Prop} {s : σ} {events : List ε}

theorem Throughout.head (h : Throughout step P s events) : P s := by
  cases events with
  | nil => exact h
  | cons e events => exact h.1

theorem Throughout.last (h : Throughout step P s events) : P (events.foldl step s) := by
  induction events generalizing s with
  | nil => exact h
  | cons e events ih => exact ih h.2

/-- An invariant holds at the end of every run. -/
theorem foldl_invariant (hstep : ∀ {s e}, I s → I (step s e)) (hs : I s) : I (events.foldl step s) := by
  induction events generalizing s with
  | nil => exact hs
  | cons e events ih => exact ih (hstep hs)

/-- `K` tells of each step whether it keeps `P`, with the help of an invariant `I`. -/
theorem throughout_iff_kept (hI : ∀ {s e}, I s → I (step s e))
    (hP : ∀ {s e}, I s → P s → (P (step s e) ↔ K s e)) (hinvariant : I s) (hs : P s) :
    Throughout step P s events ↔ Kept step K s events := by
  induction events generalizing s with
  | nil => exact iff_of_true hs trivial
  | cons e events ih =>
    constructor
    · rintro ⟨-, hrest⟩
      exact ⟨(hP hinvariant hs).mp hrest.head, (ih (hI hinvariant) hrest.head).mp hrest⟩
    · rintro ⟨hkept, hrest⟩
      have hnext : P (step s e) := (hP hinvariant hs).mpr hkept
      exact ⟨hs, (ih (hI hinvariant) hnext).mpr hrest⟩

end StellarForge.Transition
