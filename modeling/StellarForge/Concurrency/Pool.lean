import StellarForge.Concurrency.Process
import StellarForge.Transition.Run

/-!
# Requests in progress

A `Pool` has any number of programs in progress, which take turns: in its turn a program runs up to
its next operation and performs it.  A label says which program had the turn, when, and which
operation it performed, so that a history of labels is an interleaving of operations.

* `Step.tasks_elsewhere`: a program waits while others take their turns;
* **`yields_of_run`**: what one program of many ends with, from the replies it gets;
* `ends`: every program comes to an end when it gets its turns.
-/

namespace StellarForge.Concurrency

open Transition Process

/-- A request `r` arrives, or the program at a place takes its turn. -/
inductive Turn (ρ ι : Type)
  | arrive (r : ρ)
  | move (index time : ℕ) (op : Option ι)

/-- Processes that have not ended, and the world that they share. -/
structure Pool (μ ι : Type) (reply : ι → Type) (α σ : Type) where
  world : World μ σ
  tasks : List (Process μ ι reply α)

namespace Pool

variable {μ ι : Type} {reply : ι → Type} {α σ ρ : Type}

/-- The result of the program at a place. -/
def result? (s : Pool μ ι reply α σ) (i : ℕ) : Option α := s.tasks[i]?.bind Process.result?

/-- The steps of the programs `serve r`. -/
inductive Step (serve : ρ → Process μ ι reply α)
    (answers : ℕ → σ → (op : ι) → reply op → σ → Prop) :
    Pool μ ι reply α σ → Turn ρ ι → Pool μ ι reply α σ → Prop
  | arrive {s : Pool μ ι reply α σ} {r : ρ} :
    Step serve answers s (.arrive r) { s with tasks := s.tasks ++ [serve r] }
  | finish {s : Pool μ ι reply α σ} {i t : ℕ} {p : Process μ ι reply α} {a : α} {m : μ} :
    s.world.clock ≤ t → s.tasks[i]? = some p → p.settle t s.world.memory = (.done a, m) →
    Step serve answers s (.move i t none) ⟨⟨t, m, s.world.store⟩, s.tasks.set i (.done a)⟩
  | perform {s : Pool μ ι reply α σ} {i t : ℕ} {p : Process μ ι reply α} {op : ι}
    {next : reply op → Process μ ι reply α} {m : μ} {r : reply op} {store : σ} :
    s.world.clock ≤ t → s.tasks[i]? = some p →
    p.settle t s.world.memory = (.perform op next, m) → answers t s.world.store op r store →
    Step serve answers s (.move i t (some op)) ⟨⟨t, m, store⟩, s.tasks.set i (next r)⟩

variable {serve : ρ → Process μ ι reply α} {answers : ℕ → σ → (op : ι) → reply op → σ → Prop}
  {s s' s₀ : Pool μ ι reply α σ} {h : List (Turn ρ ι)}
  {l : Turn ρ ι} {i : ℕ} {p q : Process μ ι reply α} {a : α}

/-- The turn is not one of the program at `i`. -/
def Turn.Elsewhere (i : ℕ) : Turn ρ ι → Prop
  | .arrive _ => True
  | .move j _ _ => j ≠ i

/-- A program waits while others take their turns. -/
theorem Step.tasks_elsewhere (hs : Step serve answers s l s') (hl : Turn.Elsewhere i l)
    (hp : s.tasks[i]? = some p) : s'.tasks[i]? = some p := by
  cases hs with
  | arrive =>
    obtain ⟨hi, -⟩ := List.getElem?_eq_some_iff.mp hp
    rw [List.getElem?_append_left hi, hp]
  | finish _ _ _ => rw [List.getElem?_set_ne hl, hp]
  | perform _ _ _ _ => rw [List.getElem?_set_ne hl, hp]

/-! ### One program of many -/

/-- What a turn of the program at `i` leaves of it. -/
theorem Step.yields {good : ℕ → (op : ι) → reply op → Prop} {Ψ : α → Prop}
    (hs : Step serve answers s l s') (hp : s.tasks[i]? = some p)
    (hyields : ∀ t, p.Yields good (fun a _ => Ψ a) t)
    (hgood : ∀ t op, l = .move i t (some op) → ∀ r store, answers t s.world.store op r store →
      good t op r) :
    ∃ q, s'.tasks[i]? = some q ∧ ∀ t, q.Yields good (fun a _ => Ψ a) t := by
  by_cases hl : Turn.Elsewhere i l
  · exact ⟨p, hs.tasks_elsewhere hl hp, hyields⟩
  · have hlt := (List.getElem?_eq_some_iff.mp hp).1
    cases hs with
    | arrive => exact absurd trivial hl
    | finish ht hi hsettle =>
      obtain rfl := not_not.mp hl
      obtain rfl := Option.some.inj (hi.symm.trans hp)
      have hΨ := (hyields _).settle hsettle
      exact ⟨_, List.getElem?_set_self hlt, fun _ => hΨ⟩
    | perform ht hi hsettle hans =>
      obtain rfl := not_not.mp hl
      obtain rfl := Option.some.inj (hi.symm.trans hp)
      refine ⟨_, List.getElem?_set_self hlt, fun t => ?_⟩
      exact (hyields _).settle hsettle _ (hgood _ _ rfl _ _ hans) t

/-- **One program of many**: if the replies to the program at `i` are `good`, its result is one
that it yields. -/
theorem yields_of_run {good : ℕ → (op : ι) → reply op → Prop} {Ψ : α → Prop}
    (hr : Run (Step serve answers) s₀ h s) (hp : s₀.tasks[i]? = some p)
    (hyields : ∀ t, p.Yields good (fun a _ => Ψ a) t)
    (hgood : ∀ h₁ h₂ t op s₁, h = h₂ ++ .move i t (some op) :: h₁ →
      Run (Step serve answers) s₀ h₁ s₁ → ∀ r store, answers t s₁.world.store op r store →
      good t op r) :
    ∃ q, s.tasks[i]? = some q ∧ ∀ t, q.Yields good (fun a _ => Ψ a) t := by
  induction hr with
  | nil => exact ⟨p, hp, hyields⟩
  | @snoc h l s s' hr hs ih =>
    obtain ⟨q, hq, hq'⟩ := ih fun h₁ h₂ t op s₁ heq hr₁ =>
      hgood h₁ (l :: h₂) t op s₁ (by rw [heq, List.cons_append]) hr₁
    refine hs.yields hq hq' fun t op hl => ?_
    exact hgood h [] t op s (by rw [hl, List.nil_append]) hr

/-- What a process has returned is what it yields. -/
theorem result_of_yields {good : ℕ → (op : ι) → reply op → Prop} {Ψ : α → ℕ → Prop}
    (hq : s.tasks[i]? = some q) (hyields : ∀ t, q.Yields good Ψ t)
    (ha : s.result? i = some a) : Ψ a 0 := by
  obtain ⟨q', hq', hdone⟩ := Option.bind_eq_some_iff.mp ha
  obtain rfl := Option.some.inj (hq.symm.trans hq')
  cases q with
  | done b =>
    obtain rfl := Option.some.inj hdone
    exact hyields 0
  | _ => cases hdone

/-! ### Progress -/

/-- From every state the program at `i` can be brought to its end. -/
def Ends (serve : ρ → Process μ ι reply α) (answers : ℕ → σ → (op : ι) → reply op → σ → Prop)
    (i : ℕ) (p : Process μ ι reply α) : Prop :=
  ∀ s : Pool μ ι reply α σ, s.tasks[i]? = some p →
    ∃ h s', Run (Step serve answers) s h s' ∧ (s'.result? i).isSome

/-- One turn. -/
theorem Ends.of_settle (hanswers : ∀ t store op, ∃ r store', answers t store op r store')
    (hnext : ∀ t m op next m', p.settle t m = (.perform op next, m') →
      ∀ r, Ends serve answers i (next r)) : Ends serve answers i p := by
  intro s hp
  have hlt := (List.getElem?_eq_some_iff.mp hp).1
  rcases p.settle_cases s.world.clock s.world.memory with ⟨a, m', hq⟩ | ⟨op, next, m', hq⟩
  · refine ⟨_, _, .snoc .nil (.finish (Nat.le_refl _) hp hq), ?_⟩
    rw [Pool.result?, List.getElem?_set_self hlt]
    rfl
  · obtain ⟨r, store', hans⟩ := hanswers s.world.clock s.world.store op
    obtain ⟨h, s', hr, hend⟩ := hnext _ _ op next m' hq r
      ⟨⟨s.world.clock, m', store'⟩, s.tasks.set i (next r)⟩ (List.getElem?_set_self hlt)
    exact ⟨_, s', .append (.snoc .nil (.perform (Nat.le_refl _) hp hq hans)) hr, hend⟩

/-- **Every program comes to an end** when it gets its turns. -/
theorem ends (hanswers : ∀ t store op, ∃ r store', answers t store op r store') :
    Ends serve answers i p := by
  refine .of_settle hanswers ?_
  induction p with
  | done a =>
    intro t m op next m' hq
    cases hq
  | sync update next ih =>
    intro t m op next' m' hq
    exact ih t m t (update t m) op next' m' hq
  | perform op next ih =>
    intro t m op' next' m' hq r
    cases hq
    exact .of_settle hanswers (ih r)

end Pool

end StellarForge.Concurrency
