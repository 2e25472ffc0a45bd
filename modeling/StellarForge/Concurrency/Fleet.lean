import StellarForge.Concurrency.Process

/-!
# Requests in progress on several instances

A `Fleet` has any number of programs in progress on any number of instances, each with a memory of its
own; the remote service is one for all.  In its turn a program runs up to its next operation and
performs it.  A `Deed` says who had the turn, and what was asked and answered.

A `Discipline` says what a program may do on the strength of its last answer and of what it has read in
the memory since.  `p.Obeys D Φ K` says that `p` keeps to it, starting with the rights `K`, and that its
result is in `Φ`.

* `Obeys.imp`, `obeys_await`, `obeys_atOnce`, **`obeys_bind`** and `Obeys.settle` are its rules;
* `Step.obeying`: **the programs of a fleet keep to their disciplines**.
-/

namespace StellarForge.Concurrency

open Process

/-- A request that is being served. -/
structure Task (ρ μ ι : Type) (reply : ι → Type) (α : Type) where
  request : ρ
  host : ℕ
  process : Process μ ι reply α
  /-- The last operation that it has performed, with the answer. -/
  answered : Option ((op : ι) × reply op) := none

/-- Processes of several instances, each of which has a memory of its own, over one store. -/
structure Fleet (ρ μ ι : Type) (reply : ι → Type) (α σ : Type) where
  clock : ℕ
  memory : ℕ → μ
  store : σ
  tasks : List (Task ρ μ ι reply α)

/-- A request arrives at an instance, or a task has its turn. -/
inductive Deed (ρ ι : Type) (reply : ι → Type)
  | arrive (request : ρ) (host : ℕ)
  | finish (index time : ℕ)
  | perform (request : ρ) (index time : ℕ) (op : ι) (r : reply op)

/-! ### Disciplines -/

/-- What gives a program a right, and what needs one. -/
structure Discipline (μ ι : Type) (reply : ι → Type) (κ : Type) where
  /-- The rights from an answer, which end with the next operation. -/
  grants : (op : ι) → reply op → κ → Prop
  /-- The rights from a look at the memory. -/
  shows : μ → κ → Prop
  may : (κ → Prop) → ι → Prop
  mayWrite : (κ → Prop) → μ → μ → Prop

variable {μ ι : Type} {reply : ι → Type} {α β σ ρ κ : Type} {D : Discipline μ ι reply κ}
  {K K' : κ → Prop} {m m' : μ} {t : ℕ}

namespace Process

/-- The program keeps to the discipline, and its result with the rights that it leaves is in `Φ`. -/
def Obeys (D : Discipline μ ι reply κ) (Φ : (κ → Prop) → α → Prop) :
    (κ → Prop) → Process μ ι reply α → Prop
  | K, .done a => Φ K a
  | K, .sync update next => ∀ t m, D.mayWrite K m (update t m) ∧
    (next t m).Obeys D Φ fun k => K k ∨ D.shows m k
  | K, .perform op next => D.may K op ∧ ∀ r, (next r).Obeys D Φ (D.grants op r)

variable {Φ Ψ : (κ → Prop) → α → Prop} {p q : Process μ ι reply α}

/-- **The rule of consequence.** -/
theorem Obeys.imp (h : p.Obeys D Φ K) (hΨ : ∀ K a, Φ K a → Ψ K a) : p.Obeys D Ψ K := by
  induction p generalizing K with
  | done a => exact hΨ K a h
  | sync update next ih => exact fun t m => ⟨(h t m).1, ih t m (h t m).2⟩
  | perform op next ih => exact ⟨h.1, fun r => ih r (h.2 r)⟩

/-- **The rule for a sequence.** -/
theorem obeys_bind {f : α → Process μ ι reply β} {Ψ : (κ → Prop) → β → Prop} :
    (p >>= f).Obeys D Ψ K ↔ p.Obeys D (fun K a => (f a).Obeys D Ψ K) K := by
  show (p.bind f).Obeys D Ψ K ↔ _
  induction p generalizing K with
  | done a => rfl
  | sync update next ih => exact forall₂_congr fun t m => and_congr_right fun _ => ih t m
  | perform op next ih => exact and_congr_right fun _ => forall_congr' fun r => ih r

/-- **The rule for an operation.** -/
theorem obeys_await {op : ι} {Φ : (κ → Prop) → reply op → Prop} :
    (await op : Process μ ι reply (reply op)).Obeys D Φ K ↔
      D.may K op ∧ ∀ r, Φ (D.grants op r) r := Iff.rfl

/-- **The rule for a synchronous section.** -/
theorem obeys_atOnce {f : ℕ → μ → α × μ} :
    (atOnce f : Process μ ι reply α).Obeys D Φ K ↔
      ∀ t m, D.mayWrite K m (f t m).2 ∧ Φ (fun k => K k ∨ D.shows m k) (f t m).1 := Iff.rfl

/-- **The frame rule**: a program that needs no rights keeps to the discipline with any. -/
theorem Within.obeys {ops : ι → Prop} {updates : μ → μ → Prop} (h : p.Within ops updates)
    (hops : ∀ op, ops op → ∀ K, D.may K op) (hupdates : ∀ m m', updates m m' → ∀ K, D.mayWrite K m m')
    (K : κ → Prop) : p.Obeys D (fun _ _ => True) K := by
  induction p generalizing K with
  | done a => trivial
  | sync update next ih => exact fun t m => ⟨hupdates _ _ (h t m).1 K, ih t m (h t m).2 _⟩
  | perform op next ih => exact ⟨hops op h.1 K, fun r => ih r (h.2 r) _⟩

end Process

/-- The rights and the memory after synchronous sections. -/
inductive Discipline.Settles (D : Discipline μ ι reply κ) :
    (κ → Prop) → μ → (κ → Prop) → μ → Prop
  | refl (K : κ → Prop) (m : μ) : D.Settles K m K m
  | write {K K' : κ → Prop} {m m₁ m' : μ} : D.mayWrite K m m₁ →
    D.Settles (fun k => K k ∨ D.shows m k) m₁ K' m' → D.Settles K m K' m'

namespace Process

/-- A process that obeys a discipline still does when it has run to its next call. -/
theorem Obeys.settle {Φ : (κ → Prop) → α → Prop} {p q : Process μ ι reply α} (h : p.Obeys D Φ K)
    (hq : p.settle t m = (q, m')) : ∃ K', D.Settles K m K' m' ∧ q.Obeys D Φ K' := by
  induction p generalizing K m with
  | done a =>
    obtain ⟨rfl, rfl⟩ := Prod.mk.inj hq
    exact ⟨K, .refl K m, h⟩
  | sync update next ih =>
    obtain ⟨K', hK', hobeys⟩ := ih t m (h t m).2 hq
    exact ⟨K', .write (h t m).1 hK', hobeys⟩
  | perform op next _ =>
    obtain ⟨rfl, rfl⟩ := Prod.mk.inj hq
    exact ⟨K, .refl K m, h⟩

end Process

namespace Task

variable {D : ρ → Discipline μ ι reply κ} {p : Process μ ι reply α}

/-- The rights that a task has from its last answer. -/
def rights (D : ρ → Discipline μ ι reply κ) (task : Task ρ μ ι reply α) (k : κ) : Prop :=
  ∃ answer ∈ task.answered, (D task.request).grants answer.1 answer.2 k

theorem rights_arrive {request : ρ} {host : ℕ} :
    ({ request, host, process := p } : Task ρ μ ι reply α).rights D = fun _ => False := by
  funext k
  simp [rights]

theorem rights_perform {task : Task ρ μ ι reply α} {op : ι} {r : reply op} :
    ({ task with process := p, answered := some ⟨op, r⟩ } : Task ρ μ ι reply α).rights D =
      (D task.request).grants op r := by
  funext k
  simp [rights]

end Task

/-! ### Steps -/

namespace Fleet

/-- The result of the program at a place. -/
def result? (s : Fleet ρ μ ι reply α σ) (i : ℕ) : Option α :=
  s.tasks[i]?.bind fun task => task.process.result?

/-- The steps of the programs `serve r`. -/
inductive Step (serve : ρ → Process μ ι reply α)
    (answers : ℕ → σ → (op : ι) → reply op → σ → Prop) :
    Fleet ρ μ ι reply α σ → Deed ρ ι reply → Fleet ρ μ ι reply α σ → Prop
  | arrive {s : Fleet ρ μ ι reply α σ} {request : ρ} {host : ℕ} :
    Step serve answers s (.arrive request host)
      { s with tasks := s.tasks ++ [{ request, host, process := serve request }] }
  | finish {s : Fleet ρ μ ι reply α σ} {i t : ℕ} {task : Task ρ μ ι reply α} {a : α} {m : μ} :
    s.clock ≤ t → s.tasks[i]? = some task → task.process.settle t (s.memory task.host) = (.done a, m) →
    Step serve answers s (.finish i t)
      { s with clock := t, memory := Function.update s.memory task.host m,
               tasks := s.tasks.set i { task with process := .done a } }
  | perform {s : Fleet ρ μ ι reply α σ} {request : ρ} {i t : ℕ} {task : Task ρ μ ι reply α} {op : ι}
    {next : reply op → Process μ ι reply α} {m : μ} {r : reply op} {store : σ} :
    s.clock ≤ t → s.tasks[i]? = some task → task.request = request →
    task.process.settle t (s.memory task.host) = (.perform op next, m) → answers t s.store op r store →
    Step serve answers s (.perform request i t op r)
      { clock := t, memory := Function.update s.memory task.host m, store,
        tasks := s.tasks.set i { task with process := next r, answered := some ⟨op, r⟩ } }

variable {serve : ρ → Process μ ι reply α} {answers : ℕ → σ → (op : ι) → reply op → σ → Prop}
  {s s' : Fleet ρ μ ι reply α σ} {d : Deed ρ ι reply} {D : ρ → Discipline μ ι reply κ}

/-- Every task keeps to the discipline of its request. -/
def Obeying (D : ρ → Discipline μ ι reply κ) (s : Fleet ρ μ ι reply α σ) : Prop :=
  ∀ task ∈ s.tasks, task.process.Obeys (D task.request) (fun _ _ => True) (task.rights D)

/-- **A step keeps every process to its discipline**, whatever the others do. -/
theorem Step.obeying (hserve : ∀ r, (serve r).Obeys (D r) (fun _ _ => True) fun _ => False)
    (hs : Step serve answers s d s') (h : Obeying D s) : Obeying D s' := by
  cases hs with
  | @arrive request host =>
    intro task htask
    rcases List.mem_append.mp htask with htask | htask
    · exact h task htask
    · rw [List.mem_singleton.mp htask, Task.rights_arrive]
      exact hserve request
  | finish _ hi hsettle =>
    intro task htask
    rcases List.mem_or_eq_of_mem_set htask with htask | rfl
    · exact h task htask
    · trivial
  | perform _ hi _ hsettle _ =>
    intro task htask
    rcases List.mem_or_eq_of_mem_set htask with htask | rfl
    · exact h task htask
    · obtain ⟨K', -, hobeys⟩ := (h _ (List.mem_of_getElem? hi)).settle hsettle
      rw [Task.rights_perform]
      exact hobeys.2 _

end Fleet

end StellarForge.Concurrency
