import Mathlib.Tactic.Common

/-!
# Programs that await a remote service

A `Process` performs operations on a remote service, one at a time.  What it does between two of
them is synchronous: it reads the clock, and reads and updates the memory of the instance it runs
on, at once.

`Runs answers p w a w'` says that `p` on its own, started in `w`, ends in `w'` with the result `a`,
when the service answers as in `answers`; time may pass before each operation.  The rules are
`runs_done`, `runs_sync`, `runs_perform` and **`runs_bind`**: a sequence runs if and only if its parts
do.  `Runs.rel` is the frame rule, for a program whose operations and updates are known.  `RunsAt` says
when the operations of such a run take place.

`p.Yields good Ψ t` speaks of a program among others: if every reply that it gets is `good`, its result
is in `Ψ`.  Here too there is a rule for a sequence, **`yields_bind`**.
-/

namespace StellarForge.Concurrency

/-- A program over a memory `μ` with the operations `ι`. -/
inductive Process (μ ι : Type) (reply : ι → Type) (α : Type) : Type
  | done (a : α)
  | sync (update : ℕ → μ → μ) (next : ℕ → μ → Process μ ι reply α)
  | perform (op : ι) (next : reply op → Process μ ι reply α)

/-- What the programs of a server share: the clock in milliseconds, the memory of the instance, and
the state of the remote service. -/
structure World (μ σ : Type) where
  clock : ℕ
  memory : μ
  store : σ

namespace Process

variable {μ ι : Type} {reply : ι → Type} {α β σ : Type}

/-- What follows a process takes what it returns. -/
def bind (p : Process μ ι reply α) (f : α → Process μ ι reply β) : Process μ ι reply β :=
  match p with
  | .done a => f a
  | .sync update next => .sync update fun t m => (next t m).bind f
  | .perform op next => .perform op fun r => (next r).bind f

instance : Monad (Process μ ι reply) where
  pure := .done
  bind := .bind

/-- A synchronous section with a result. -/
def atOnce (f : ℕ → μ → α × μ) : Process μ ι reply α :=
  .sync (fun t m => (f t m).2) fun t m => .done (f t m).1

/-- One operation. -/
def await (op : ι) : Process μ ι reply (reply op) := .perform op .done

/-- What `p` is left with after the synchronous sections before its next operation. -/
def settle (t : ℕ) : μ → Process μ ι reply α → Process μ ι reply α × μ
  | m, .sync update next => settle t (update t m) (next t m)
  | m, p => (p, m)

theorem settle_cases (p : Process μ ι reply α) (t : ℕ) (m : μ) :
    (∃ a m', p.settle t m = (.done a, m')) ∨ ∃ op next m', p.settle t m = (.perform op next, m') := by
  induction p generalizing m with
  | done a => exact .inl ⟨a, m, rfl⟩
  | sync update next ih => exact ih t m (update t m)
  | perform op next _ => exact .inr ⟨op, next, m, rfl⟩

/-- The result of a program that has ended. -/
def result? : Process μ ι reply α → Option α
  | .done a => some a
  | _ => none

/-! ### Runs -/

/-- Time passes. -/
def Elapse (w w' : World μ σ) : Prop := ∃ t, w.clock ≤ t ∧ w' = { w with clock := t }

theorem Elapse.refl (w : World μ σ) : Elapse w w := ⟨w.clock, Nat.le_refl _, rfl⟩

theorem Elapse.trans {w w₁ w' : World μ σ} (h : Elapse w w₁) (h' : Elapse w₁ w') : Elapse w w' := by
  obtain ⟨t, ht, rfl⟩ := h
  obtain ⟨t', ht', rfl⟩ := h'
  exact ⟨t', Nat.le_trans ht ht', rfl⟩

/-- The program runs on its own, from its start to its end. -/
inductive Runs (answers : ℕ → σ → (op : ι) → reply op → σ → Prop) :
    Process μ ι reply α → World μ σ → α → World μ σ → Prop
  | done {a : α} {w w' : World μ σ} : Elapse w w' → Runs answers (.done a) w a w'
  | sync {update : ℕ → μ → μ} {next : ℕ → μ → Process μ ι reply α} {w w₁ w' : World μ σ} {a : α} :
    Elapse w w₁ →
    Runs answers (next w₁.clock w₁.memory) { w₁ with memory := update w₁.clock w₁.memory } a w' →
    Runs answers (.sync update next) w a w'
  | perform {op : ι} {next : reply op → Process μ ι reply α} {w w₁ w' : World μ σ} {r : reply op}
    {s : σ} {a : α} :
    Elapse w w₁ → answers w₁.clock w₁.store op r s →
    Runs answers (next r) { w₁ with store := s } a w' →
    Runs answers (.perform op next) w a w'

variable {answers : ℕ → σ → (op : ι) → reply op → σ → Prop} {w w' w₁ : World μ σ} {a b : α}

theorem runs_done : Runs answers (.done a : Process μ ι reply α) w b w' ↔ b = a ∧ Elapse w w' := by
  constructor
  · rintro (h | _ | _)
    exact ⟨rfl, h⟩
  · rintro ⟨rfl, h⟩
    exact .done h

theorem runs_sync {update : ℕ → μ → μ} {next : ℕ → μ → Process μ ι reply α} :
    Runs answers (.sync update next) w a w' ↔
      ∃ w₁, Elapse w w₁ ∧ Runs answers (next w₁.clock w₁.memory)
        { w₁ with memory := update w₁.clock w₁.memory } a w' := by
  constructor
  · rintro (_ | ⟨h, hnext⟩ | _)
    exact ⟨_, h, hnext⟩
  · rintro ⟨w₁, h, hnext⟩
    exact .sync h hnext

theorem runs_perform {op : ι} {next : reply op → Process μ ι reply α} :
    Runs answers (.perform op next) w a w' ↔
      ∃ w₁ r s, Elapse w w₁ ∧ answers w₁.clock w₁.store op r s ∧
        Runs answers (next r) { w₁ with store := s } a w' := by
  constructor
  · rintro (_ | _ | ⟨h, hans, hnext⟩)
    exact ⟨_, _, _, h, hans, hnext⟩
  · rintro ⟨w₁, r, s, h, hans, hnext⟩
    exact .perform h hans hnext

/-- A program may wait before it starts. -/
theorem Runs.after {p : Process μ ι reply α} (h : Elapse w w₁) (hp : Runs answers p w₁ a w') :
    Runs answers p w a w' := by
  cases hp with
  | done h' => exact .done (h.trans h')
  | sync h' hnext => exact .sync (h.trans h') hnext
  | perform h' hans hnext => exact .perform (h.trans h') hans hnext

/-- A program may wait after its end. -/
theorem Runs.wait {p : Process μ ι reply α} (hp : Runs answers p w a w₁) (h : Elapse w₁ w') :
    Runs answers p w a w' := by
  induction hp with
  | done h' => exact .done (h'.trans h)
  | sync h' _ ih => exact .sync h' (ih h)
  | perform h' hans _ ih => exact .perform h' hans (ih h)

/-- **The rule for a sequence.** -/
theorem runs_bind {p : Process μ ι reply α} {f : α → Process μ ι reply β} {b : β} :
    Runs answers (p >>= f) w b w' ↔
      ∃ a w₁, Runs answers p w a w₁ ∧ Runs answers (f a) w₁ b w' := by
  -- by induction on the first process, call by call
  show Runs answers (p.bind f) w b w' ↔ _
  induction p generalizing w with
  | done a =>
    constructor
    · intro h
      exact ⟨a, w, .done (.refl w), h⟩
    · rintro ⟨a', w₁, hp, hf⟩
      obtain ⟨rfl, h⟩ := runs_done.mp hp
      exact hf.after h
  | sync update next ih =>
    rw [Process.bind, runs_sync]
    constructor
    · rintro ⟨w₁, h, hnext⟩
      obtain ⟨a, w₂, hp, hf⟩ := (ih _ _).mp hnext
      exact ⟨a, w₂, .sync h hp, hf⟩
    · rintro ⟨a, w₂, hp, hf⟩
      obtain ⟨w₁, h, hnext⟩ := runs_sync.mp hp
      exact ⟨w₁, h, (ih _ _).mpr ⟨a, w₂, hnext, hf⟩⟩
  | perform op next ih =>
    rw [Process.bind, runs_perform]
    constructor
    · rintro ⟨w₁, r, s, h, hans, hnext⟩
      obtain ⟨a, w₂, hp, hf⟩ := (ih _).mp hnext
      exact ⟨a, w₂, .perform h hans hp, hf⟩
    · rintro ⟨a, w₂, hp, hf⟩
      obtain ⟨w₁, r, s, h, hans, hnext⟩ := runs_perform.mp hp
      exact ⟨w₁, r, s, h, hans, (ih _).mpr ⟨a, w₂, hnext, hf⟩⟩

/-- **The rule for an operation.** -/
theorem runs_await {op : ι} {r : reply op} :
    Runs answers (await op : Process μ ι reply (reply op)) w r w' ↔
      ∃ w₁ s, Elapse w w₁ ∧ answers w₁.clock w₁.store op r s ∧ Elapse { w₁ with store := s } w' := by
  rw [await, runs_perform]
  constructor
  · rintro ⟨w₁, r', s, h, hans, hdone⟩
    obtain ⟨rfl, h'⟩ := runs_done.mp hdone
    exact ⟨w₁, s, h, hans, h'⟩
  · rintro ⟨w₁, s, h, hans, h'⟩
    exact ⟨w₁, r, s, h, hans, .done h'⟩

/-- **The rule for a synchronous section.** -/
theorem runs_atOnce {f : ℕ → μ → α × μ} :
    Runs answers (atOnce f : Process μ ι reply α) w a w' ↔
      ∃ w₁, Elapse w w₁ ∧ a = (f w₁.clock w₁.memory).1 ∧
        Elapse { w₁ with memory := (f w₁.clock w₁.memory).2 } w' := by
  rw [atOnce, runs_sync]
  simp only [runs_done]

/-! ### Timed runs -/

/-- The program runs on its own, performs its operations at the given times, and ends with the last of
them. -/
inductive RunsAt (answers : ℕ → σ → (op : ι) → reply op → σ → Prop) :
    Process μ ι reply α → List ℕ → World μ σ → α → World μ σ → Prop
  | done {a : α} {w : World μ σ} : RunsAt answers (.done a) [] w a w
  | sync {update : ℕ → μ → μ} {next : ℕ → μ → Process μ ι reply α} {w w' : World μ σ}
    {times : List ℕ} {a : α} :
    RunsAt answers (next w.clock w.memory) times { w with memory := update w.clock w.memory } a w' →
    RunsAt answers (.sync update next) times w a w'
  | perform {op : ι} {next : reply op → Process μ ι reply α} {w w' : World μ σ} {t : ℕ}
    {times : List ℕ} {r : reply op} {s : σ} {a : α} :
    w.clock ≤ t → answers t w.store op r s → RunsAt answers (next r) times ⟨t, w.memory, s⟩ a w' →
    RunsAt answers (.perform op next) (t :: times) w a w'

theorem runsAt_done {times : List ℕ} :
    RunsAt answers (.done a : Process μ ι reply α) times w b w' ↔ times = [] ∧ b = a ∧ w' = w := by
  constructor
  · rintro ⟨⟩
    exact ⟨rfl, rfl, rfl⟩
  · rintro ⟨rfl, rfl, rfl⟩
    exact .done

theorem runsAt_sync {update : ℕ → μ → μ} {next : ℕ → μ → Process μ ι reply α} {times : List ℕ} :
    RunsAt answers (.sync update next) times w a w' ↔
      RunsAt answers (next w.clock w.memory) times { w with memory := update w.clock w.memory } a
        w' := by
  constructor
  · rintro (_ | hnext | _)
    exact hnext
  · exact .sync

theorem runsAt_perform {op : ι} {next : reply op → Process μ ι reply α} {times : List ℕ} :
    RunsAt answers (.perform op next) times w a w' ↔
      ∃ t rest r s, times = t :: rest ∧ w.clock ≤ t ∧ answers t w.store op r s ∧
        RunsAt answers (next r) rest ⟨t, w.memory, s⟩ a w' := by
  constructor
  · rintro (_ | _ | ⟨ht, hans, hnext⟩)
    exact ⟨_, _, _, _, rfl, ht, hans, hnext⟩
  · rintro ⟨t, rest, r, s, rfl, ht, hans, hnext⟩
    exact .perform ht hans hnext

/-! ### Frames -/

section

variable {ops : ι → Prop} {updates : μ → μ → Prop}

/-- The operations of the program are in `ops`, and its updates of the memory in `updates`. -/
def Within (ops : ι → Prop) (updates : μ → μ → Prop) : Process μ ι reply α → Prop
  | .done _ => True
  | .sync update next => ∀ t m, updates m (update t m) ∧ (next t m).Within ops updates
  | .perform op next => ops op ∧ ∀ r, (next r).Within ops updates

/-- **The frame rule**: a preorder that holds across waiting, across the updates and across the
operations of a program holds across its runs. -/
theorem Runs.rel {R : World μ σ → World μ σ → Prop} (htrans : ∀ {a b c}, R a b → R b c → R a c)
    (helapse : ∀ {w w'}, Elapse w w' → R w w')
    (hupdate : ∀ {w m}, updates w.memory m → R w { w with memory := m })
    (hop : ∀ {w op r s}, ops op → answers w.clock w.store op r s → R w { w with store := s })
    {p : Process μ ι reply α} (hr : Runs answers p w a w') (hp : p.Within ops updates) : R w w' := by
  induction hr with
  | done h => exact helapse h
  | sync h _ ih =>
    obtain ⟨hu, hnext⟩ := hp _ _
    exact htrans (helapse h) (htrans (hupdate hu) (ih hnext))
  | perform h hans _ ih => exact htrans (helapse h) (htrans (hop hp.1 hans) (ih (hp.2 _)))

end

/-! ### Results -/

section

variable {good : ℕ → (op : ι) → reply op → Prop} {Φ Ψ : α → ℕ → Prop}

/-- When every reply is `good`, the result of the program, with the time at which it has it, is in
`Ψ`; the time given is the one at which the program goes on. -/
def Yields (good : ℕ → (op : ι) → reply op → Prop) (Ψ : α → ℕ → Prop) :
    Process μ ι reply α → ℕ → Prop
  | .done a, t => Ψ a t
  | .sync _ next, t => ∀ m, (next t m).Yields good Ψ t
  | .perform op next, t => ∀ r, good t op r → ∀ t', (next r).Yields good Ψ t'

/-- **The rule for a sequence.** -/
theorem yields_bind {p : Process μ ι reply α} {f : α → Process μ ι reply β} {Ψ : β → ℕ → Prop}
    {t : ℕ} :
    (p >>= f).Yields good Ψ t ↔ p.Yields good (fun a t => (f a).Yields good Ψ t) t := by
  show (p.bind f).Yields good Ψ t ↔ _
  induction p generalizing t with
  | done a => rfl
  | sync update next ih => exact forall_congr' fun m => ih t m
  | perform op next ih =>
    exact forall_congr' fun r => forall_congr' fun _ => forall_congr' fun t' => ih r

/-- **The rule of consequence.** -/
theorem Yields.imp {p : Process μ ι reply α} {t : ℕ} (h : p.Yields good Φ t)
    (hΨ : ∀ a t, Φ a t → Ψ a t) : p.Yields good Ψ t := by
  induction p generalizing t with
  | done a => exact hΨ a t h
  | sync update next ih => exact fun m => ih t m (h m)
  | perform op next ih => exact fun r hr t' => ih r (h r hr t')

theorem Yields.of_forall {p : Process μ ι reply α} {t : ℕ} (hΨ : ∀ a t, Ψ a t) :
    p.Yields good Ψ t := by
  induction p generalizing t with
  | done a => exact hΨ a t
  | sync update next ih => exact fun m => ih t m
  | perform op next ih => exact fun r _ t' => ih r

/-- What a process yields, it yields when it has run to its next call. -/
theorem Yields.settle {p q : Process μ ι reply α} {t : ℕ} {m m' : μ} (h : p.Yields good Ψ t)
    (hq : p.settle t m = (q, m')) : q.Yields good Ψ t := by
  induction p generalizing m with
  | done a =>
    obtain ⟨rfl, -⟩ := Prod.mk.inj hq
    exact h
  | sync update next ih => exact ih t m (h m) hq
  | perform op next _ =>
    obtain ⟨rfl, -⟩ := Prod.mk.inj hq
    exact h

end

end Process

end StellarForge.Concurrency
