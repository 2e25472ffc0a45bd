import Mathlib.Logic.Basic
import Mathlib.Tactic.Common

/-!
# Runs of a labelled transition system

`Run step s₀ h s` says that the steps with the labels `h`, **most recent first**, lead from `s₀` to
`s`.  The rules are

* `Run.invariant`: what holds at first and is preserved by every step holds at the end;
* `Run.simulation`: a run is followed by a run of any system that simulates it;
* `Run.rel`: a reflexive and transitive relation that holds across each step holds across the run;
* `Run.lastTouch`: either no step of the run has a given kind of label, or the run splits at the
  most recent step that has one.

`Guarded step C s₀ h s` is a run with the condition `C` before each of its steps.
-/

namespace StellarForge.Transition

variable {σ τ ℓ : Type*} {step : σ → ℓ → σ → Prop}

/-- A run from `s₀` with the labels `h`, most recent first. -/
inductive Run (step : σ → ℓ → σ → Prop) (s₀ : σ) : List ℓ → σ → Prop
  | nil : Run step s₀ [] s₀
  | snoc {h : List ℓ} {l : ℓ} {s s' : σ} : Run step s₀ h s → step s l s' → Run step s₀ (l :: h) s'

namespace Run

variable {s₀ s s' : σ} {h h' : List ℓ} {l : ℓ}

theorem nil_iff : Run step s₀ [] s ↔ s₀ = s := by
  constructor
  · rintro ⟨⟩
    rfl
  · rintro rfl
    exact .nil

theorem cons_iff : Run step s₀ (l :: h) s' ↔ ∃ s, Run step s₀ h s ∧ step s l s' := by
  constructor
  · rintro (_ | ⟨hr, hs⟩)
    exact ⟨_, hr, hs⟩
  · rintro ⟨s, hr, hs⟩
    exact .snoc hr hs

theorem append (hr : Run step s₀ h s) (hr' : Run step s h' s') : Run step s₀ (h' ++ h) s' := by
  induction hr' with
  | nil => exact hr
  | snoc _ hs ih => exact .snoc ih hs

/-- A run splits at every point of its history. -/
theorem split : ∀ {h' : List ℓ} {s' : σ}, Run step s₀ (h' ++ h) s' →
    ∃ s, Run step s₀ h s ∧ Run step s h' s'
  | [], s', hr => ⟨s', hr, .nil⟩
  | l :: h', s', hr => by
    obtain ⟨s₁, hr₁, hs⟩ := cons_iff.mp hr
    obtain ⟨s, hr₀, hr'⟩ := split hr₁
    exact ⟨s, hr₀, .snoc hr' hs⟩

/-- **Invariant rule.** -/
theorem invariant {I : σ → Prop} (hI : ∀ {s l s'}, I s → step s l s' → I s')
    (hr : Run step s₀ h s) (h₀ : I s₀) : I s := by
  induction hr with
  | nil => exact h₀
  | snoc _ hs ih => exact hI ih hs

/-- Systems that take the same steps where an invariant holds have the same runs. -/
theorem congr {step' : σ → ℓ → σ → Prop} {I : σ → Prop}
    (hI : ∀ {s l s'}, I s → step s l s' → I s')
    (hsame : ∀ {s l s'}, I s → (step s l s' ↔ step' s l s')) (h₀ : I s₀) :
    Run step s₀ h s ↔ Run step' s₀ h s := by
  constructor
  · intro hr
    induction hr with
    | nil => exact .nil
    | snoc hr hs ih => exact ih.snoc ((hsame (hr.invariant hI h₀)).mp hs)
  · intro hr
    induction hr with
    | nil => exact .nil
    | snoc _ hs ih => exact ih.snoc ((hsame (ih.invariant hI h₀)).mpr hs)

/-- **Invariant rule with a history**: the invariant speaks of the labels seen so far as well. -/
theorem historyInvariant {I : List ℓ → σ → Prop}
    (hI : ∀ {h s l s'}, Run step s₀ h s → I h s → step s l s' → I (l :: h) s')
    (hr : Run step s₀ h s) (h₀ : I [] s₀) : I h s := by
  induction hr with
  | nil => exact h₀
  | snoc hr hs ih => exact hI hr ih hs

/-- **Simulation rule.** -/
theorem simulation {step' : τ → ℓ → τ → Prop} {R : σ → τ → Prop}
    (hR : ∀ {s l s' t}, R s t → step s l s' → ∃ t', step' t l t' ∧ R s' t')
    {t₀ : τ} (hr : Run step s₀ h s) (h₀ : R s₀ t₀) : ∃ t, Run step' t₀ h t ∧ R s t := by
  induction hr with
  | nil => exact ⟨t₀, .nil, h₀⟩
  | snoc _ hs ih =>
    obtain ⟨t, hrt, ht⟩ := ih
    obtain ⟨t', hst, ht'⟩ := hR ht hs
    exact ⟨t', .snoc hrt hst, ht'⟩

/-- A preorder that holds across every step holds across the run. -/
theorem rel {R : σ → σ → Prop} (hrefl : ∀ s, R s s) (htrans : ∀ {a b c}, R a b → R b c → R a c)
    (hr : Run step s₀ h s) (hR : ∀ {s l s'}, l ∈ h → step s l s' → R s s') : R s₀ s := by
  induction hr with
  | nil => exact hrefl _
  | snoc _ hs ih =>
    exact htrans (ih fun hl hs' => hR (List.mem_cons_of_mem _ hl) hs') (hR (List.mem_cons_self ..) hs)

/-- What no step of the run changes is unchanged. -/
theorem frame {f : σ → τ} (hr : Run step s₀ h s)
    (hf : ∀ {s l s'}, l ∈ h → step s l s' → f s' = f s) : f s = f s₀ :=
  hr.rel (R := fun a b => f b = f a) (fun _ => rfl) (fun hab hbc => hbc.trans hab) hf

/-- **Last-touch rule**: either no label of the run has the property `touch`, or the run splits at
the most recent one that has it. -/
theorem lastTouch (touch : ℓ → Prop) (hr : Run step s₀ h s) :
    (∀ l ∈ h, ¬ touch l) ∨
      ∃ h₁ l h₂ s₁ s₂, h = h₂ ++ l :: h₁ ∧ touch l ∧ (∀ l' ∈ h₂, ¬ touch l') ∧
        Run step s₀ h₁ s₁ ∧ step s₁ l s₂ ∧ Run step s₂ h₂ s := by
  induction hr with
  | nil => exact .inl fun l hl => by simp at hl
  | @snoc h l s s' hr hs ih =>
    by_cases hl : touch l
    · exact .inr ⟨h, l, [], s, s', rfl, hl, by simp, hr, hs, .nil⟩
    · rcases ih with hno | ⟨h₁, m, h₂, s₁, s₂, rfl, hm, hno, hr₁, hs₁, hr₂⟩
      · left
        rintro l' hl'
        rcases List.mem_cons.mp hl' with rfl | hl'
        · exact hl
        · exact hno l' hl'
      · refine .inr ⟨h₁, m, l :: h₂, s₁, s₂, rfl, hm, ?_, hr₁, hs₁, .snoc hr₂ hs⟩
        rintro l' hl'
        rcases List.mem_cons.mp hl' with rfl | hl'
        · exact hl
        · exact hno l' hl'

end Run

/-! ### Runs under a condition -/

/-- A run whose steps all meet the condition, which is on the labels so far, the state and the label of
the step. -/
inductive Guarded (step : σ → ℓ → σ → Prop) (C : List ℓ → σ → ℓ → Prop) (s₀ : σ) : List ℓ → σ → Prop
  | nil : Guarded step C s₀ [] s₀
  | snoc {h : List ℓ} {l : ℓ} {s s' : σ} : Guarded step C s₀ h s → C h s l → step s l s' →
    Guarded step C s₀ (l :: h) s'

/-- **Invariant rule** for a run under a condition. -/
theorem Guarded.invariant {C : List ℓ → σ → ℓ → Prop} {I : List ℓ → σ → Prop} {s₀ s : σ} {h : List ℓ}
    (hI : ∀ {h s l s'}, I h s → C h s l → step s l s' → I (l :: h) s')
    (hr : Guarded step C s₀ h s) (h₀ : I [] s₀) : I h s := by
  induction hr with
  | nil => exact h₀
  | snoc _ hC hs ih => exact hI ih hC hs

end StellarForge.Transition
