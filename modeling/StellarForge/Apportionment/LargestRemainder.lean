import Mathlib.Algebra.BigOperators.Group.List.Basic
import Mathlib.Algebra.Order.BigOperators.Group.List
import Mathlib.Data.List.Forall2
import Mathlib.Tactic.Linarith
import Mathlib.Tactic.Ring

/-!
# Largest-remainder apportionment

An amount `a` is divided in proportion to the weights `ws`, whose sum is `D`.  The exact share of
the weight `w` is `a * w / D`; each share is first rounded down, and the units left over go, one
each, to positions with a positive fractional numerator `a * w % D`.

`awardBy pick` is the award loop for any rule `pick` that finds a positive numerator where there
is one.  The main results are

* `Apportionment.remainder_le_countP_pos`: there are enough positive numerators for the units left
  over;
* `Apportionment.isApportionment_awardBy`: the loop divides the amount exactly, and each share is
  its exact value rounded down, or one more.
-/

namespace StellarForge.Apportionment

/-- The exact share of the weight `w`, rounded down. -/
def share (D a : ℤ) (w : ℕ) : ℤ := a * w / D

/-- The numerator of the fraction that `share` drops. -/
def frac (D a : ℤ) (w : ℕ) : ℤ := a * w % D

/-- The shares divide `a` exactly, and each is its exact value rounded down, or one more. -/
structure IsApportionment (D a : ℤ) (ws : List ℕ) (shares : List ℤ) : Prop where
  quota : List.Forall₂ (fun w s => s = share D a w ∨ s = share D a w + 1) ws shares
  sum_eq : shares.sum = a

variable {D a : ℤ} {w : ℕ} {ws : List ℕ}

/-! ### The units left over -/

theorem share_nonneg (hD : 0 < D) (ha : 0 ≤ a) : 0 ≤ share D a w :=
  Int.ediv_nonneg (Int.mul_nonneg ha (Int.natCast_nonneg w)) hD.le

theorem frac_nonneg (hD : 0 < D) : 0 ≤ frac D a w := Int.emod_nonneg _ hD.ne'

theorem frac_lt (hD : 0 < D) : frac D a w < D := Int.emod_lt_of_pos _ hD

/-- The shares of an amount that is not negative are not negative. -/
theorem IsApportionment.nonneg {shares : List ℤ} (h : IsApportionment D a ws shares) (hD : 0 < D)
    (ha : 0 ≤ a) : ∀ s ∈ shares, 0 ≤ s := by
  obtain ⟨hquota, -⟩ := h
  induction hquota with
  | nil => simp
  | @cons w s _ _ hs _ ih =>
    refine List.forall_mem_cons.mpr ⟨?_, ih⟩
    have hshare : 0 ≤ share D a w := share_nonneg hD ha
    omega

/-- Euclidean division, summed over the weights. -/
theorem mul_sum_share_add_sum_frac (D a : ℤ) (ws : List ℕ) :
    D * (ws.map (share D a)).sum + (ws.map (frac D a)).sum = a * (ws.sum : ℕ) := by
  induction ws with
  | nil => simp
  | cons w ws ih =>
    have hw : D * share D a w + frac D a w = a * w := Int.mul_ediv_add_emod _ _
    simp only [List.map_cons, List.sum_cons, Nat.cast_add, mul_add]
    linarith

/-- `D` times the units left over is the sum of the fractional numerators. -/
theorem mul_remainder (hws : (ws.sum : ℤ) = D) :
    D * (a - (ws.map (share D a)).sum) = (ws.map (frac D a)).sum := by
  have h := mul_sum_share_add_sum_frac D a ws
  rw [hws] at h
  linarith

/-- Where no fraction exceeds `M`, as many positive ones are needed as the sum has `M`s in it. -/
theorem sum_le_mul_countP_pos {M : ℤ} {fracs : List ℤ} (hf : ∀ f ∈ fracs, f ≤ M) :
    fracs.sum ≤ M * fracs.countP (0 < ·) := by
  induction fracs with
  | nil => simp
  | cons f fracs ih =>
    have ih := ih fun g hg => hf g (List.mem_cons_of_mem _ hg)
    have hfM := hf f (List.mem_cons_self ..)
    rw [List.sum_cons, List.countP_cons]
    split_ifs with hpos
    · push_cast
      linarith
    · have : f ≤ 0 := by simpa using hpos
      push_cast
      linarith

/-- The floors do not exceed the amount. -/
theorem remainder_nonneg (hD : 0 < D) (hws : (ws.sum : ℤ) = D) :
    0 ≤ a - (ws.map (share D a)).sum := by
  have hsum : 0 ≤ (ws.map (frac D a)).sum := by
    apply List.sum_nonneg
    intro f hf
    obtain ⟨w, -, rfl⟩ := List.mem_map.mp hf
    exact frac_nonneg hD
  rw [← mul_remainder hws] at hsum
  exact nonneg_of_mul_nonneg_right hsum hD

/-- **The shares rounded down lose nothing** exactly when none of them had to be rounded. -/
theorem sum_share_eq_iff (hD : 0 < D) (hws : (ws.sum : ℤ) = D) :
    (ws.map (share D a)).sum = a ↔ ∀ w ∈ ws, D ∣ a * w := by
  have hmul := mul_remainder (a := a) hws
  have hnonneg : ∀ f ∈ ws.map (frac D a), 0 ≤ f := by
    intro f hf
    obtain ⟨w, -, rfl⟩ := List.mem_map.mp hf
    exact frac_nonneg hD
  constructor
  · intro hsum w hw
    rw [hsum, sub_self, mul_zero] at hmul
    -- the numerators are not negative, and add up to nothing
    have hzero : frac D a w = 0 := by
      have hle := List.single_le_sum hnonneg (frac D a w) (List.mem_map_of_mem hw)
      have hge := hnonneg (frac D a w) (List.mem_map_of_mem hw)
      omega
    exact Int.dvd_of_emod_eq_zero hzero
  · intro hdvd
    have hzero : (ws.map (frac D a)).sum = 0 := by
      apply List.sum_eq_zero
      intro f hf
      obtain ⟨w, hw, rfl⟩ := List.mem_map.mp hf
      exact Int.emod_eq_zero_of_dvd (hdvd w hw)
    rw [hzero] at hmul
    have hrest := (mul_eq_zero.mp hmul).resolve_left hD.ne'
    omega

/-- **There are enough positive numerators for the units left over.** -/
theorem remainder_le_countP_pos (hD : 0 < D) (hws : (ws.sum : ℤ) = D) :
    a - (ws.map (share D a)).sum ≤ (ws.map (frac D a)).countP (0 < ·) := by
  have hle : (ws.map (frac D a)).sum ≤ D * (ws.map (frac D a)).countP (0 < ·) := by
    apply sum_le_mul_countP_pos
    intro f hf
    obtain ⟨w, -, rfl⟩ := List.mem_map.mp hf
    exact (frac_lt hD).le
  rw [← mul_remainder hws] at hle
  exact le_of_mul_le_mul_left hle hD

/-! ### The award loop -/

/-- `pick` finds the position of a positive entry where there is one. -/
def FindsPositive (pick : List ℤ → Option ℕ) : Prop :=
  ∀ fracs : List ℤ, 0 < fracs.countP (0 < ·) →
    ∃ i f, pick fracs = some i ∧ fracs[i]? = some f ∧ 0 < f

/-- Award one unit to each of `n` positions that `pick` chooses; a position that has had its unit
counts as having no fraction left. -/
def awardBy (pick : List ℤ → Option ℕ) : ℕ → (floors fracs : List ℤ) → List ℤ
  | 0, floors, _ => floors
  | n + 1, floors, fracs =>
    match pick fracs with
    | none => floors
    | some i => awardBy pick n (floors.modify i (· + 1)) (fracs.set i 0)

/-- One unit more for one share. -/
theorem sum_modify_add_one {l : List ℤ} {i : ℕ} (hi : i < l.length) :
    (l.modify i (· + 1)).sum = l.sum + 1 := by
  induction l generalizing i with
  | nil => simp at hi
  | cons x l ih =>
    rcases i with _ | i
    · simp only [List.modify_zero_cons, List.sum_cons]
      ring
    · have hi' : i < l.length := by simpa using hi
      rw [List.modify_succ_cons, List.sum_cons, List.sum_cons, ih hi']
      ring

theorem countP_pos_set_zero {fracs : List ℤ} {i : ℕ} {f : ℤ} (hi : fracs[i]? = some f)
    (hf : 0 < f) : (fracs.set i 0).countP (0 < ·) = fracs.countP (0 < ·) - 1 := by
  obtain ⟨hlt, rfl⟩ := List.getElem?_eq_some_iff.mp hi
  rw [List.countP_set hlt]
  simp [hf]

variable {pick : List ℤ → Option ℕ} {n : ℕ} {floors fracs : List ℤ}

/-- Awarding changes shares, not how many there are. -/
theorem length_awardBy : (awardBy pick n floors fracs).length = floors.length := by
  induction n generalizing floors fracs with
  | zero => rfl
  | succ n ih =>
    unfold awardBy
    split
    · rfl
    · rw [ih, List.length_modify]

/-- While positive numerators last, every round awards a unit. -/
theorem sum_awardBy (hpick : FindsPositive pick) (hlen : floors.length = fracs.length)
    (hn : n ≤ fracs.countP (0 < ·)) : (awardBy pick n floors fracs).sum = floors.sum + n := by
  induction n generalizing floors fracs with
  | zero => simp [awardBy]
  | succ n ih =>
    obtain ⟨i, f, hi, hf, hpos⟩ := hpick fracs (by omega)
    have hlt : i < floors.length := hlen ▸ (List.getElem?_eq_some_iff.mp hf).1
    have hcount := countP_pos_set_zero hf hpos
    rw [awardBy, hi]
    simp only []
    rw [ih (by rw [List.length_modify, List.length_set, hlen]) (by omega),
      sum_modify_add_one hlt]
    push_cast
    ring

/-- A position gets at most one unit, and only where its numerator is positive. -/
theorem getElem?_awardBy (hpick : FindsPositive pick) (hn : n ≤ fracs.countP (0 < ·)) {j : ℕ}
    {x f : ℤ} (hx : floors[j]? = some x) (hf : fracs[j]? = some f) :
    (awardBy pick n floors fracs)[j]? = some x ∨
      (awardBy pick n floors fracs)[j]? = some (x + 1) ∧ 0 < f := by
  induction n generalizing floors fracs x f with
  | zero => exact .inl hx
  | succ n ih =>
    obtain ⟨i, g, hi, hg, hpos⟩ := hpick fracs (by omega)
    have hcount := countP_pos_set_zero hg hpos
    have hn' : n ≤ (fracs.set i 0).countP (0 < ·) := by omega
    rw [awardBy, hi]
    simp only []
    by_cases hij : i = j
    · -- the position chosen now: its numerator is 0 from here on
      subst hij
      obtain rfl := Option.some.inj (hg.symm.trans hf)
      have hlt := (List.getElem?_eq_some_iff.mp hg).1
      have hx' : (floors.modify i (· + 1))[i]? = some (x + 1) := by
        rw [List.getElem?_modify_eq, hx, Option.map_eq_map, Option.map_some]
      have hf' : (fracs.set i 0)[i]? = some 0 := by simp [hlt]
      rcases ih hn' hx' hf' with h | ⟨-, h⟩
      · exact .inr ⟨h, hpos⟩
      · exact absurd h (lt_irrefl 0)
    · have hx' : (floors.modify i (· + 1))[j]? = some x := by
        rw [List.getElem?_modify_ne _ _ hij, hx]
      exact ih hn' hx' (by rw [List.getElem?_set_ne hij, hf])

/-- **The award loop divides the amount exactly**, each share being its exact value rounded down,
or one more. -/
theorem isApportionment_awardBy (hD : 0 < D) (hws : (ws.sum : ℤ) = D)
    (hpick : FindsPositive pick) :
    IsApportionment D a ws (awardBy pick (a - (ws.map (share D a)).sum).toNat
      (ws.map (share D a)) (ws.map (frac D a))) := by
  have hnonneg := remainder_nonneg (a := a) hD hws
  have hcount := remainder_le_countP_pos (a := a) hD hws
  have hn : (a - (ws.map (share D a)).sum).toNat ≤ (ws.map (frac D a)).countP (0 < ·) := by
    omega
  refine ⟨?_, ?_⟩
  · rw [List.forall₂_iff_get]
    refine ⟨by rw [length_awardBy, List.length_map], fun i h₁ h₂ => ?_⟩
    have hx : (ws.map (share D a))[i]? = some (share D a ws[i]) := by simp [h₁]
    have hf : (ws.map (frac D a))[i]? = some (frac D a ws[i]) := by simp [h₁]
    rw [List.get_eq_getElem, List.get_eq_getElem]
    rcases getElem?_awardBy hpick hn hx hf with h | ⟨h, -⟩
    · exact .inl (List.getElem?_eq_some_iff.mp h).2
    · exact .inr (List.getElem?_eq_some_iff.mp h).2
  · rw [sum_awardBy hpick (by simp) hn, Int.toNat_of_nonneg hnonneg]
    ring

end StellarForge.Apportionment
