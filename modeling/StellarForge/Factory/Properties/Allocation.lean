import StellarForge.Apportionment.LargestRemainder
import StellarForge.Factory.Refinement.Helpers

/-!
# The allocation of a fee among the recipients of a split

The first two passes of `distribute_fee` are an instance of largest-remainder apportionment with the
sum of weights `10000`:

* `allocate_eq_some` and `allocate_eq_none`: pass 1 computes the floors and the fractional
  numerators, unless a product overflows;
* `findsPositive_pickFrac`: the scan for the largest numerator finds a positive one;
* `awardRemainder_eq`: so pass 2 awards every unit, and its saturating arithmetic is exact.
-/

namespace StellarForge.Factory

open Soroban Apportionment

/-- The floors and numerators of pass 1. -/
def Allocation.of (a : ℤ) (entries : List (Address × ℕ)) : Allocation where
  addrs := entries.map Prod.fst
  floors := entries.map fun e => share 10000 a e.2
  fracs := entries.map fun e => frac 10000 a e.2
  totalFloor := (entries.map fun e => share 10000 a e.2).sum

/-- The allocation after the further entries of `x`. -/
def Allocation.append (acc x : Allocation) : Allocation where
  addrs := acc.addrs ++ x.addrs
  floors := acc.floors ++ x.floors
  fracs := acc.fracs ++ x.fracs
  totalFloor := acc.totalFloor + x.totalFloor

variable {a : ℤ} {e : Address × ℕ} {entries : List (Address × ℕ)} {acc alloc : Allocation}

/-! ### Pass 1 -/

theorem Allocation.append_of_cons : acc.append (of a (e :: entries)) =
    (acc.append (of a [e])).append (of a entries) := by
  simp [append, of, Int.add_assoc]

theorem tdiv_eq_share (ha : 0 ≤ a) (w : ℕ) : (a * w).tdiv 10000 = share 10000 a w :=
  Int.tdiv_eq_ediv_of_nonneg (Int.mul_nonneg ha (Int.natCast_nonneg w))

theorem sub_share_mul (w : ℕ) : a * w - share 10000 a w * 10000 = frac 10000 a w := by
  have := Int.mul_ediv_add_emod (a * w) 10000
  rw [share, frac]
  omega

/-- One pass of the loop, when nothing overflows. -/
theorem allocateOne_eq_some (ha : 0 ≤ a) (h : allocateOne a acc e = some alloc) :
    alloc = acc.append (.of a [e]) ∧ I128.checkedMul a e.2 ≠ none := by
  simp only [allocateOne, bind, Option.bind_eq_some_iff, pure, Option.some.injEq] at h
  obtain ⟨product, hproduct, floorMul, hfloorMul, fracNum, hfrac, total, htotal, rfl⟩ := h
  refine ⟨?_, by simp [hproduct]⟩
  obtain ⟨rfl, -⟩ := I128.checked_eq_some.mp hproduct
  obtain ⟨rfl, -⟩ := I128.checked_eq_some.mp hfloorMul
  obtain ⟨rfl, -⟩ := I128.checked_eq_some.mp hfrac
  obtain ⟨rfl, -⟩ := I128.checked_eq_some.mp htotal
  simp only [tdiv_eq_share ha, sub_share_mul, Allocation.append, Allocation.of, List.map_cons,
    List.map_nil, List.sum_cons, List.sum_nil, Int.add_zero]

/-- One pass of the loop overflows in its first product only. -/
theorem allocateOne_eq_none (ha : 0 ≤ a) (hacc : 0 ≤ acc.totalFloor)
    (hmax : acc.totalFloor + share 10000 a e.2 ≤ I128.MAX) (h : allocateOne a acc e = none) :
    I128.checkedMul a e.2 = none := by
  rw [Option.eq_none_iff_forall_ne_some]
  intro product hproduct
  have hp := hproduct
  obtain ⟨rfl, -, hle⟩ := I128.checked_eq_some.mp hp
  have hprod : 0 ≤ a * e.2 := Int.mul_nonneg ha (Int.natCast_nonneg _)
  have hmin := I128.MIN_lt_zero
  have hshare : 0 ≤ share 10000 a e.2 := share_nonneg (by decide) ha
  have hfrac : 0 ≤ frac 10000 a e.2 := frac_nonneg (by decide)
  have hsub := sub_share_mul (a := a) e.2
  have hmul : I128.checkedMul (share 10000 a e.2) 10000 = some (share 10000 a e.2 * 10000) :=
    I128.checked_eq_some.mpr ⟨rfl, by omega, by omega⟩
  have hsub' : I128.checkedSub (a * e.2) (share 10000 a e.2 * 10000) =
      some (a * e.2 - share 10000 a e.2 * 10000) :=
    I128.checked_eq_some.mpr ⟨rfl, by omega, by omega⟩
  have hadd : I128.checkedAdd acc.totalFloor (share 10000 a e.2) =
      some (acc.totalFloor + share 10000 a e.2) :=
    I128.checked_eq_some.mpr ⟨rfl, by omega, hmax⟩
  simp [allocateOne, hproduct, tdiv_eq_share ha, hmul, hsub', hadd] at h

/-- Where nothing overflows, the shares are those of the amount. -/
theorem foldlM_allocateOne_eq_some (ha : 0 ≤ a)
    (h : entries.foldlM (allocateOne a) acc = some alloc) :
    alloc = acc.append (.of a entries) ∧ ∀ e ∈ entries, I128.checkedMul a e.2 ≠ none := by
  induction entries generalizing acc with
  | nil =>
    obtain rfl := Option.some.inj h
    exact ⟨by simp [Allocation.append, Allocation.of], by simp⟩
  | cons e entries ih =>
    rw [List.foldlM_cons] at h
    obtain ⟨acc', hacc', h⟩ := Option.bind_eq_some_iff.mp h
    obtain ⟨rfl, he⟩ := allocateOne_eq_some ha hacc'
    obtain ⟨rfl, hentries⟩ := ih h
    exact ⟨Allocation.append_of_cons.symm, List.forall_mem_cons.mpr ⟨he, hentries⟩⟩

/-- Only a product can overflow, since the shares sum up to the amount at most. -/
theorem foldlM_allocateOne_eq_none (ha : 0 ≤ a) (hacc : 0 ≤ acc.totalFloor)
    (hmax : acc.totalFloor + (entries.map fun e => share 10000 a e.2).sum ≤ I128.MAX)
    (h : entries.foldlM (allocateOne a) acc = none) :
    ∃ e ∈ entries, I128.checkedMul a e.2 = none := by
  induction entries generalizing acc with
  | nil => simp at h
  | cons e entries ih =>
    -- floors of a non-negative amount only add up
    have hshare : 0 ≤ share 10000 a e.2 := share_nonneg (by decide) ha
    have hrest : 0 ≤ (entries.map fun e => share 10000 a e.2).sum := by
      refine List.sum_nonneg fun x hx => ?_
      obtain ⟨e', -, rfl⟩ := List.mem_map.mp hx
      exact share_nonneg (by decide) ha
    rw [List.map_cons, List.sum_cons] at hmax
    rw [List.foldlM_cons] at h
    rcases hone : allocateOne a acc e with _ | acc'
    · exact ⟨e, List.mem_cons_self .., allocateOne_eq_none ha hacc (by omega) hone⟩
    · rw [hone] at h
      obtain ⟨rfl, -⟩ := allocateOne_eq_some ha hone
      have h : entries.foldlM (allocateOne a) (acc.append (.of a [e])) = none := h
      obtain ⟨e', he', hoverflow⟩ := ih (by simp [Allocation.append, Allocation.of]; omega)
        (by simp [Allocation.append, Allocation.of]; omega) h
      exact ⟨e', List.mem_cons_of_mem _ he', hoverflow⟩

/-- **Pass 1** computes the floors and the numerators. -/
theorem allocate_eq_some (ha : 0 ≤ a) (h : allocate a entries = some alloc) :
    alloc = .of a entries ∧ ∀ e ∈ entries, I128.checkedMul a e.2 ≠ none := by
  obtain ⟨rfl, hentries⟩ := foldlM_allocateOne_eq_some ha h
  exact ⟨by simp [Allocation.append, Allocation.of], hentries⟩

/-- Pass 1 fails only when a product overflows. -/
theorem allocate_eq_none (ha : 0 ≤ a) (hsum : (entries.map Prod.snd).sum = 10000)
    (hmax : a ≤ I128.MAX) (h : allocate a entries = none) :
    ∃ e ∈ entries, I128.checkedMul a e.2 = none := by
  have hle : 0 ≤ a - ((entries.map Prod.snd).map (share 10000 a)).sum :=
    remainder_nonneg (by decide) (by rw [hsum]; rfl)
  rw [List.map_map] at hle
  refine foldlM_allocateOne_eq_none ha (le_refl _) ?_ h
  change 0 + (entries.map (share 10000 a ∘ Prod.snd)).sum ≤ _
  omega

/-! ### Pass 2 -/

/-- The scan ends with the candidate it started from, if no entry is larger, and with the position of
a larger entry otherwise. -/
theorem bestFrac_spec (fracs : List ℤ) (i bestIdx : ℕ) (best : ℤ) :
    (bestFrac fracs i bestIdx best = (bestIdx, best) ∧ ∀ f ∈ fracs, f ≤ best) ∨
    ∃ j f, bestFrac fracs i bestIdx best = (i + j, f) ∧ fracs[j]? = some f ∧ best < f ∧
      ∀ g ∈ fracs, g ≤ f := by
  induction fracs generalizing i bestIdx best with
  | nil => exact .inl ⟨rfl, by simp⟩
  | cons f fracs ih =>
    rw [bestFrac]
    split_ifs with hf
    · right
      rcases ih (i + 1) i f with ⟨heq, hle⟩ | ⟨j, g, heq, hg, hlt, hle⟩
      · exact ⟨0, f, heq, rfl, hf, List.forall_mem_cons.mpr ⟨le_refl _, hle⟩⟩
      · refine ⟨j + 1, g, ?_, hg, hf.trans hlt, List.forall_mem_cons.mpr ⟨hlt.le, hle⟩⟩
        rw [heq, Nat.add_right_comm, Nat.add_assoc]
    · rcases ih (i + 1) bestIdx best with
        ⟨heq, hle⟩ | ⟨j, g, heq, hg, hlt, hle⟩
      · exact .inl ⟨heq, List.forall_mem_cons.mpr ⟨not_lt.mp hf, hle⟩⟩
      · refine .inr ⟨j + 1, g, ?_, hg, hlt, List.forall_mem_cons.mpr ⟨(not_lt.mp hf).trans hlt.le, hle⟩⟩
        rw [heq, Nat.add_right_comm, Nat.add_assoc]

/-- The choice of pass 2: the position of the largest numerator, if it is positive. -/
def pickFrac (fracs : List ℤ) : Option ℕ :=
  let (bestIdx, best) := bestFrac fracs 0 0 (-1)
  if best ≤ 0 then none else some bestIdx

/-- The scan of `split_shares` finds a positive fraction where there is one. -/
theorem findsPositive_pickFrac : FindsPositive pickFrac := by
  intro fracs hpos
  obtain ⟨f, hf, hfpos⟩ := List.countP_pos_iff.mp hpos
  have hfpos : 0 < f := by simpa using hfpos
  rcases bestFrac_spec fracs 0 0 (-1) with
    ⟨-, hle⟩ | ⟨j, g, heq, hg, -, hle⟩
  · exact absurd (hle f hf) (by omega)
  · have hgpos : 0 < g := hfpos.trans_le (hle f hf)
    refine ⟨j, g, ?_, hg, hgpos⟩
    rw [pickFrac, heq, Nat.zero_add]
    exact if_neg (not_le.mpr hgpos)

theorem bestFrac_of_pickFrac {fracs : List ℤ} {i : ℕ} (h : pickFrac fracs = some i) :
    ∃ best, bestFrac fracs 0 0 (-1) = (i, best) ∧ 0 < best := by
  unfold pickFrac at h
  rcases hb : bestFrac fracs 0 0 (-1) with ⟨bestIdx, best⟩
  simp only [hb] at h
  split_ifs at h with hbest
  obtain rfl := Option.some.inj h
  exact ⟨best, rfl, not_le.mp hbest⟩

theorem modify_congr {α : Type} {l : List α} {i : ℕ} {f g : α → α}
    (h : ∀ x, l[i]? = some x → f x = g x) : l.modify i f = l.modify i g := by
  refine List.ext_getElem? fun j => ?_
  rw [List.getElem?_modify, List.getElem?_modify]
  split_ifs with hij
  · subst hij
    rcases hx : l[i]? with _ | x
    · rfl
    · simp [h x hx]
  · rfl

/-- **Pass 2 is the award loop**: while positive numerators last nothing is left over, and no
addition saturates. -/
theorem awardRemainder_eq {n : ℕ} {floors fracs : List ℤ} (hn : n ≤ fracs.countP (0 < ·))
    (hmax : (n : ℤ) ≤ I128.MAX)
    (hfloors : ∀ (j : ℕ) (x f : ℤ), floors[j]? = some x → fracs[j]? = some f → 0 < f →
      0 ≤ x ∧ x < I128.MAX) :
    awardRemainder n floors fracs n = (awardBy pickFrac n floors fracs, 0) := by
  have hmin := I128.MIN_lt_zero
  induction n generalizing floors fracs with
  | zero => rfl
  | succ n ih =>
    obtain ⟨i, f, hi, hf, hpos⟩ := findsPositive_pickFrac fracs (by omega)
    obtain ⟨best, hbest, hbestpos⟩ := bestFrac_of_pickFrac hi
    have hsub : I128.saturatingSub ((n + 1 : ℕ) : ℤ) 1 = n := by
      rw [I128.saturatingSub_eq] <;> omega
    have hadd : floors.modify i (fun f => I128.saturatingAdd f 1) = floors.modify i (· + 1) := by
      refine modify_congr fun x hx => ?_
      obtain ⟨hx₀, hxmax⟩ := hfloors i x f hx hf hpos
      rw [I128.saturatingAdd_eq] <;> omega
    have hcount := countP_pos_set_zero hf hpos
    rw [awardRemainder, awardBy, hi, hbest]
    simp only [if_neg (not_le.mpr hbestpos), hsub, hadd]
    refine ih (by omega) (by omega) fun j x g hx hg hgpos => ?_
    by_cases hij : i = j
    · -- the position that has just had its unit
      subst hij
      have hlt := (List.getElem?_eq_some_iff.mp hf).1
      rw [List.getElem?_set_self hlt] at hg
      exact absurd (Option.some.inj hg) hgpos.ne
    · rw [List.getElem?_modify_ne _ _ hij] at hx
      rw [List.getElem?_set_ne hij] at hg
      exact hfloors j x g hx hg hgpos

/-- **The first two passes divide the fee exactly.** -/
theorem awardRemainder_allocation (ha : 0 ≤ a) (hsum : (entries.map Prod.snd).sum = 10000)
    (hmax : a - (Allocation.of a entries).totalFloor ≤ I128.MAX)
    (hentries : ∀ e ∈ entries, I128.checkedMul a e.2 ≠ none) :
    ∃ shares, IsApportionment 10000 a (entries.map Prod.snd) shares ∧
      awardRemainder (a - (Allocation.of a entries).totalFloor).toNat (Allocation.of a entries).floors
        (Allocation.of a entries).fracs (a - (Allocation.of a entries).totalFloor) = (shares, 0) := by
  have hws : (((entries.map Prod.snd).sum : ℕ) : ℤ) = 10000 := by rw [hsum]; rfl
  have hnonneg := remainder_nonneg (a := a) (by decide) hws
  have hcount := remainder_le_countP_pos (a := a) (by decide) hws
  have hfloors : (Allocation.of a entries).floors = (entries.map Prod.snd).map (share 10000 a) :=
    by rw [List.map_map]; rfl
  have hfracs : (Allocation.of a entries).fracs = (entries.map Prod.snd).map (frac 10000 a) :=
    by rw [List.map_map]; rfl
  have htotal : (Allocation.of a entries).totalFloor =
      ((entries.map Prod.snd).map (share 10000 a)).sum := congrArg List.sum hfloors
  have happ := isApportionment_awardBy (a := a) (by decide) hws findsPositive_pickFrac
  rw [htotal] at hmax
  rw [hfloors, hfracs, htotal]
  obtain ⟨n, hn⟩ := Int.eq_ofNat_of_zero_le hnonneg
  rw [hn, Int.toNat_natCast] at happ ⊢
  rw [hn] at hcount hmax
  refine ⟨_, happ, awardRemainder_eq (Int.ofNat_le.mp hcount) hmax fun j x f hx hf hpos => ?_⟩
  -- a position that may get a unit has a floor below its exact share, which fits
  rw [List.getElem?_map, Option.map_eq_some_iff] at hx hf
  obtain ⟨w, hw, rfl⟩ := hx
  obtain ⟨w', hw', rfl⟩ := hf
  obtain rfl := Option.some.inj (hw.symm.trans hw')
  obtain ⟨e, he, rfl⟩ := List.mem_map.mp (List.mem_of_getElem? hw)
  obtain ⟨product, hproduct⟩ := Option.ne_none_iff_exists'.mp (hentries e he)
  obtain ⟨rfl, -, hle⟩ := I128.checked_eq_some.mp hproduct
  have hsub := sub_share_mul (a := a) e.2
  have hshare : 0 ≤ share 10000 a e.2 := share_nonneg (by decide) ha
  omega

end StellarForge.Factory
