import Mathlib.Data.List.Pairwise
import Mathlib.Data.List.Sort
import Mathlib.Tactic.Common

/-!
# Keyset pagination

Every row has a position.  A request for the rows beneath a cursor is answered by the first `k` of them,
largest position first, and by the encoded position of the last of these when there are more: the
cursor of the next request.  `Walk fetch i c pages` says that the requests from the `i`-th on, which
starts from the cursor `c`, are answered by `pages`; the rows may change between two requests.

* `Serves.exists_walk`: a walk ends, whatever changes;
* `Serves.sorted_walk`, `Serves.strict_walk`: it goes down, strictly where the rows of a request have
  different positions;
* `Serves.mem_walk`: it meets a row that stays where it is;
* `Serves.perm_iff`: **over rows that do not change it loses none if and only if no page ends between two
  rows of one position.**
-/

namespace StellarForge.Collections

variable {α κ : Type*} {enc : ℕ → κ} {pos : α → ℕ} {k i j n : ℕ} {c : Option ℕ}

/-- The answer to a request: the rows, and the cursor of the next request. -/
structure Page (κ α : Type*) where
  rows : List α
  next : Option κ

/-- The first `k` of the rows. -/
def Page.first (enc : ℕ → κ) (pos : α → ℕ) (k : ℕ) (rows : List α) : Page κ α where
  rows := rows.take k
  next := if k < rows.length then (rows.take k).getLast?.map fun x => enc (pos x) else none

/-- One request after the other, each from the cursor that the one before has given, up to the first
that gives none. -/
inductive Walk (fetch : ℕ → Option κ → Option (Page κ α)) : ℕ → Option κ → List (List α) → Prop
  | last {i c page} (h : fetch i c = some page) (hnext : page.next = none) :
    Walk fetch i c [page.rows]
  | more {i c page e rest} (h : fetch i c = some page) (hnext : page.next = some e)
    (hrest : Walk fetch (i + 1) (some e) rest) : Walk fetch i c (page.rows :: rest)

variable {fetch : ℕ → Option κ → Option (Page κ α)} {pages pages' : List (List α)}

/-- The answers are what they are. -/
theorem Walk.unique {c : Option κ} (h : Walk fetch i c pages) (h' : Walk fetch i c pages') :
    pages = pages' := by
  induction h generalizing pages' with
  | last hfetch hnext =>
    cases h' with
    | last hfetch' _ => rw [Option.some.inj (hfetch.symm.trans hfetch')]
    | more hfetch' hnext' _ =>
      rw [Option.some.inj (hfetch.symm.trans hfetch'), hnext'] at hnext
      cases hnext
  | more hfetch hnext _ ih =>
    cases h' with
    | last hfetch' hnext' =>
      rw [Option.some.inj (hfetch.symm.trans hfetch'), hnext'] at hnext
      cases hnext
    | more hfetch' hnext' hrest' =>
      obtain rfl := Option.some.inj (hfetch.symm.trans hfetch')
      obtain rfl := Option.some.inj (hnext.symm.trans hnext')
      rw [ih hrest']

/-- The requests of a walk: the first has no cursor, and that of another one is the position of a row
of the request before. -/
inductive Asked (pos : α → ℕ) (rows : ℕ → Option ℕ → List α) : ℕ → Option ℕ → Prop
  | first : Asked pos rows 0 none
  | next {i c z} (h : Asked pos rows i c) (hz : z ∈ rows i c) : Asked pos rows (i + 1) (some (pos z))

/-- `rows i c` are the rows beneath `c` at the `i`-th request, largest position first, and the requests
of a walk are answered by the first `k` of them. -/
structure Serves (enc : ℕ → κ) (pos : α → ℕ) (k : ℕ) (rows : ℕ → Option ℕ → List α)
    (fetch : ℕ → Option κ → Option (Page κ α)) : Prop where
  size_pos : 0 < k
  sorted : ∀ i c, (rows i c).Pairwise fun x y => pos y ≤ pos x
  beneath : ∀ i n, ∀ x ∈ rows i (some n), pos x < n
  fetch_eq : ∀ {i c}, Asked pos rows i c →
    fetch i (c.map enc) = some (Page.first enc pos k (rows i c))

namespace Serves

variable {rows : ℕ → Option ℕ → List α} {x y z : α}

theorem first_of_le {l : List α} (h : l.length ≤ k) : Page.first enc pos k l = ⟨l, none⟩ := by
  rw [Page.first, if_neg (not_lt.mpr h), List.take_of_length_le h]

theorem first_of_lt {l : List α} (h : k < l.length) (hz : (l.take k).getLast? = some z) :
    Page.first enc pos k l = ⟨l.take k, some (enc (pos z))⟩ := by
  rw [Page.first, if_pos h, hz, Option.map_some]

/-- A request is answered by all rows, or by the first `k`, of which there is a last one. -/
theorem first_cases (hk : 0 < k) (l : List α) :
    l.length ≤ k ∨ k < l.length ∧ ∃ z ∈ l.take k, (l.take k).getLast? = some z := by
  rcases Nat.lt_or_ge k l.length with hmore | hle
  · have hne : l.take k ≠ [] := by
      intro hnil
      have hlength := congrArg List.length hnil
      rw [List.length_take, List.length_nil] at hlength
      omega
    exact .inr ⟨hmore, _, List.getLast_mem hne, List.getLast?_eq_some_getLast hne⟩
  · exact .inl hle

/-- What holds of the last page of a walk, and of a page followed by a walk for which it holds, holds of
every walk. -/
theorem induction (hs : Serves enc pos k rows fetch) {motive : ℕ → Option ℕ → List (List α) → Prop}
    (last : ∀ i c, Asked pos rows i c → (rows i c).length ≤ k → motive i c [rows i c])
    (more : ∀ i c z rest, Asked pos rows i c → z ∈ (rows i c).take k →
      ((rows i c).take k).getLast? = some z → k < (rows i c).length →
      Asked pos rows (i + 1) (some (pos z)) → Walk fetch (i + 1) (some (enc (pos z))) rest →
      motive (i + 1) (some (pos z)) rest → motive i c ((rows i c).take k :: rest))
    (hw : Walk fetch i (c.map enc) pages) (hc : Asked pos rows i c) : motive i c pages := by
  generalize he : c.map enc = e at hw
  induction hw generalizing c with
  | @last i e page hfetch hnext =>
    subst he
    obtain rfl := Option.some.inj ((hs.fetch_eq hc).symm.trans hfetch)
    -- a last page has no cursor, so that it holds all that is left
    rcases first_cases hs.size_pos (rows i c) with hle | ⟨hlt, z, -, hlast⟩
    · rw [first_of_le hle]
      exact last i c hc hle
    · rw [first_of_lt hlt hlast] at hnext
      cases hnext
  | @more i e page e' rest hfetch hnext hrest ih =>
    subst he
    obtain rfl := Option.some.inj ((hs.fetch_eq hc).symm.trans hfetch)
    -- a cursor is the key of the last row of a full page
    rcases first_cases hs.size_pos (rows i c) with hle | ⟨hlt, z, hz, hlast⟩
    · rw [first_of_le hle] at hnext
      cases hnext
    · rw [first_of_lt hlt hlast] at hnext ⊢
      obtain rfl := Option.some.inj hnext
      have hnextAsked : Asked pos rows (i + 1) (some (pos z)) := .next hc (List.mem_of_mem_take hz)
      exact more i c z rest hc hz hlast hlt hnextAsked hrest (ih hnextAsked rfl)

/-- **A walk ends**: its cursors decrease. -/
theorem exists_walk (hs : Serves enc pos k rows fetch) (hc : Asked pos rows i c) :
    ∃ pages, Walk fetch i (c.map enc) pages := by
  have step {i : ℕ} {c : Option ℕ} (hc : Asked pos rows i c)
      (h : ∀ z ∈ rows i c, Asked pos rows (i + 1) (some (pos z)) →
        ∃ rest, Walk fetch (i + 1) (some (enc (pos z))) rest) :
      ∃ pages, Walk fetch i (c.map enc) pages := by
    rcases first_cases hs.size_pos (rows i c) with hle | ⟨hlt, z, hz, hlast⟩
    · exact ⟨_, .last ((hs.fetch_eq hc).trans (congrArg some (first_of_le hle))) rfl⟩
    · have hmem : z ∈ rows i c := List.mem_of_mem_take hz
      obtain ⟨rest, hrest⟩ := h z hmem (.next hc hmem)
      exact ⟨_, .more ((hs.fetch_eq hc).trans (congrArg some (first_of_lt hlt hlast))) rfl hrest⟩
  have hbeneath (n : ℕ) : ∀ i, Asked pos rows i (some n) →
      ∃ pages, Walk fetch i (some (enc n)) pages := by
    induction n using Nat.strong_induction_on with
    | _ n ih =>
      intro i hn
      exact step hn fun z hz hcursor => ih (pos z) (hs.beneath i n z hz) (i + 1) hcursor
  exact step hc fun z _ hcursor => hbeneath (pos z) (i + 1) hcursor

/-! ### The order of the rows -/

/-- The last row of a page lies beneath the others and above the rows that are left. -/
theorem last_le {l : List α} (hl : l.Pairwise fun x y => pos y ≤ pos x)
    (hz : (l.take k).getLast? = some z) :
    (∀ x ∈ l.take k, pos z ≤ pos x) ∧ ∀ y ∈ l.drop k, pos y ≤ pos z := by
  obtain ⟨init, hinit⟩ := List.getLast?_eq_some_iff.mp hz
  rw [← List.take_append_drop k l, List.pairwise_append] at hl
  obtain ⟨htake, -, hcross⟩ := hl
  rw [hinit, List.pairwise_append] at htake
  refine ⟨fun x hx => ?_, fun y hy => hcross z (List.mem_of_getLast? hz) y hy⟩
  rw [hinit, List.mem_append, List.mem_singleton] at hx
  rcases hx with hx | rfl
  · exact htake.2.2 x hx z (List.mem_singleton.mpr rfl)
  · exact le_refl _

theorem lt_of_mem (hs : Serves enc pos k rows fetch) (hx : x ∈ rows i c) : ∀ n ∈ c, pos x < n := by
  intro n hn
  obtain rfl := Option.mem_def.mp hn
  exact hs.beneath i n x hx

/-- A relation of the positions that the rows of each request keep is kept by the walk, if it holds
wherever a row lies beneath another; and the walk stays beneath its cursor. -/
theorem pairwise_walk {r : ℕ → ℕ → Prop} (hs : Serves enc pos k rows fetch)
    (hr : ∀ {m n}, n < m → r m n)
    (hrows : ∀ {i c}, Asked pos rows i c → (rows i c).Pairwise fun x y => r (pos x) (pos y))
    (hw : Walk fetch i (c.map enc) pages) (hc : Asked pos rows i c) :
    pages.flatten.Pairwise (fun x y => r (pos x) (pos y)) ∧
      ∀ x ∈ pages.flatten, ∀ n ∈ c, pos x < n := by
  refine hs.induction (motive := fun _ c pages =>
    pages.flatten.Pairwise (fun x y => r (pos x) (pos y)) ∧
      ∀ x ∈ pages.flatten, ∀ n ∈ c, pos x < n)
    (fun i c hc _ => ?_) (fun i c z rest hc hz hlast _ _ _ ih => ?_) hw hc
  · rw [List.flatten_singleton]
    exact ⟨hrows hc, fun x hx => hs.lt_of_mem hx⟩
  · obtain ⟨hpairwise, hrest⟩ := ih
    obtain ⟨hpage, -⟩ := last_le (hs.sorted i c) hlast
    rw [List.flatten_cons]
    refine ⟨List.pairwise_append.mpr ⟨(hrows hc).sublist (List.take_sublist k _), hpairwise,
      fun x hx y hy => hr ((hrest y hy (pos z) rfl).trans_le (hpage x hx))⟩, fun x hx n hn => ?_⟩
    rcases List.mem_append.mp hx with hx | hx
    · exact hs.lt_of_mem (List.mem_of_mem_take hx) n hn
    · exact (hrest x hx (pos z) rfl).trans (hs.lt_of_mem (List.mem_of_mem_take hz) n hn)

/-- A walk goes down. -/
theorem sorted_walk (hs : Serves enc pos k rows fetch) (hw : Walk fetch i (c.map enc) pages)
    (hc : Asked pos rows i c) : pages.flatten.Pairwise fun x y => pos y ≤ pos x :=
  (hs.pairwise_walk (r := fun m n => n ≤ m) Nat.le_of_lt (fun _ => hs.sorted _ _) hw hc).1

/-- Where the rows of a request have different positions, it goes down strictly. -/
theorem strict_walk (hs : Serves enc pos k rows fetch)
    (hstrict : ∀ {i c}, Asked pos rows i c → (rows i c).Pairwise fun x y => pos y < pos x)
    (hw : Walk fetch i (c.map enc) pages) (hc : Asked pos rows i c) :
    pages.flatten.Pairwise fun x y => pos y < pos x :=
  (hs.pairwise_walk (r := fun m n => n < m) id hstrict hw hc).1

/-- Every row of a walk is a row of one of its requests. -/
theorem mem_rows_of_mem (hs : Serves enc pos k rows fetch) (hw : Walk fetch i (c.map enc) pages)
    (hc : Asked pos rows i c) (hx : x ∈ pages.flatten) : ∃ j c, Asked pos rows j c ∧ x ∈ rows j c := by
  refine hs.induction (motive := fun _ _ pages => x ∈ pages.flatten →
      ∃ j c, Asked pos rows j c ∧ x ∈ rows j c)
    (fun i c hc _ hx => ?_) (fun i c z rest hc hz hlast _ _ _ ih hx => ?_) hw hc hx
  · rw [List.flatten_singleton] at hx
    exact ⟨i, c, hc, hx⟩
  · rw [List.flatten_cons, List.mem_append] at hx
    rcases hx with hx | hx
    · exact ⟨i, c, hc, List.mem_of_mem_take hx⟩
    · exact ih hx

/-! ### Rows that stay -/

/-- A walk meets every row that stays at its position, as it is when its page is read. -/
theorem mem_walk (hs : Serves enc pos k rows fetch)
    (hstrict : ∀ {i c}, Asked pos rows i c → (rows i c).Pairwise fun x y => pos y < pos x)
    {p : ℕ → α → Prop}
    (hstay : ∀ j, i ≤ j → ∀ c, (∀ m ∈ c, n < m) → ∃ y ∈ rows j c, p j y ∧ pos y = n)
    (hw : Walk fetch i (c.map enc) pages) (hc : Asked pos rows i c) (hn : ∀ m ∈ c, n < m) :
    ∃ j, i ≤ j ∧ j < i + pages.length ∧ ∃ y ∈ pages.flatten, p j y ∧ pos y = n := by
  refine hs.induction (motive := fun i c pages =>
    (∀ j, i ≤ j → ∀ c, (∀ m ∈ c, n < m) → ∃ y ∈ rows j c, p j y ∧ pos y = n) →
      (∀ m ∈ c, n < m) →
        ∃ j, i ≤ j ∧ j < i + pages.length ∧ ∃ y ∈ pages.flatten, p j y ∧ pos y = n)
    (fun i c _ _ hstay hn => ?_) (fun i c z rest hc hz hlast _ _ _ ih hstay hn => ?_) hw hc hstay hn
  · rw [List.flatten_singleton]
    exact ⟨i, le_rfl, Nat.lt_succ_self i, hstay i le_rfl c hn⟩
  · rw [List.flatten_cons]
    obtain ⟨y, hy, hp, hpos⟩ := hstay i le_rfl c hn
    rw [← List.take_append_drop k (rows i c), List.mem_append] at hy
    rcases hy with hy | hy
    · refine ⟨i, le_rfl, ?_, y, List.mem_append_left _ hy, hp, hpos⟩
      rw [List.length_cons]
      omega
    · -- a row that is left lies beneath the next cursor
      have hcross := hstrict hc
      rw [← List.take_append_drop k (rows i c), List.pairwise_append] at hcross
      have hlt : pos y < pos z := hcross.2.2 z hz y hy
      obtain ⟨j, hj, hlt', y', hy', hp', hpos'⟩ :=
        ih (fun j hj => hstay j (Nat.le_of_succ_le hj)) fun m hm => by
          rw [← Option.some.inj hm, ← hpos]
          exact hlt
      refine ⟨j, Nat.le_of_succ_le hj, ?_, y', List.mem_append_right _ hy', hp', hpos'⟩
      rw [List.length_cons]
      omega

end Serves

/-! ### Rows that do not change -/

/-- A page ends between two rows of the position `n`, largest position first. -/
def Cuts (pos : α → ℕ) (k : ℕ) (l : List α) (n : ℕ) : Prop :=
  ∃ j, l.countP (fun x => n < pos x) < j * k ∧ j * k < l.countP fun x => n ≤ pos x

theorem Cuts.congr {l l' : List α} (h : l.Perm l') : Cuts pos k l n ↔ Cuts pos k l' n := by
  unfold Cuts
  rw [h.countP_eq, h.countP_eq]

/-- A page is not full before its end. -/
theorem not_cuts_of_countP_le {l : List α} (h : l.countP (fun x => n ≤ pos x) ≤ k) :
    ¬ Cuts pos k l n := by
  rintro ⟨j, hlow, hhigh⟩
  rcases j with _ | j
  · rw [Nat.zero_mul] at hlow
    exact absurd hlow (Nat.not_lt_zero _)
  · rw [Nat.succ_mul] at hhigh
    omega

/-- No page ends between two rows of one position if and only if the first does not, and none of the
rows that it leaves. -/
theorem forall_not_cuts_iff {l : List α} {z : α} (hl : l.Pairwise fun x y => pos y ≤ pos x)
    (hz : (l.take k).getLast? = some z) (hmore : k < l.length) :
    (∀ n, ¬ Cuts pos k l n) ↔
      (∀ y ∈ l.drop k, pos y < pos z) ∧ ∀ n, ¬ Cuts pos k (l.drop k) n := by
  obtain ⟨hpage, hleft⟩ := Serves.last_le hl hz
  have hlength : (l.take k).length = k := by
    rw [List.length_take]
    exact Nat.min_eq_left (Nat.le_of_lt hmore)
  have hcount (p : α → Bool) : l.countP p = (l.take k).countP p + (l.drop k).countP p := by
    rw [← List.countP_append, List.take_append_drop]
  -- the first page counts in full for a position that is not above its last row
  have hfull {p : α → Bool} (hp : ∀ x, pos z ≤ pos x → p x = true) :
      l.countP p = k + (l.drop k).countP p := by
    rw [hcount, List.countP_eq_length.mpr fun x hx => hp x (hpage x hx), hlength]
  have hzero {m : ℕ} {p : α → Bool} (hm : ∀ y ∈ l.drop k, pos y < m)
      (hp : ∀ y, p y = true → m ≤ pos y) : (l.drop k).countP p = 0 := by
    rw [List.countP_eq_zero]
    intro y hy hpy
    exact absurd (hm y hy) (not_lt.mpr (hp y hpy))
  constructor
  · intro hcuts
    have hbeneath : ∀ y ∈ l.drop k, pos y < pos z := by
      intro y hy
      by_contra hnot
      -- the first page ends before `y`
      refine hcuts (pos z) ⟨1, ?_, ?_⟩
      · rw [hcount, hzero (p := fun x => pos z < pos x)
          (fun y hy => Nat.lt_succ_of_le (hleft y hy)) fun y hy => of_decide_eq_true hy,
        Nat.add_zero, Nat.one_mul]
        refine lt_of_le_of_ne (List.countP_le_length.trans_eq hlength) fun heq => ?_
        have hall := List.countP_eq_length.mp (heq.trans hlength.symm)
        exact absurd (of_decide_eq_true (hall z (List.mem_of_getLast? hz))) (lt_irrefl _)
      · rw [hfull fun x hx => decide_eq_true hx, Nat.one_mul]
        have hpos : 0 < (l.drop k).countP fun x => pos z ≤ pos x :=
          List.countP_pos_iff.mpr ⟨y, hy, decide_eq_true (not_lt.mp hnot)⟩
        omega
    refine ⟨hbeneath, ?_⟩
    rintro n ⟨j, hj, hj'⟩
    have hn : n < pos z := by
      by_contra hnot
      rw [hzero hbeneath fun y hy => (not_lt.mp hnot).trans (of_decide_eq_true hy)] at hj'
      exact absurd hj' (Nat.not_lt_zero _)
    refine hcuts n ⟨j + 1, ?_, ?_⟩
    · rw [hfull fun x hx => decide_eq_true (hn.trans_le hx), Nat.succ_mul]
      omega
    · rw [hfull fun x hx => decide_eq_true (hn.le.trans hx), Nat.succ_mul]
      omega
  · rintro ⟨hbeneath, hcuts⟩ n hcut
    rcases lt_or_ge n (pos z) with hn | hn
    · obtain ⟨j, hj, hj'⟩ := hcut
      rw [hfull fun x hx => decide_eq_true (hn.trans_le hx)] at hj
      rw [hfull fun x hx => decide_eq_true (hn.le.trans hx)] at hj'
      rcases j with _ | j
      · rw [Nat.zero_mul] at hj
        exact absurd hj (Nat.not_lt_zero _)
      · rw [Nat.succ_mul] at hj hj'
        exact hcuts n ⟨j, by omega, by omega⟩
    · -- the rows that are left lie beneath
      refine not_cuts_of_countP_le ?_ hcut
      rw [hcount, hzero hbeneath fun y hy => hn.trans (of_decide_eq_true hy), Nat.add_zero]
      exact List.countP_le_length.trans_eq hlength

/-- **What a walk over rows that do not change loses**: nothing, if and only if no page ends between two
rows of one position. -/
theorem Serves.perm_iff {rows : ℕ → Option ℕ → List α} (hs : Serves enc pos k rows fetch)
    (hstatic : ∀ {i c z}, Asked pos rows i c → z ∈ rows i c →
      (rows (i + 1) (some (pos z))).Perm ((rows i c).filter fun x => pos x < pos z))
    (hw : Walk fetch i (c.map enc) pages) (hc : Asked pos rows i c) :
    pages.flatten.Perm (rows i c) ↔ ∀ n, ¬ Cuts pos k (rows i c) n := by
  refine hs.induction (motive := fun i c pages =>
    pages.flatten.Perm (rows i c) ↔ ∀ n, ¬ Cuts pos k (rows i c) n)
    (fun i c hc hle => ?_) (fun i c z rest hc hz hlast hmore hnext hrest ih => ?_) hw hc
  · rw [List.flatten_singleton]
    exact iff_of_true (List.Perm.refl _) fun n =>
      not_cuts_of_countP_le (List.countP_le_length.trans hle)
  · obtain ⟨hpage, -⟩ := last_le (hs.sorted i c) hlast
    have hbeneath : ∀ x ∈ rest.flatten, pos x < pos z := fun x hx =>
      (hs.pairwise_walk (r := fun _ _ => True) (fun _ => trivial)
        (fun _ => List.pairwise_of_forall fun _ _ => trivial) hrest hnext).2 x hx (pos z) rfl
    -- the rows of the next request are those that the page has left
    have hrows (hleft : ∀ y ∈ (rows i c).drop k, pos y < pos z) :
        (rows (i + 1) (some (pos z))).Perm ((rows i c).drop k) := by
      have hfilter : (rows i c).filter (fun x => pos x < pos z) = (rows i c).drop k := by
        conv_lhs => rw [← List.take_append_drop k (rows i c)]
        rw [List.filter_append, List.filter_eq_nil_iff.mpr, List.nil_append,
          List.filter_eq_self.mpr]
        · exact fun y hy => decide_eq_true (hleft y hy)
        · intro x hx
          rw [decide_eq_true_iff]
          exact not_lt.mpr (hpage x hx)
      rw [← hfilter]
      exact hstatic hc (List.mem_of_mem_take hz)
    have hperm : ((rows i c).take k :: rest).flatten.Perm (rows i c) ↔
        rest.flatten.Perm ((rows i c).drop k) := by
      have hsplit : (rows i c).take k ++ (rows i c).drop k = rows i c := List.take_append_drop ..
      rw [List.flatten_cons]
      nth_rewrite 2 [← hsplit]
      exact List.perm_append_left_iff _
    rw [hperm, forall_not_cuts_iff (hs.sorted i c) hlast hmore]
    constructor
    · intro h
      have hleft : ∀ y ∈ (rows i c).drop k, pos y < pos z := fun y hy =>
        hbeneath y (h.mem_iff.mpr hy)
      refine ⟨hleft, fun n => ?_⟩
      rw [← Cuts.congr (hrows hleft)]
      exact ih.mp (h.trans (hrows hleft).symm) n
    · rintro ⟨hleft, hcuts⟩
      refine (ih.mpr fun n => ?_).trans (hrows hleft)
      rw [Cuts.congr (hrows hleft)]
      exact hcuts n

/-! ### Sorting

The comparison may be no order, as long as it goes by the position. -/

/-- A merge of ordered lists is ordered, when the comparison agrees with the positions. -/
theorem pairwise_merge {le : α → α → Bool} (hle : ∀ x y, le x y = true → pos y ≤ pos x)
    (hnot : ∀ x y, ¬ le x y = true → pos x ≤ pos y) {l l' : List α}
    (hl : l.Pairwise fun x y => pos y ≤ pos x) (hl' : l'.Pairwise fun x y => pos y ≤ pos x) :
    (List.merge l l' le).Pairwise fun x y => pos y ≤ pos x := by
  fun_induction List.merge l l' le with
  | case1 l' => exact hl'
  | case2 l => exact hl
  -- the first of `l` goes first: it bounds what is left of both lists
  | case3 x l y l' hxy ih =>
    rw [List.pairwise_cons] at hl ⊢
    refine ⟨fun w hw => ?_, ih hl.2 hl'⟩
    rcases List.mem_merge.mp hw with hw | hw
    · exact hl.1 w hw
    · rcases List.mem_cons.mp hw with rfl | hw
      · exact hle x w hxy
      · exact ((List.pairwise_cons.mp hl').1 w hw).trans (hle x y hxy)
  -- the same with the two lists exchanged
  | case4 x l y l' hxy ih =>
    rw [List.pairwise_cons] at hl' ⊢
    refine ⟨fun w hw => ?_, ih hl hl'.2⟩
    rcases List.mem_merge.mp hw with hw | hw
    · rcases List.mem_cons.mp hw with rfl | hw
      · exact hnot w y hxy
      · exact ((List.pairwise_cons.mp hl).1 w hw).trans (hnot x y hxy)
    · exact hl'.1 w hw

/-- So is what a merge sort returns. -/
theorem pairwise_mergeSort {le : α → α → Bool} (hle : ∀ x y, le x y = true → pos y ≤ pos x)
    (hnot : ∀ x y, ¬ le x y = true → pos x ≤ pos y) (l : List α) :
    (l.mergeSort le).Pairwise fun x y => pos y ≤ pos x := by
  induction hn : l.length using Nat.strong_induction_on generalizing l with
  | _ n ih =>
    match l with
    | [] => simp
    | [x] => simp
    | x :: y :: l =>
      have hlength := (List.MergeSort.Internal.splitInTwo ⟨x :: y :: l, rfl⟩).1.property
      have hlength' := (List.MergeSort.Internal.splitInTwo ⟨x :: y :: l, rfl⟩).2.property
      have htwo : 2 ≤ (x :: y :: l).length := by simp
      rw [List.mergeSort]
      apply pairwise_merge hle hnot
      · exact ih _ (by omega) _ rfl
      · exact ih _ (by omega) _ rfl

end StellarForge.Collections
