import StellarForge.Soroban.Frame
import StellarForge.Factory.Entrypoint
import StellarForge.Collections.Pages

/-!
# The paginated list of a creator's tokens

An older binary kept the list of a creator's tokens as one value of the instance entry.  The first
`append_creator_token` for that creator moves it into pages, and later ones touch the last page.

* `Appends.paged`: after an append the pages hold the old list followed by what was appended;
* `Appends.keeps_full`: a full page stays as it is;
* `creator_list`: **what `get_tokens_by_creator` returns**, and that walking it page by page gives the
  list once.
-/

namespace StellarForge.Factory

open Soroban Contract Collections

/-- `append_creator_token` after `append_creator_token`, for any creators. -/
inductive Appends : List (Env × Address × ℕ) → World → World → Prop
  | nil (w : World) : Appends [] w w
  | snoc {calls : List (Env × Address × ℕ)} {w w' w₃ : World} {env : Env} {creator : Address}
    {index : ℕ} (earlier : Appends calls w w')
    (last : (appendCreatorToken creator index).Returns env w' () w₃) :
    Appends (calls ++ [(env, creator, index)]) w w₃

/-- What the calls append for one creator. -/
def appended (creator : Address) (calls : List (Env × Address × ℕ)) : List ℕ :=
  (calls.filter fun call => call.2.1 = creator).map fun call => call.2.2

/-- The tokens of `creator` are still in the list of the older binary, if there are any. -/
structure Unmigrated (w : World) (creator : Address) (legacy : List ℕ) : Prop where
  list : (w.storage.inst (.legacyCreatorTokens creator)).getD [] = legacy
  count : w.storage.persistent (.creatorTokenCount creator) = none
  pages : ∀ p, w.storage.persistent (.creatorTokens creator p) = none

/-- The pages of `creator` hold the list `l`. -/
structure Paged (w : World) (creator : Address) (l : List ℕ) : Prop where
  count : w.storage.persistent (.creatorTokenCount creator) = some l.length
  pages : ∀ p, w.storage.persistent (.creatorTokens creator p) =
    page MAX_TOKENS_BY_CREATOR_PAGE l p
  length_le : l.length ≤ U32.MAX

/-- A persistent entry is the same, with the same lifetime. -/
def SameEntry (k : DataKey) (w w' : World) : Prop :=
  w'.storage.persistent k = w.storage.persistent k ∧ w'.storage.liveUntil k = w.storage.liveUntil k

/-- No full page of `creator` has been written. -/
def KeepsFull (creator : Address) (w w' : World) : Prop :=
  ∀ p bucket, w.storage.persistent (.creatorTokens creator p) = some bucket →
    bucket.length = MAX_TOKENS_BY_CREATOR_PAGE → SameEntry (.creatorTokens creator p) w w'

/-- The loop of a client, from `offset` on: the pages that are returned, until one is short. -/
inductive Enumerates (env : Env) (w : World) (creator : Address) (limit : ℕ) :
    ℕ → List ℕ → Prop
  | last {offset : ℕ} {out : List ℕ}
    (hpage : (getTokensByCreator creator offset limit).Returns env w out w)
    (hshort : out.length < MAX_TOKENS_BY_CREATOR_PAGE) : Enumerates env w creator limit offset out
  | more {offset : ℕ} {out rest : List ℕ}
    (hpage : (getTokensByCreator creator offset limit).Returns env w out w)
    (hfull : MAX_TOKENS_BY_CREATOR_PAGE ≤ out.length)
    (hrest : Enumerates env w creator limit (offset + out.length) rest) :
    Enumerates env w creator limit offset (out ++ rest)

variable {env : Env} {w w' w₃ : World} {c c' : Address} {l legacy bucket : List ℕ} {i n : ℕ}
  {k : DataKey} {calls : List (Env × Address × ℕ)} {u : Unit}

theorem page_pos : 0 < MAX_TOKENS_BY_CREATOR_PAGE := by decide

/-! ### Entries -/

theorem SameEntry.refl : SameEntry k w w := ⟨rfl, rfl⟩

theorem SameEntry.trans (h : SameEntry k w w') (h' : SameEntry k w' w₃) : SameEntry k w w₃ :=
  ⟨h'.1.trans h.1, h'.2.trans h.2⟩

/-- A write touches its own entry alone. -/
theorem sameEntry_setPersistent {k' : DataKey} {v : k'.Val} (h : k ≠ k') :
    SameEntry k w (w.setPersistent env k' v) := by
  constructor
  · rw [World.storage_setPersistent, Storage.persistent_extendTtl,
      Storage.persistent_setPersistent_of_ne h]
  · simp only [World.storage_setPersistent, Storage.extendTtl, Storage.setPersistent,
      Function.update_of_ne h]
    split_ifs
    · rfl
    · rw [Function.update_of_ne h]

theorem persistent_setPersistent (v : k.Val) :
    (w.setPersistent env k v).storage.persistent k = some v := by
  rw [World.storage_setPersistent, Storage.persistent_extendTtl,
    Storage.persistent_setPersistent_self]

/-! ### The list of the older binary -/

/-- The full pages of `l` are written, and no others. -/
def Flushed (w : World) (creator : Address) (l : List ℕ) : Prop :=
  ∀ p, w.storage.persistent (.creatorTokens creator p) =
    if p < l.length / MAX_TOKENS_BY_CREATOR_PAGE then page MAX_TOKENS_BY_CREATOR_PAGE l p else none

/-- What goes on the page after the full ones. -/
def unflushed (l : List ℕ) : List ℕ :=
  (page MAX_TOKENS_BY_CREATOR_PAGE l (l.length / MAX_TOKENS_BY_CREATOR_PAGE)).getD []

/-- Nothing is written when the page does not get full. -/
theorem Flushed.snoc_partial (h : Flushed w c l)
    (hopen : (l.length + 1) % MAX_TOKENS_BY_CREATOR_PAGE ≠ 0) :
    Flushed w c (l ++ [i]) ∧ unflushed (l ++ [i]) = unflushed l ++ [i] := by
  have hsame : (l ++ [i]).length / MAX_TOKENS_BY_CREATOR_PAGE =
      l.length / MAX_TOKENS_BY_CREATOR_PAGE := by
    rw [List.length_append, List.length_singleton]
    unfold MAX_TOKENS_BY_CREATOR_PAGE at hopen ⊢
    omega
  constructor
  · intro p
    rw [h p, hsame]
    by_cases hlt : p < l.length / MAX_TOKENS_BY_CREATOR_PAGE
    · rw [if_pos hlt, if_pos hlt, page_append_of_ne page_pos (Nat.ne_of_lt hlt)]
    · rw [if_neg hlt, if_neg hlt]
  · rw [unflushed, hsame, page_append_self page_pos, Option.getD_some, unflushed]

/-- A page is written when it gets full. -/
theorem Flushed.snoc_full (env : Env) (i : ℕ) (h : Flushed w c l)
    (hfull : (l.length + 1) % MAX_TOKENS_BY_CREATOR_PAGE = 0) :
    Flushed (w.setPersistent env
        (.creatorTokens c ((l.length + 1) / MAX_TOKENS_BY_CREATOR_PAGE - 1)) (unflushed l ++ [i]))
      c (l ++ [i]) ∧ unflushed (l ++ [i]) = [] := by
  have hnext : (l ++ [i]).length / MAX_TOKENS_BY_CREATOR_PAGE =
      l.length / MAX_TOKENS_BY_CREATOR_PAGE + 1 := by
    rw [List.length_append, List.length_singleton]
    unfold MAX_TOKENS_BY_CREATOR_PAGE at hfull ⊢
    omega
  have hpage : (l.length + 1) / MAX_TOKENS_BY_CREATOR_PAGE - 1 =
      l.length / MAX_TOKENS_BY_CREATOR_PAGE := by
    rw [List.length_append, List.length_singleton] at hnext
    rw [hnext, Nat.add_sub_cancel]
  rw [hpage]
  constructor
  · -- the page that has become full, and the others
    intro p
    rw [hnext, page_append page_pos]
    by_cases hp : p = l.length / MAX_TOKENS_BY_CREATOR_PAGE
    · rw [hp, persistent_setPersistent, if_pos (Nat.lt_succ_self _), if_pos rfl]
      rfl
    · rw [(sameEntry_setPersistent (by simpa using hp)).1, h p, if_neg hp]
      split_ifs with hlt hle hle
      · rfl
      · omega
      · omega
      · rfl
  · rw [unflushed, hnext, page_append_of_ne page_pos (Nat.succ_ne_self _),
      page_of_lt page_pos (Nat.lt_succ_self _), Option.getD_none]

/-- The migration loop: with `l` taken over, it goes on to take over `rest` and nothing else. -/
theorem returns_migrateLegacyPages (env : Env) (rest : List ℕ) (h : Flushed w c l)
    (hfits : l.length + rest.length ≤ U32.MAX) :
    ∃ w', (migrateLegacyPages c rest l.length (unflushed l)).Returns env w
        ((l ++ rest).length, unflushed (l ++ rest)) w' ∧
      Flushed w' c (l ++ rest) ∧
      ∀ k, (∀ p, k ≠ .creatorTokens c p) → SameEntry k w w' := by
  -- by induction on what is left of the legacy list; a full page is flushed
  induction rest generalizing l w with
  | nil =>
    rw [List.append_nil]
    exact ⟨w, returns_pure.mpr ⟨rfl, rfl⟩, h, fun _ _ => SameEntry.refl⟩
  | cons i rest ih =>
    have hlength : (l ++ [i]).length = l.length + 1 := by
      rw [List.length_append, List.length_singleton]
    rw [List.length_cons] at hfits
    have hfits' : (l ++ [i]).length + rest.length ≤ U32.MAX := by omega
    have hsum : U32.checkedAdd l.length 1 = some (l ++ [i]).length := by
      rw [U32.checkedAdd_eq_some, hlength]
      omega
    rw [List.append_cons, migrateLegacyPages, hsum]
    simp only [returns_bind, returns_okOr]
    by_cases hfull : (l.length + 1) % MAX_TOKENS_BY_CREATOR_PAGE = 0
    · obtain ⟨hflushed, hempty⟩ := h.snoc_full env i hfull
      obtain ⟨w', hrun, hw', hother⟩ := ih hflushed hfits'
      refine ⟨w', ⟨_, _, ⟨rfl, rfl⟩, ?_⟩, hw', ?_⟩
      · have hpage : U32.checkedSub ((l ++ [i]).length / MAX_TOKENS_BY_CREATOR_PAGE) 1 =
            some ((l.length + 1) / MAX_TOKENS_BY_CREATOR_PAGE - 1) := by
          rw [U32.checkedSub_eq_some, hlength]
          unfold MAX_TOKENS_BY_CREATOR_PAGE at hfull ⊢
          omega
        rw [if_pos (by rw [hlength]; exact hfull), hpage]
        simp only [returns_bind, returns_okOr, returns_setPersistent]
        rw [hempty] at hrun
        exact ⟨_, _, ⟨rfl, rfl⟩, (), _, rfl, hrun⟩
      · intro k hk
        exact (sameEntry_setPersistent (hk _)).trans (hother k hk)
    · obtain ⟨hflushed, htail⟩ := h.snoc_partial (i := i) hfull
      obtain ⟨w', hrun, hw', hother⟩ := ih hflushed hfits'
      refine ⟨w', ⟨_, _, ⟨rfl, rfl⟩, ?_⟩, hw', hother⟩
      rw [if_neg (by rw [hlength]; exact hfull), ← htail]
      exact hrun

/-- The loop counts what it takes over. -/
theorem length_le_of_migrateLegacyPages {moved : ℕ × List ℕ}
    (h : (migrateLegacyPages c l n bucket).Returns env w moved w') : l = [] ∨ n + l.length ≤ U32.MAX := by
  induction l generalizing n bucket w with
  | nil => exact Or.inl rfl
  | cons i l ih =>
    rw [migrateLegacyPages] at h
    simp only [returns_bind, returns_okOr, U32.checkedAdd_eq_some] at h
    obtain ⟨_, _, ⟨⟨rfl, hle⟩, rfl⟩, h⟩ := h
    rw [List.length_cons]
    split_ifs at h
    · simp only [returns_bind, returns_okOr, returns_setPersistent] at h
      obtain ⟨_, _, ⟨-, rfl⟩, _, _, rfl, h⟩ := h
      rcases ih h with rfl | hrest
      · exact Or.inr hle
      · exact Or.inr (by omega)
    · rcases ih h with rfl | hrest
      · exact Or.inr hle
      · exact Or.inr (by omega)

/-! ### One append -/

/-- Counting leaves the pages of the list, and the full ones as they were. -/
structure Counted (env : Env) (w : World) (creator : Address) (l : List ℕ) (w₁ : World) : Prop where
  returns : (creatorTokenCount creator).Returns env w l.length w₁
  pages : ∀ p, w₁.storage.persistent (.creatorTokens creator p) =
    page MAX_TOKENS_BY_CREATOR_PAGE l p

/-- With the pages in place nothing is moved. -/
theorem Paged.counted (env : Env) (h : Paged w c l) :
    ∃ w₁, Counted env w c l w₁ ∧ ∀ p, SameEntry (.creatorTokens c p) w w₁ := by
  refine ⟨w.extendTtl env (.creatorTokenCount c), ⟨?_, ?_⟩, ?_⟩
  · simp only [creatorTokenCount, returns_bind, returns_getPersistent]
    refine ⟨_, _, ⟨h.count, rfl⟩, ?_⟩
    simp only [returns_bind, returns_modifyWorld]
    exact ⟨(), _, rfl, returns_pure.mpr ⟨rfl, rfl⟩⟩
  · intro p
    exact h.pages p
  · intro p
    refine ⟨rfl, ?_⟩
    simp only [World.storage_extendTtl, Storage.extendTtl, ne_eq, reduceCtorEq, not_false_eq_true,
      Function.update_of_ne]

/-- The list of the older binary is moved as a whole. -/
theorem Unmigrated.counted (env : Env) (h : Unmigrated w c legacy)
    (hfits : legacy.length ≤ U32.MAX) :
    ∃ w₁, Counted env w c legacy w₁ := by
  have hstart : Flushed (w.removeInst (.legacyCreatorTokens c)) c [] := by
    intro p
    rw [World.storage_removeInst, Storage.persistent_removeInst, h.pages p, page_nil, ite_self]
  have hnone : unflushed [] = [] := by rw [unflushed, page_nil, Option.getD_none]
  obtain ⟨w₁, hrun, hflushed, hother⟩ :=
    returns_migrateLegacyPages env legacy hstart (by simpa using hfits)
  rw [List.nil_append] at hrun hflushed
  rw [List.length_nil, hnone] at hrun
  -- what is left over goes on a page of its own
  by_cases hleft : unflushed legacy = []
  · refine ⟨w₁, ⟨?_, ?_⟩⟩
    · simp only [creatorTokenCount, returns_bind, returns_getPersistent]
      refine ⟨_, _, ⟨h.count, rfl⟩, ?_⟩
      simp only [returns_bind, returns_getInst, returns_removeInst]
      refine ⟨_, _, ⟨rfl, rfl⟩, (), _, rfl, (legacy.length, unflushed legacy), w₁, ?_, ?_⟩
      · rw [h.list]
        exact hrun
      · rw [if_neg (not_not.mpr hleft), returns_pure]
        exact ⟨rfl, rfl⟩
    · intro p
      rw [hflushed p]
      split_ifs with hlt
      · rfl
      · rcases Nat.lt_or_eq_of_le (Nat.not_lt.mp hlt) with hlt | rfl
        · rw [page_of_lt page_pos hlt]
        · rw [getD_page_eq_nil page_pos hleft]
  · refine ⟨w₁.setPersistent env
      (.creatorTokens c (legacy.length / MAX_TOKENS_BY_CREATOR_PAGE)) (unflushed legacy), ⟨?_, ?_⟩⟩
    · simp only [creatorTokenCount, returns_bind, returns_getPersistent]
      refine ⟨_, _, ⟨h.count, rfl⟩, ?_⟩
      simp only [returns_bind, returns_getInst, returns_removeInst]
      refine ⟨_, _, ⟨rfl, rfl⟩, (), _, rfl, (legacy.length, unflushed legacy), w₁, ?_, ?_⟩
      · rw [h.list]
        exact hrun
      · rw [if_pos hleft, returns_bind]
        exact ⟨(), _, returns_setPersistent.mpr rfl, returns_pure.mpr ⟨rfl, rfl⟩⟩
    · intro p
      by_cases hp : p = legacy.length / MAX_TOKENS_BY_CREATOR_PAGE
      · rw [hp, persistent_setPersistent]
        cases hpage : page MAX_TOKENS_BY_CREATOR_PAGE legacy
          (legacy.length / MAX_TOKENS_BY_CREATOR_PAGE) with
        | none =>
          rw [unflushed, hpage] at hleft
          exact absurd rfl hleft
        | some bucket => rw [unflushed, hpage, Option.getD_some]
      · rw [(sameEntry_setPersistent (by simpa using hp)).1, hflushed p]
        split_ifs with hlt
        · rfl
        · rw [page_of_lt page_pos (by omega)]

/-- An append adds one element on the last page. -/
theorem Counted.append {w₁ : World} (h : Counted env w c l w₁) (hfits : l.length < U32.MAX) :
    ∃ w', (appendCreatorToken c i).Returns env w () w' ∧ Paged w' c (l ++ [i]) ∧
      ∀ p, p ≠ l.length / MAX_TOKENS_BY_CREATOR_PAGE →
        SameEntry (.creatorTokens c p) w₁ w' := by
  have hlength : (l ++ [i]).length = l.length + 1 := by
    rw [List.length_append, List.length_singleton]
  have hsum : U32.checkedAdd l.length 1 = some (l.length + 1) := by
    rw [U32.checkedAdd_eq_some]
    omega
  -- the entry goes to the last page, and then the count is written
  let w₂ := w₁.setPersistent env (.creatorTokens c (l.length / MAX_TOKENS_BY_CREATOR_PAGE))
    (unflushed l ++ [i])
  refine ⟨w₂.setPersistent env (.creatorTokenCount c) (l.length + 1), ?_, ⟨?_, ?_, ?_⟩, ?_⟩
  · simp only [appendCreatorToken, returns_bind]
    refine ⟨_, _, h.returns, ?_⟩
    simp only [returns_getPersistent, h.pages, returns_setPersistent, hsum, returns_okOr]
    exact ⟨_, _, ⟨rfl, rfl⟩, (), _, rfl, _, _, ⟨rfl, rfl⟩, rfl⟩
  · rw [persistent_setPersistent, hlength]
  · intro p
    rw [(sameEntry_setPersistent (by simp)).1, page_append page_pos]
    split_ifs with hp
    · rw [hp, persistent_setPersistent, unflushed]
    · rw [(sameEntry_setPersistent (by simpa using hp)).1, h.pages]
  · rw [hlength]
    exact hfits
  · intro p hp
    exact (sameEntry_setPersistent (by simpa using hp)).trans (sameEntry_setPersistent (by simp))

/-- An append that returns has found room for one more. -/
theorem Counted.length_lt {w₁ : World} (h : Counted env w c l w₁)
    (hrun : (appendCreatorToken c i).Returns env w u w') : l.length < U32.MAX := by
  simp only [appendCreatorToken, returns_bind, returns_okOr, U32.checkedAdd_eq_some] at hrun
  obtain ⟨count, _, hcount, _, _, -, _, _, -, _, _, ⟨⟨rfl, hle⟩, -⟩, -⟩ := hrun
  obtain ⟨rfl, -⟩ := h.returns.unique hcount
  exact hle

/-! ### The lists of other creators -/

/-- Only entries of the token list of `creator` differ. -/
def OnlyList (creator : Address) (w w' : World) : Prop :=
  ∀ k, k ≠ .legacyCreatorTokens creator → k ≠ .creatorTokenCount creator →
    (∀ p, k ≠ .creatorTokens creator p) →
    SameEntry k w w' ∧ w'.storage.inst k = w.storage.inst k

namespace OnlyList

instance : Std.Refl (OnlyList c) := ⟨fun _ _ _ _ _ => ⟨SameEntry.refl, rfl⟩⟩

instance : IsTrans World (OnlyList c) where
  trans _ _ _ h h' k hlegacy hcount hpage :=
    ⟨(h k hlegacy hcount hpage).1.trans (h' k hlegacy hcount hpage).1,
      (h' k hlegacy hcount hpage).2.trans (h k hlegacy hcount hpage).2⟩

instance {k : DataKey} :
    @Moves Env World Error (no_index (Option k.Val)) (OnlyList c) (getPersistent k) := by
  unfold getPersistent
  infer_instance

instance {k : DataKey} :
    @Moves Env World Error (no_index (Option k.Val)) (OnlyList c) (getInst k) := by
  unfold getInst
  infer_instance

instance {p : ℕ} {v : List ℕ} : Moves (OnlyList c) (setPersistent (.creatorTokens c p) v) :=
  .modifyWorld fun _ _ _ _ _ hpage => ⟨sameEntry_setPersistent (hpage p), rfl⟩

instance {v : ℕ} : Moves (OnlyList c) (setPersistent (.creatorTokenCount c) v) :=
  .modifyWorld fun _ _ _ _ hcount _ => ⟨sameEntry_setPersistent hcount, rfl⟩

instance : Moves (OnlyList c) (removeInst (.legacyCreatorTokens c)) := by
  refine .modifyWorld fun _ _ k hlegacy _ _ => ⟨⟨rfl, rfl⟩, ?_⟩
  rw [World.storage_removeInst, Storage.inst_removeInst_of_ne hlegacy]

instance {legacy : List ℕ} {n : ℕ} {bucket : List ℕ} :
    Moves (OnlyList c) (migrateLegacyPages c legacy n bucket) := by
  induction legacy generalizing n bucket with
  | nil =>
    unfold migrateLegacyPages
    infer_instance
  | cons index legacy ih =>
    unfold migrateLegacyPages
    infer_instance

instance : Moves (OnlyList c) (creatorTokenCount c) := by
  have : Moves (OnlyList c)
      (modifyWorld fun env w => w.extendTtl env (.creatorTokenCount c) : ContractM Unit) := by
    refine .modifyWorld fun _ _ k _ hcount _ => ⟨⟨rfl, ?_⟩, rfl⟩
    simp only [World.storage_extendTtl, Storage.extendTtl, Function.update_of_ne hcount]
  unfold creatorTokenCount
  refine .andThen inferInstance fun o => ?_
  split <;> infer_instance

instance {index : ℕ} : Moves (OnlyList c) (appendCreatorToken c index) := by
  unfold appendCreatorToken
  infer_instance

end OnlyList

theorem Unmigrated.of_other (h : Unmigrated w c legacy) (hc : c ≠ c') (hw : OnlyList c' w w') :
    Unmigrated w' c legacy where
  list := by rw [(hw _ (by simpa using hc) (by simp) (by simp)).2, h.list]
  count := by rw [(hw _ (by simp) (by simpa using hc) (by simp)).1.1, h.count]
  pages p := by rw [(hw _ (by simp) (by simp) (by simp [hc])).1.1, h.pages]

theorem Paged.of_other (h : Paged w c l) (hc : c ≠ c') (hw : OnlyList c' w w') :
    Paged w' c l where
  count := by rw [(hw _ (by simp) (by simpa using hc) (by simp)).1.1, h.count]
  pages p := by rw [(hw _ (by simp) (by simp) (by simp [hc])).1.1, h.pages]
  length_le := h.length_le

/-! ### A sequence of appends -/

/-- The first append for a creator, under whatever list the older binary has left. -/
theorem Unmigrated.step (h : Unmigrated w c legacy)
    (hrun : (appendCreatorToken c i).Returns env w u w') : Paged w' c (legacy ++ [i]) := by
  -- the count fits a word, or the append would have failed
  have hle : legacy.length ≤ U32.MAX := by
    have hcounted := hrun
    simp only [appendCreatorToken, returns_bind] at hcounted
    obtain ⟨_, _, hcount, -⟩ := hcounted
    simp only [creatorTokenCount, returns_bind, returns_getPersistent] at hcount
    obtain ⟨o, _, ⟨ho, rfl⟩, hcount⟩ := hcount
    rw [h.count] at ho
    subst ho
    simp only [returns_bind, returns_getInst] at hcount
    obtain ⟨_, _, ⟨rfl, rfl⟩, _, _, -, _, _, hmoved, -⟩ := hcount
    rw [h.list] at hmoved
    rcases length_le_of_migrateLegacyPages hmoved with rfl | hle
    · exact Nat.zero_le _
    · omega
  -- the list is counted first, and then appended to as a paged one
  obtain ⟨w₁, hw₁⟩ := h.counted env hle
  obtain ⟨w₂, hrun', hpaged, -⟩ := hw₁.append (i := i) (hw₁.length_lt hrun)
  obtain ⟨-, rfl⟩ := hrun.unique hrun'
  exact hpaged

/-- A later append; the full pages are not touched. -/
theorem Paged.step (h : Paged w c l) (hrun : (appendCreatorToken c i).Returns env w u w') :
    Paged w' c (l ++ [i]) ∧ KeepsFull c w w' := by
  obtain ⟨w₁, hw₁, hsame⟩ := h.counted env
  obtain ⟨w₂, hrun', hpaged, hother⟩ := hw₁.append (i := i) (hw₁.length_lt hrun)
  obtain ⟨-, rfl⟩ := hrun.unique hrun'
  refine ⟨hpaged, ?_⟩
  intro p bucket hbucket hfull
  refine (hsame p).trans (hother p ?_)
  rintro rfl
  have hlt := length_page_self_lt (l := l) page_pos
  rw [← h.pages, hbucket, Option.getD_some, hfull] at hlt
  exact absurd hlt (Nat.lt_irrefl _)

theorem appended_snoc :
    appended c (calls ++ [(env, c', i)]) = appended c calls ++ if c' = c then [i] else [] := by
  rw [appended, List.filter_append, List.map_append, appended]
  split_ifs with hc
  · rw [List.filter_cons_of_pos (by simpa using hc)]
    rfl
  · rw [List.filter_cons_of_neg (by simpa using hc)]
    rfl

/-- With the pages in place, they hold the list and what is appended to it. -/
theorem Appends.paged_of_paged (h : Appends calls w w') (hw : Paged w c l) :
    Paged w' c (l ++ appended c calls) ∧ KeepsFull c w w' := by
  induction h with
  | nil w =>
    rw [appended, List.filter_nil, List.map_nil, List.append_nil]
    exact ⟨hw, fun _ _ _ _ => SameEntry.refl⟩
  | @snoc calls w w' w₃ env creator index earlier last ih =>
    obtain ⟨hpaged, hkept⟩ := ih hw
    rw [appended_snoc]
    -- one more append: to the list of `c`, or to that of another creator
    have hstep : Paged w₃ c (l ++ appended c calls ++ if creator = c then [index] else []) ∧
        KeepsFull c w' w₃ := by
      split_ifs with hc
      · subst hc
        exact hpaged.step last
      · have honly : OnlyList creator w' w₃ := last.rel
        rw [List.append_nil]
        refine ⟨hpaged.of_other (Ne.symm hc) honly, fun p _ _ _ => ?_⟩
        exact (honly _ (by simp) (by simp) (by simp [Ne.symm hc])).1
    rw [← List.append_assoc]
    refine ⟨hstep.1, ?_⟩
    intro p bucket hbucket hfull
    have hsame := hkept p bucket hbucket hfull
    exact hsame.trans (hstep.2 p bucket (hsame.1.trans hbucket) hfull)

/-- From the list of the older binary on. -/
theorem Appends.paged (h : Appends calls w w') (hw : Unmigrated w c legacy) :
    (appended c calls = [] ∧ Unmigrated w' c legacy) ∨ Paged w' c (legacy ++ appended c calls) := by
  induction h with
  | nil w => exact Or.inl ⟨rfl, hw⟩
  | @snoc calls w w' w₃ env creator index earlier last ih =>
    rw [appended_snoc]
    by_cases hc : creator = c
    · subst hc
      rw [if_pos rfl]
      rcases ih hw with ⟨hnone, hold⟩ | hpaged
      · rw [hnone, List.nil_append]
        exact Or.inr (hold.step last)
      · rw [← List.append_assoc]
        exact Or.inr (hpaged.step last).1
    · have honly : OnlyList creator w' w₃ := last.rel
      rw [if_neg hc, List.append_nil]
      rcases ih hw with ⟨hnone, hold⟩ | hpaged
      · exact Or.inl ⟨hnone, hold.of_other (Ne.symm hc) honly⟩
      · exact Or.inr (hpaged.of_other (Ne.symm hc) honly)

/-! ### The view -/

/-- The loop returns `n` elements from position `i` on. -/
theorem returns_creatorTokensFrom_of_pages (env : Env)
    (hpages : ∀ p, w.storage.persistent (.creatorTokens c p) =
      page MAX_TOKENS_BY_CREATOR_PAGE l p) (hn : i + n ≤ l.length) :
    (creatorTokensFrom c n i).Returns env w ((l.drop i).take n) w := by
  induction n generalizing i with
  | zero => exact returns_pure.mpr ⟨List.take_zero.symm, rfl⟩
  | succ n ih =>
    have hlt : i < l.length := by omega
    obtain ⟨bucket, hbucket⟩ := page_isSome_of_lt MAX_TOKENS_BY_CREATOR_PAGE hlt
    -- the page that holds the index, and its place in the page
    have hlookup : w.storage.lookup (.creatorTokens c (i / MAX_TOKENS_BY_CREATOR_PAGE)) =
        some bucket := by
      rw [Storage.lookup, hpages, hbucket]
      rfl
    have hentry : bucket[i % MAX_TOKENS_BY_CREATOR_PAGE]? = some l[i] := by
      have hpage := getElem?_page (l := l) (i := i) page_pos
      rwa [hbucket, Option.getD_some, List.getElem?_eq_getElem hlt] at hpage
    rw [creatorTokensFrom, returns_bind]
    refine ⟨_, _, returns_readAddrKeyed.mpr ⟨hlookup, rfl⟩, ?_⟩
    rw [Option.getD_some, hentry]
    simp only [returns_bind]
    refine ⟨_, _, ih (by omega), returns_pure.mpr ⟨?_, rfl⟩⟩
    rw [List.drop_eq_getElem_cons hlt, List.take_succ_cons]

/-- The view is a slice of the list, if the end of the slice or of the list can be counted. -/
theorem returns_getTokensByCreator_of_pages (env : Env) {offset limit : ℕ}
    (hcount : (w.storage.lookup (.creatorTokenCount c)).getD 0 = l.length)
    (hpages : ∀ p, w.storage.persistent (.creatorTokens c p) =
      page MAX_TOKENS_BY_CREATOR_PAGE l p)
    (hfits : l.length ≤ U32.MAX ∨ offset + min limit MAX_TOKENS_BY_CREATOR_PAGE ≤ U32.MAX) :
    (getTokensByCreator c offset limit).Returns env w
      ((l.drop offset).take (min limit MAX_TOKENS_BY_CREATOR_PAGE)) w := by
  unfold getTokensByCreator
  split_ifs with hlimit
  · rw [hlimit, Nat.zero_min, List.take_zero]
    exact returns_pure.mpr ⟨rfl, rfl⟩
  · rw [returns_bind]
    refine ⟨_, w, returns_readAddrKeyed.mpr ⟨rfl, rfl⟩, ?_⟩
    simp only [hcount]
    split_ifs with hpast
    · rw [List.drop_eq_nil_of_le hpast, List.take_nil]
      exact returns_pure.mpr ⟨rfl, rfl⟩
    · -- the sum saturates beyond every list, so that the end of the list is the end
      have hlast : min (U32.saturatingAdd offset (min limit MAX_TOKENS_BY_CREATOR_PAGE)) l.length -
          offset = min (min limit MAX_TOKENS_BY_CREATOR_PAGE) (l.length - offset) := by
        unfold U32.saturatingAdd
        omega
      rw [hlast]
      have hrun := returns_creatorTokensFrom_of_pages env hpages (i := offset)
        (n := min (min limit MAX_TOKENS_BY_CREATOR_PAGE) (l.length - offset)) (by omega)
      have hslice : (l.drop offset).take
          (min (min limit MAX_TOKENS_BY_CREATOR_PAGE) (l.length - offset)) =
          (l.drop offset).take (min limit MAX_TOKENS_BY_CREATOR_PAGE) := by
        rw [← List.length_drop, ← List.take_eq_take_min]
      rwa [hslice] at hrun

theorem Paged.returns_getTokensByCreator (env : Env) (h : Paged w c l) (offset limit : ℕ) :
    (getTokensByCreator c offset limit).Returns env w
      ((l.drop offset).take (min limit MAX_TOKENS_BY_CREATOR_PAGE)) w := by
  apply returns_getTokensByCreator_of_pages env _ h.pages (Or.inl h.length_le)
  rw [Storage.lookup, h.count]
  rfl

/-- The loop of a client ends with the list from its offset on. -/
theorem Paged.enumerates_iff (h : Paged w c l) {limit offset : ℕ} {out : List ℕ}
    (hlimit : MAX_TOKENS_BY_CREATOR_PAGE ≤ limit) :
    Enumerates env w c limit offset out ↔ out = l.drop offset := by
  have hview : ∀ offset, (getTokensByCreator c offset limit).Returns env w
      ((l.drop offset).take MAX_TOKENS_BY_CREATOR_PAGE) w := by
    intro offset
    have hrun := h.returns_getTokensByCreator env offset limit
    rwa [Nat.min_eq_right hlimit] at hrun
  constructor
  · intro henumerates
    induction henumerates with
    | last hpage hshort =>
      obtain ⟨rfl, -⟩ := hpage.unique (hview _)
      rw [List.length_take] at hshort
      exact List.take_of_length_le (by omega)
    | more hpage hfull hrest ih =>
      obtain ⟨rfl, -⟩ := hpage.unique (hview _)
      rw [List.length_take] at hfull
      rw [ih, List.length_take, Nat.min_eq_left (by omega), ← List.drop_drop,
        List.take_append_drop]
  · rintro rfl
    -- by induction on what is left of the list
    induction hleft : (l.drop offset).length using Nat.strong_induction_on generalizing offset with
    | _ left ih =>
    by_cases hshort : (l.drop offset).length < MAX_TOKENS_BY_CREATOR_PAGE
    · have hlast := hview offset
      rw [List.take_of_length_le (Nat.le_of_lt hshort)] at hlast
      exact .last hlast hshort
    · have hlength : ((l.drop offset).take MAX_TOKENS_BY_CREATOR_PAGE).length =
          MAX_TOKENS_BY_CREATOR_PAGE := by
        rw [List.length_take]
        omega
      have hrest := ih (l.drop (offset + MAX_TOKENS_BY_CREATOR_PAGE)).length (by
        have := page_pos
        rw [List.length_drop] at hleft hshort ⊢
        omega) rfl
      rw [← hlength] at hrest
      have hmore := Enumerates.more (hview offset) (Nat.le_of_eq hlength.symm) hrest
      rwa [hlength, ← List.drop_drop, List.take_append_drop] at hmore

/-! ### The list -/

/-- The pages of `creator` are served as the list `l`. -/
structure ServesList (w : World) (creator : Address) (l : List ℕ) : Prop where
  slice : ∀ env offset limit, (getTokensByCreator creator offset limit).Returns env w
    ((l.drop offset).take (min limit MAX_TOKENS_BY_CREATOR_PAGE)) w
  page_length : ∀ p bucket, w.storage.persistent (.creatorTokens creator p) = some bucket →
    bucket.length ≤ MAX_TOKENS_BY_CREATOR_PAGE
  full_kept : ∀ later w', Appends later w w' → KeepsFull creator w w'
  walk : ∀ env limit out, MAX_TOKENS_BY_CREATOR_PAGE ≤ limit →
    (Enumerates env w creator limit 0 out ↔ out = l)
  /-- There is room for one more up to the largest count. -/
  room : ∀ env index, l.length < U32.MAX →
    ∃ w', (appendCreatorToken creator index).Returns env w () w'

/-- Pages serve the list that they hold. -/
theorem Paged.servesList (h : Paged w c l) : ServesList w c l where
  slice env offset limit := h.returns_getTokensByCreator env offset limit
  page_length p bucket hbucket := by
    rw [h.pages] at hbucket
    exact length_page_le hbucket
  full_kept later w' hlater := (hlater.paged_of_paged h).2
  walk env limit out hlimit := by rw [h.enumerates_iff hlimit, List.drop_zero]
  room env index hfits := by
    obtain ⟨w₁, hw₁, -⟩ := h.counted env
    obtain ⟨w', hrun, -⟩ := hw₁.append (i := index) hfits
    exact ⟨w', hrun⟩

/-- From whatever list an older binary has left, after any appends with one for `c` among them, the
pages of `c` are served as that list followed by what was appended for `c`. -/
theorem creator_list (hw : Unmigrated w c legacy) :
    (legacy.length < U32.MAX → ∀ env index, ∃ w',
      (appendCreatorToken c index).Returns env w () w') ∧
    ∀ calls w', Appends calls w w' → appended c calls ≠ [] →
      ServesList w' c (legacy ++ appended c calls) := by
  constructor
  · intro hfits env index
    obtain ⟨w₁, hw₁⟩ := hw.counted env (Nat.le_of_lt hfits)
    obtain ⟨w', hrun, -⟩ := hw₁.append (i := index) hfits
    exact ⟨w', hrun⟩
  · intro calls w' hcalls hsome
    rcases hcalls.paged hw with ⟨hnone, -⟩ | hpaged
    · exact absurd hnone hsome
    · exact hpaged.servesList

/-- A list of an older binary that fills two pages and a part of a third. -/
def legacyWorld : World := World.genesis.setInst (.legacyCreatorTokens ⟨7⟩) (List.range 120)

/-- A list of the older layout with 120 tokens. -/
theorem creator_list_legacyWorld :
    Unmigrated legacyWorld ⟨7⟩ (List.range 120) ∧
    ((List.range 120).length < U32.MAX → ∀ env index, ∃ w',
      (appendCreatorToken ⟨7⟩ index).Returns env legacyWorld () w') ∧
    ∀ calls w', Appends calls legacyWorld w' → appended ⟨7⟩ calls ≠ [] →
      ServesList w' ⟨7⟩ (List.range 120 ++ appended ⟨7⟩ calls) := by
  have hw : Unmigrated legacyWorld ⟨7⟩ (List.range 120) := by
    refine ⟨?_, rfl, fun _ => rfl⟩
    rw [legacyWorld, World.storage_setInst, Storage.inst_setInst_self, Option.getD_some]
  exact ⟨hw, creator_list hw⟩

end StellarForge.Factory
