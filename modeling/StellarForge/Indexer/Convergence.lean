import Mathlib.Data.Finset.Max
import Mathlib.Order.Interval.Finset.Nat
import StellarForge.Indexer.Completeness

/-!
# When ingest converges

Indices that cannot be read are skipped and tried again.  The backfill starts at the number of rows,
and the reconciliation tries only the first `BACKFILL_BATCH_SIZE` missing indices, so a batch of
unreadable indices hides what is above it.

* `progress_of_cycle`: a cycle indexes a token, unless none is left, when no batch of unreadable
  indices lies below a readable one;
* `reachable_of_cycle`: nothing above a batch of unreadable indices is read;
* `converges_iff`: **when every readable index is indexed after some number of cycles**;
* `not_converges_sampleBatch`: the first 25 of 26 tokens are unreadable.
-/

namespace StellarForge.Indexer

open Collections Soroban Contract MemoryTokenStore Transition

/-- The addresses of a factory with `n` tokens. -/
structure TokenList (n : ℕ) where
  address : ℕ → String
  inj : ∀ {i j}, 1 ≤ i → i ≤ n → 1 ≤ j → j ≤ n → address i = address j → i = j
  ne_empty : ∀ {i}, 1 ≤ i → i ≤ n → address i ≠ ""

section

variable {n : ℕ} {tokens : TokenList n} {U : Finset ℕ} {rpc : SorobanRpc} {rpcs : List SorobanRpc}
  {s s' : Ingesting}

/-- The first index with an address. -/
theorem find?_address {a : String} {i : ℕ} :
    ((List.range' 1 n).find? fun i => tokens.address i = a) = some i ↔
      1 ≤ i ∧ i ≤ n ∧ tokens.address i = a := by
  constructor
  · intro h
    have hmem := List.mem_range'_1.mp (List.mem_of_find?_eq_some h)
    have ha := List.find?_some h
    rw [decide_eq_true_eq] at ha
    exact ⟨hmem.1, by omega, ha⟩
  · rintro ⟨hlo, hhi, rfl⟩
    rcases hfind : (List.range' 1 n).find? fun j => tokens.address j = tokens.address i with _ | j
    · have hnone := List.find?_eq_none.mp hfind i (List.mem_range'_1.mpr ⟨hlo, by omega⟩)
      simp at hnone
    · have hmem := List.mem_range'_1.mp (List.mem_of_find?_eq_some hfind)
      have ha := List.find?_some hfind
      rw [decide_eq_true_eq] at ha
      rw [tokens.inj hmem.1 (by omega) hlo hhi ha]

/-- What the factory registers. -/
def TokenList.registry (tokens : TokenList n) : Registry where
  indexOf a := (List.range' 1 n).find? fun i => tokens.address i = a
  inj ha hb := (find?_address.mp ha).2.2.symm.trans (find?_address.mp hb).2.2
  pos ha := (find?_address.mp ha).1

theorem indexOf_registry {a : String} {i : ℕ} :
    tokens.registry.indexOf a = some i ↔ 1 ≤ i ∧ i ≤ n ∧ tokens.address i = a :=
  find?_address

/-- The server of the factory, where exactly the indices in `U` cannot be read, and nothing else
fails. -/
structure Serves (tokens : TokenList n) (U : Finset ℕ) (rpc : SorobanRpc) : Prop where
  honest : Honest tokens.registry rpc
  tokenCount : rpc.tokenCount = .ok n
  readable : ∀ i, 1 ≤ i → i ≤ n → ((getTokenByIndex rpc i).isSome ↔ i ∉ U)
  pages : ∀ cursor, ∃ page, getEventPage rpc cursor = .ok page
  lookups : ∀ cursor page, getEventPage rpc cursor = .ok page →
    ∀ token ∈ createdTokens page.events, (rpc.tokenIndex token.address).isSome

/-- There is a row with the index. -/
def HasRow (s : Ingesting) (i : ℕ) : Prop :=
  i ∈ s.store.tokens.records.map IndexedToken.tokenIndex

instance {i : ℕ} : Decidable (HasRow s i) := List.instDecidableMemOfLawfulBEq ..

/-- From any rows of the factory's tokens, and with any checkpoint, there is a number of cycles after
which every readable index has a row. -/
def Converges (tokens : TokenList n) (U : Finset ℕ) : Prop :=
  ∀ s : Ingesting, Rows (Placed tokens.registry n) s.store.tokens → ∃ N, ∀ rpcs : List SorobanRpc,
    N ≤ rpcs.length → (∀ rpc ∈ rpcs, Serves tokens U rpc) →
    ∃ s', Run Cycle s rpcs s' ∧ ∀ i, 1 ≤ i → i ≤ n → i ∉ U → HasRow s' i

/-- How many unreadable indices lie below `r`. -/
def unreadableBelow (U : Finset ℕ) (r : ℕ) : ℕ := (List.range' 1 (r - 1)).countP (· ∈ U)

/-- The index can be read, and fewer than a batch of unreadable indices lie below it. -/
def Reachable (U : Finset ℕ) (r : ℕ) : Prop := r ∉ U ∧ unreadableBelow U r < BACKFILL_BATCH_SIZE

/-! ### The window of the reconciliation -/

/-- The elements that a filter of the first `n` numbers takes. -/
theorem mem_take_filter_range' {p : ℕ → Bool} {k r : ℕ} (hlo : 1 ≤ r) (hhi : r ≤ n)
    (hp : p r = true) :
    r ∈ ((List.range' 1 n).filter p).take k ↔ (List.range' 1 (r - 1)).countP p < k := by
  -- the range is cut at `r`
  have hsplit : List.range' 1 n =
      List.range' 1 (r - 1) ++ r :: List.range' (r + 1) (n - r) := by
    have hr : 1 + (r - 1) = r := by omega
    have hn : r - 1 + (n - r + 1) = n := by omega
    calc List.range' 1 n = List.range' 1 (r - 1 + (n - r + 1)) := by rw [hn]
      _ = List.range' 1 (r - 1) ++ List.range' r (n - r + 1) := by rw [← List.range'_append_1, hr]
      _ = List.range' 1 (r - 1) ++ r :: List.range' (r + 1) (n - r) := by rw [List.range'_succ]
  have hbelow : r ∉ (List.range' 1 (r - 1)).filter p := by
    intro h
    have := List.mem_range'_1.mp (List.mem_filter.mp h).1
    omega
  rw [hsplit, List.filter_append, List.filter_cons_of_pos hp, List.take_append, List.mem_append,
    List.countP_eq_length_filter]
  -- below `r` there are only smaller numbers, so it is in the part that starts with it
  rw [or_iff_right fun h => hbelow (List.mem_of_mem_take h)]
  constructor
  · intro h
    by_contra hge
    rw [Nat.sub_eq_zero_of_le (Nat.not_lt.mp hge), List.take_zero] at h
    cases h
  · intro hlt
    obtain ⟨m, hm⟩ := Nat.exists_eq_succ_of_ne_zero (Nat.sub_ne_zero_of_lt hlt)
    rw [hm, List.take_succ_cons]
    exact List.mem_cons_self ..

/-- The index is missing. -/
theorem mem_reconcileWindow {r : ℕ} (hlo : 1 ≤ r) (hhi : r ≤ n) (hmissing : ¬ HasRow s r) :
    r ∈ reconcileWindow s.store n ↔
      (List.range' 1 (r - 1)).countP (fun i => decide (¬ HasRow s i)) < BACKFILL_BATCH_SIZE := by
  have hpresent : ∀ i ∈ List.range' 1 n,
      (!(s.store.presentIndices (List.range' 1 n)).contains i) = decide (¬ HasRow s i) := by
    intro i hi
    rw [Bool.eq_iff_iff, Bool.not_eq_true', ← Bool.not_eq_true, List.contains_iff_mem,
      decide_eq_true_eq, presentIndices, List.mem_filter, List.contains_iff_mem, and_iff_left hi]
    rfl
  rw [reconcileWindow, List.filter_congr hpresent]
  exact mem_take_filter_range' hlo hhi (decide_eq_true hmissing)

theorem unreadableBelow_mono {i j : ℕ} (hij : i ≤ j) : unreadableBelow U i ≤ unreadableBelow U j := by
  refine List.Sublist.countP_le (List.range'_sublist_right.mpr ?_)
  omega

/-! ### Progress -/

theorem Serves.resolved (h : Serves tokens U rpc) : Resolved rpc s := by
  intro page hpage token htoken
  rw [delivered, h.tokenCount] at hpage
  obtain ⟨cursor, hread⟩ := exists_of_mem_pagesFrom hpage
  obtain ⟨i, hi⟩ := Option.isSome_iff_exists.mp (h.lookups cursor page hread token htoken)
  exact ⟨i, n, hi, h.tokenCount, (indexOf_registry.mp (h.honest.tokenIndex hi)).2.1⟩

/-- With placed rows, an index has a row when its address has one. -/
theorem hasRow_iff (hs : Rows (Placed tokens.registry n) s.store.tokens) {i : ℕ} (hlo : 1 ≤ i)
    (hhi : i ≤ n) : HasRow s i ↔ (s.store.tokens.find? (tokens.address i)).isSome = true := by
  constructor
  · intro h
    obtain ⟨row, hrow, rfl⟩ := List.mem_map.mp h
    have haddress := (indexOf_registry.mp (hs row hrow).1).2.2
    rw [haddress, Keyed.find?_eq_some.mpr ⟨hrow, rfl⟩]
    rfl
  · intro h
    obtain ⟨row, hfind⟩ := Option.isSome_iff_exists.mp h
    obtain ⟨hrow, haddress⟩ := Keyed.find?_eq_some.mp hfind
    have hindex : tokens.registry.indexOf row.address = some i :=
      indexOf_registry.mpr ⟨hlo, hhi, haddress.symm⟩
    rw [(hs row hrow).1] at hindex
    exact List.mem_map.mpr ⟨row, hrow, Option.some.inj hindex⟩

/-- Writes of placed rows remove no row. -/
theorem hasRow_of_replay {ws : List Write} (hs : Rows (Placed tokens.registry n) s.store.tokens)
    (hs' : Rows (Placed tokens.registry n) s'.store.tokens)
    (htokens : s'.store.tokens = replay s.store.tokens ws) {i : ℕ} (hi : HasRow s i) :
    HasRow s' i := by
  obtain ⟨row, hrow, rfl⟩ := List.mem_map.mp hi
  obtain ⟨hlo, hhi, -⟩ := indexOf_registry.mp (hs row hrow).1
  rw [hasRow_iff hs' hlo hhi, htokens, isSome_find?_replay_iff]
  exact .inl ((hasRow_iff hs hlo hhi).mp hi)

/-- The readable indices that have no row. -/
def unindexed (U : Finset ℕ) (n : ℕ) (s : Ingesting) : Finset ℕ :=
  (Finset.Icc 1 n).filter fun i => i ∉ U ∧ ¬ HasRow s i

theorem mem_unindexed {i : ℕ} : i ∈ unindexed U n s ↔ (1 ≤ i ∧ i ≤ n) ∧ i ∉ U ∧ ¬ HasRow s i := by
  rw [unindexed, Finset.mem_filter, Finset.mem_Icc]

/-- The reconciliation reads the least readable index that has no row. -/
theorem mem_reconcileWindow_of_least (hreach : ∀ r, 1 ≤ r → r ≤ n → r ∉ U → Reachable U r) {r : ℕ}
    (hr : r ∈ unindexed U n s) (hleast : ∀ i ∈ unindexed U n s, r ≤ i) :
    r ∈ reconcileWindow s.store n := by
  obtain ⟨⟨hlo, hhi⟩, hreadable, hmissing⟩ := mem_unindexed.mp hr
  rw [mem_reconcileWindow hlo hhi hmissing]
  refine Nat.lt_of_le_of_lt (List.countP_mono_left fun i hi hrow => ?_) (hreach r hlo hhi hreadable).2
  -- what is missing below is unreadable
  rw [decide_eq_true_eq] at hrow ⊢
  by_contra hU
  have hbelow := List.mem_range'_1.mp hi
  have hge := hleast i (mem_unindexed.mpr ⟨⟨hbelow.1, by omega⟩, hU, hrow⟩)
  omega

/-- What a cycle does to the rows, where the server serves. -/
theorem placed_of_serves (hserves : Serves tokens U rpc) (hcycle : Cycle s rpc s')
    (hs : Rows (Placed tokens.registry n) s.store.tokens) :
    Rows (Placed tokens.registry n) s'.store.tokens := by
  obtain ⟨result, houtcome⟩ := outcome_of_cycle hcycle
  refine (placed_of_cycle hserves.honest hserves.resolved houtcome (Nat.le_refl n) ?_ hs).1
  intro k hk
  obtain rfl := Except.ok.inj (hserves.tokenCount.symm.trans hk)
  exact ⟨Nat.le_refl _, rfl⟩

/-- Fewer indices are missing after writes of placed rows. -/
theorem unindexed_subset {ws : List Write} (hs : Rows (Placed tokens.registry n) s.store.tokens)
    (hs' : Rows (Placed tokens.registry n) s'.store.tokens)
    (htokens : s'.store.tokens = replay s.store.tokens ws) :
    unindexed U n s' ⊆ unindexed U n s := by
  intro i hi
  obtain ⟨hbounds, hreadable, hmissing⟩ := mem_unindexed.mp hi
  exact mem_unindexed.mpr
    ⟨hbounds, hreadable, fun h => hmissing (hasRow_of_replay hs hs' htokens h)⟩

/-- The rows before the reconciliation are those at the start of the cycle after some writes. -/
theorem EventPhase.exists_replay {s₁ s₂ : Ingesting} (h : EventPhase rpc n s s₁ s₂) :
    ∃ ws, s₂.store.tokens = replay s.store.tokens ws := by
  rw [h.tokens]
  rcases h.backfill with rfl | ⟨_, hbackfill⟩
  · exact ⟨_, rfl⟩
  · obtain ⟨rows, rfl, -⟩ := writes_of_backfill hbackfill
    exact ⟨rows.map .upsert ++ pageWrites (delivered rpc s), by
      rw [tokens_performAll, replay, replay, replay, List.foldl_append]⟩

/-- The row that the reconciliation reads for an index of its window. -/
theorem hasRow_of_reconciled (hserves : Serves tokens U rpc) {r : ℕ}
    (hr : r ∈ unindexed U n s) (hwindow : r ∈ reconcileWindow s.store n)
    (hs' : Rows (Placed tokens.registry n) s'.store.tokens)
    (htokens : s'.store.tokens =
      replay s.store.tokens ((backfillRows rpc s.store (reconcileWindow s.store n)).map .upsert)) :
    HasRow s' r := by
  obtain ⟨⟨hlo, hhi⟩, hreadable, hmissing⟩ := mem_unindexed.mp hr
  obtain ⟨row, hread⟩ := Option.isSome_iff_exists.mp ((hserves.readable r hlo hhi).mpr hreadable)
  have hplaced := placed_of_getTokenByIndex hserves.honest hread hhi
  have hindex : row.tokenIndex = r := tokenIndex_of_getTokenByIndex hread
  have haddress : tokens.address r = row.address := hindex ▸ (indexOf_registry.mp hplaced.1).2.2
  have hrow : row ∈ backfillRows rpc s.store (reconcileWindow s.store n) := by
    refine List.mem_filterMap.mpr ⟨r, List.mem_filter.mpr ⟨hwindow, ?_⟩, hread⟩
    rw [Bool.not_eq_true', ← Bool.not_eq_true, List.contains_iff_mem]
    exact fun h => hmissing (List.mem_filter.mp h).1
  rw [hasRow_iff hs' hlo hhi, htokens, isSome_find?_replay_iff]
  exact .inr ⟨row, List.mem_map.mpr ⟨row, hrow, rfl⟩, haddress.symm⟩

/-- **Progress**: a cycle indexes a token, unless none is left. -/
theorem progress_of_cycle (hreach : ∀ r, 1 ≤ r → r ≤ n → r ∉ U → Reachable U r)
    (hserves : Serves tokens U rpc) (hcycle : Cycle s rpc s')
    (hs : Rows (Placed tokens.registry n) s.store.tokens) :
    (unindexed U n s').card ≤ (unindexed U n s).card - 1 := by
  have hs' := placed_of_serves hserves hcycle hs
  obtain ⟨result, houtcome⟩ := outcome_of_cycle hcycle
  cases houtcome with
  | noCount hcount =>
    rw [hserves.tokenCount] at hcount
    cases hcount
  | stopped _ hpage =>
    obtain ⟨cursor, err, hpage⟩ := hpage
    obtain ⟨page, hread⟩ := hserves.pages cursor
    rw [hpage] at hread
    cases hread
  | @finished k s₁ s₂ hphase rows hrows _ htokens _ _ =>
    obtain rfl := Except.ok.inj (hserves.tokenCount.symm.trans hphase.tokenCount)
    have hs₂ := placed_of_phase hserves.honest hserves.resolved hphase hs
    obtain ⟨ws, hws⟩ := hphase.exists_replay
    have hbefore : unindexed U n s₂ ⊆ unindexed U n s := unindexed_subset hs hs₂ hws
    have hafter : unindexed U n s' ⊆ unindexed U n s₂ := unindexed_subset hs₂ hs' htokens
    rcases (unindexed U n s₂).eq_empty_or_nonempty with hempty | hnonempty
    · -- nothing is left to read
      rw [hempty, Finset.subset_empty] at hafter
      rw [hafter, Finset.card_empty]
      exact Nat.zero_le _
    · -- the least one is read
      obtain ⟨r, hr, hleast⟩ : ∃ r ∈ unindexed U n s₂, ∀ i ∈ unindexed U n s₂, r ≤ i :=
        ⟨_, Finset.min'_mem _ hnonempty, fun i hi => Finset.min'_le _ i hi⟩
      have hlt : s₂.store.countTokens < n := by
        by_contra hge
        obtain ⟨⟨hlo, hhi⟩, -, hmissing⟩ := mem_unindexed.mp hr
        obtain ⟨row, hrow, hindex, -⟩ :=
          allPresent_of_length hs₂ (Nat.not_lt.mp hge) r hlo hhi
        exact hmissing (List.mem_map.mpr ⟨row, hrow, hindex⟩)
      rw [if_pos hlt] at hrows
      subst hrows
      have hrow := hasRow_of_reconciled hserves hr (mem_reconcileWindow_of_least hreach hr hleast)
        hs' htokens
      have hread : r ∉ unindexed U n s' := fun h => (mem_unindexed.mp h).2.2 hrow
      have hcard : (unindexed U n s').card < (unindexed U n s₂).card :=
        Finset.card_lt_card ⟨hafter, fun h => hread (h hr)⟩
      have hle := Finset.card_le_card hbefore
      omega

/-- **The run lemma**: the number of cycles bounds what is left. -/
theorem unindexed_of_run (hreach : ∀ r, 1 ≤ r → r ≤ n → r ∉ U → Reachable U r)
    (hserves : ∀ rpc ∈ rpcs, Serves tokens U rpc)
    (hs : Rows (Placed tokens.registry n) s.store.tokens) (hrun : Run Cycle s rpcs s') :
    Rows (Placed tokens.registry n) s'.store.tokens ∧
      (unindexed U n s').card ≤ n - rpcs.length := by
  induction hrun with
  | nil =>
    refine ⟨hs, (Finset.card_filter_le _ _).trans ?_⟩
    rw [Nat.card_Icc]
    exact Nat.le_refl n
  | @snoc rpcs rpc s₁ s₂ hrun hcycle ih =>
    obtain ⟨hs₁, hcard⟩ := ih fun rpc hmem => hserves rpc (List.mem_cons_of_mem _ hmem)
    have hrpc := hserves rpc (List.mem_cons_self ..)
    have hstep := progress_of_cycle hreach hrpc hcycle hs₁
    refine ⟨placed_of_serves hrpc hcycle hs₁, ?_⟩
    rw [List.length_cons]
    omega

/-- Cycles can always be run. -/
theorem exists_run (s : Ingesting) (rpcs : List SorobanRpc) : ∃ s', Run Cycle s rpcs s' := by
  induction rpcs with
  | nil => exact ⟨s, .nil⟩
  | cons rpc rpcs ih =>
    obtain ⟨s₁, hrun⟩ := ih
    obtain ⟨s₂, hcycle⟩ := exists_cycle s₁ rpc
    exact ⟨s₂, hrun.snoc hcycle⟩

/-- Where every missing row is reachable, the index converges. -/
theorem converges_of_reachable (hreach : ∀ r, 1 ≤ r → r ≤ n → r ∉ U → Reachable U r) :
    Converges tokens U := by
  intro s hs
  refine ⟨n, fun rpcs hlength hserves => ?_⟩
  obtain ⟨s', hrun⟩ := exists_run s rpcs
  refine ⟨s', hrun, fun i hlo hhi hreadable => ?_⟩
  have hcard := (unindexed_of_run hreach hserves hs hrun).2
  rw [Nat.sub_eq_zero_of_le hlength, Nat.le_zero, Finset.card_eq_zero] at hcard
  by_contra hmissing
  have hmem : i ∈ unindexed U n s' := mem_unindexed.mpr ⟨⟨hlo, hhi⟩, hreadable, hmissing⟩
  rw [hcard] at hmem
  cases hmem

/-! ### What hides behind a batch of unreadable indices -/

/-- The row is placed, and its index is reachable. -/
def PlacedReachable (tokens : TokenList n) (U : Finset ℕ) (row : IndexedToken) : Prop :=
  Placed tokens.registry n row ∧ Reachable U row.tokenIndex

/-- **The counting argument**: what the backfill can read from the number of rows on is reachable,
since every row is readable, and below everything that is not reachable. -/
theorem reachable_of_window (hs : Rows (PlacedReachable tokens U) s.store.tokens) {j : ℕ}
    (hj : j ≤ s.store.countTokens + BACKFILL_BATCH_SIZE) (hreadable : j ∉ U) : Reachable U j := by
  refine ⟨hreadable, ?_⟩
  -- with too many unreadable numbers below, the rows present would not fit under `j`
  by_contra hge
  have hsubset : s.store.tokens.records.map IndexedToken.tokenIndex ⊆
      (List.range' 1 (j - 1)).filter fun i => decide ¬ decide (i ∈ U) = true := by
    intro i hi
    obtain ⟨row, hrow, rfl⟩ := List.mem_map.mp hi
    obtain ⟨hplaced, hU, hbelow⟩ := hs row hrow
    have hpos := tokens.registry.pos hplaced.1
    have hlt : row.tokenIndex < j := by
      by_contra hle
      have hmono := unreadableBelow_mono (U := U) (Nat.not_lt.mp hle)
      omega
    -- every row is placed, readable and below `j`
    refine List.mem_filter.mpr ⟨List.mem_range'_1.mpr ⟨hpos, by omega⟩, ?_⟩
    simp [hU]
  have hplaced : Rows (Placed tokens.registry n) s.store.tokens := fun row hrow => (hs row hrow).1
  have hcount := ((nodup_tokenIndex hplaced).subperm hsubset).length_le
  have hsum := List.length_eq_countP_add_countP (fun i => decide (i ∈ U)) (l := List.range' 1 (j - 1))
  rw [List.length_map, ← List.countP_eq_length_filter] at hcount
  rw [List.length_range'] at hsum
  rw [Nat.not_lt, unreadableBelow, BACKFILL_BATCH_SIZE] at hge
  rw [countTokens, Keyed.length, BACKFILL_BATCH_SIZE] at hj
  omega

/-- What the reconciliation reads is reachable, since every unreadable index is missing. -/
theorem reachable_of_reconcileWindow (hs : Rows (PlacedReachable tokens U) s.store.tokens) {j : ℕ}
    (hj : j ∈ reconcileWindow s.store n) (hlo : 1 ≤ j) (hhi : j ≤ n) (hmissing : ¬ HasRow s j)
    (hreadable : j ∉ U) : Reachable U j := by
  refine ⟨hreadable, Nat.lt_of_le_of_lt (List.countP_mono_left fun i _ hU => ?_)
    ((mem_reconcileWindow hlo hhi hmissing).mp hj)⟩
  rw [decide_eq_true_eq] at hU ⊢
  rintro hrow
  obtain ⟨row, hmem, rfl⟩ := List.mem_map.mp hrow
  exact (hs row hmem).2.1 hU

/-- The server of the factory, where the indices in `U` cannot be read, and no events come. -/
def quietServer (tokens : TokenList n) (U : Finset ℕ) : SorobanRpc where
  tokenCount := .ok n
  tokenInfo i := if i ∈ U then none else some ⟨"Token", "TOK", 7, "GCREATOR", 1700000000⟩
  tokenAddress i := if 1 ≤ i ∧ i ≤ n then some (tokens.address i) else none
  tokenIndex := tokens.registry.indexOf
  getEvents _ _ := .ok ⟨[], some 200⟩
  startLedger := none
  now := 1700000100000

theorem quietServer_page (cursor : Option String) :
    getEventPage (quietServer tokens U) cursor = .ok ⟨[], none, some 200, some 1700000100000⟩ :=
  rfl

theorem quietServer_delivered : pageWrites (delivered (quietServer tokens U) s) = [] := rfl

/-- It serves the factory. -/
theorem quietServer_serves : Serves tokens U (quietServer tokens U) where
  honest := by
    refine ⟨fun h => h, fun {a i} h => ?_⟩
    simp only [quietServer] at h
    split_ifs at h with hi
    exact indexOf_registry.mpr ⟨hi.1, hi.2, Option.some.inj h⟩
  tokenCount := rfl
  readable i hlo hhi := by
    have haddress : resolveAddressForIndex (quietServer tokens U) i = some (tokens.address i) := by
      simp [resolveAddressForIndex, quietServer, hlo, hhi, tokens.ne_empty hlo hhi]
    simp only [getTokenByIndex, haddress]
    by_cases hU : i ∈ U <;> simp [quietServer, hU]
  pages cursor := ⟨_, quietServer_page cursor⟩
  lookups cursor page hpage := by
    rw [quietServer_page] at hpage
    obtain rfl := Except.ok.inj hpage
    intro token htoken
    cases htoken

/-- A row that is read for a reachable index. -/
theorem placedReachable_of_read {j : ℕ} {token : IndexedToken}
    (hread : getTokenByIndex (quietServer tokens U) j = some token) (hlo : 1 ≤ j) (hhi : j ≤ n)
    (hreach : j ∉ U → Reachable U j) : PlacedReachable tokens U token := by
  have hreadable : j ∉ U :=
    (quietServer_serves.readable j hlo hhi).mp (Option.isSome_iff_exists.mpr ⟨token, hread⟩)
  have hindex := tokenIndex_of_getTokenByIndex hread
  exact ⟨placed_of_getTokenByIndex quietServer_serves.honest hread hhi, hindex ▸ hreach hreadable⟩

theorem reachable_of_backfill {out : ℕ} (hs : Rows (PlacedReachable tokens U) s.store.tokens)
    (h : (runBackfill n).Returns (quietServer tokens U) s out s') :
    Rows (PlacedReachable tokens U) s'.store.tokens := by
  refine backfill_invariant (fun {s} hs _ => ?_) h hs
  refine rows_replay (fun _ _ ht => ht) hs fun token hmem => ?_
  obtain ⟨row, hrow, heq⟩ := List.mem_map.mp hmem
  cases heq
  obtain ⟨j, hj, hread⟩ := mem_backfillRows hrow
  obtain ⟨hlo, hbatch, hhi⟩ := mem_batchWindow.mp hj
  exact placedReachable_of_read hread (by omega) hhi (reachable_of_window hs hbatch)

/-- **Nothing above a batch of unreadable indices is read** by the quiet server's cycles. -/
theorem reachable_of_cycle (hs : Rows (PlacedReachable tokens U) s.store.tokens)
    (hcycle : Cycle s (quietServer tokens U) s') :
    Rows (PlacedReachable tokens U) s'.store.tokens := by
  -- all that a cycle writes before its end it has read from the registry
  have hphase : ∀ {k : ℕ} {s₁ s₂ : Ingesting}, EventPhase (quietServer tokens U) k s s₁ s₂ →
      k = n ∧ Rows (PlacedReachable tokens U) s₂.store.tokens := by
    intro k s₁ s₂ h
    obtain rfl : n = k := Except.ok.inj h.tokenCount
    refine ⟨rfl, ?_⟩
    rw [h.tokens, quietServer_delivered]
    rcases h.backfill with rfl | ⟨_, hbackfill⟩
    · exact hs
    · exact reachable_of_backfill hs hbackfill
  obtain ⟨result, houtcome⟩ := outcome_of_cycle hcycle
  cases houtcome with
  | noCount _ _ _ htokens => exact htokens ▸ hs
  | stopped h _ _ _ htokens => exact htokens ▸ (hphase h).2
  -- the reconciliation reads what its window has and the store has not
  | @finished k s₁ s₂ h rows hrows _ htokens _ _ =>
    obtain ⟨rfl, hs₂⟩ := hphase h
    rw [htokens]
    refine rows_replay (fun _ _ ht => ht) hs₂ fun token hmem => ?_
    obtain ⟨row, hrow, heq⟩ := List.mem_map.mp hmem
    cases heq
    rw [hrows] at hrow
    split_ifs at hrow
    · obtain ⟨j, hj, hread⟩ := List.mem_filterMap.mp hrow
      obtain ⟨hwindow, hmissing⟩ := List.mem_filter.mp hj
      have hrange := (List.mem_filter.mp (List.mem_of_mem_take hwindow)).1
      have hbounds := List.mem_range'_1.mp hrange
      refine placedReachable_of_read hread hbounds.1 (by omega) ?_
      refine reachable_of_reconcileWindow hs₂ hwindow hbounds.1 (by omega) fun hhas => ?_
      rw [Bool.not_eq_true', ← Bool.not_eq_true, List.contains_iff_mem] at hmissing
      exact hmissing (List.mem_filter.mpr ⟨hhas, List.contains_iff_mem.mpr hwindow⟩)
    · cases hrow

/-- Where it converges, every missing row is reachable. -/
theorem reachable_of_converges (h : Converges tokens U) :
    ∀ r, 1 ≤ r → r ≤ n → r ∉ U → Reachable U r := by
  have hstart : Rows (Placed tokens.registry n) Ingesting.start.store.tokens :=
    fun row hrow => by cases hrow
  obtain ⟨N, hN⟩ := h .start hstart
  obtain ⟨s', hrun, hpresent⟩ := hN (List.replicate N (quietServer tokens U))
    (Nat.le_of_eq List.length_replicate.symm)
    fun rpc hmem => List.eq_of_mem_replicate hmem ▸ quietServer_serves
  have hreached : Rows (PlacedReachable tokens U) s'.store.tokens := by
    clear hpresent
    generalize hrpcs : List.replicate N (quietServer tokens U) = rpcs at hrun
    replace hrpcs : ∀ rpc ∈ rpcs, rpc = quietServer tokens U :=
      fun rpc hmem => List.eq_of_mem_replicate (hrpcs ▸ hmem)
    induction hrun with
    | nil => exact fun row hrow => by cases hrow
    | snoc _ hcycle ih =>
      obtain rfl := hrpcs _ (List.mem_cons_self ..)
      exact reachable_of_cycle (ih fun rpc hmem => hrpcs rpc (List.mem_cons_of_mem _ hmem)) hcycle
  intro r hlo hhi hreadable
  obtain ⟨row, hrow, rfl⟩ := List.mem_map.mp (hpresent r hlo hhi hreadable)
  exact (hreached row hrow).2

/-- **When ingest converges**: no batch of unreadable indices lies below a readable one. -/
theorem converges_iff : Converges tokens U ↔
    ∀ r, 1 ≤ r → r ≤ n → r ∉ U → unreadableBelow U r < BACKFILL_BATCH_SIZE := by
  constructor
  · exact fun h r hlo hhi hreadable => (reachable_of_converges h r hlo hhi hreadable).2
  · exact fun h => converges_of_reachable fun r hlo hhi hreadable =>
      ⟨hreadable, h r hlo hhi hreadable⟩

end

/-! ### A batch of unreadable indices -/

/-- A factory with 26 tokens. -/
def sampleTokens : TokenList 26 where
  address i := String.ofList (List.replicate i 'C')
  inj {i j} _ _ _ _ h := by
    have hlength := congrArg List.length (String.ofList_injective h)
    rwa [List.length_replicate, List.length_replicate] at hlength
  ne_empty {i} hi _ h := by
    have hlength := congrArg List.length (String.ofList_injective (h : _ = String.ofList []))
    rw [List.length_replicate, List.length_nil] at hlength
    omega

/-- The 26th token is never indexed when the first 25 cannot be read. -/
theorem not_converges_sampleBatch : ¬ Converges sampleTokens (Finset.Icc 1 25) := by
  intro h
  have hbelow := (reachable_of_converges h 26 (by decide) (by decide) (by decide)).2
  have hcount : unreadableBelow (Finset.Icc 1 25) 26 = 25 := by decide
  rw [hcount] at hbelow
  exact absurd hbelow (by decide)

end StellarForge.Indexer
