import Mathlib.Data.List.Perm.Subperm
import StellarForge.Indexer.Cycles

/-!
# When the backfill is complete

A cycle decides that the backfill is complete by comparing the number of rows with the token count.
A row that a `created` event inserted has the index `0` when the look-up of its index failed, and an
index beyond the token count when its token was created after the count was read.

* `completeness_sound`: **a cycle that reports completeness has a row for every index**, when no
  look-up of a delivered event failed or went beyond the count;
* `not_completeness_sound_sampleLookup`: one failed look-up, and the report is wrong.
-/

namespace StellarForge.Indexer

open Collections Soroban Contract MemoryTokenStore Transition

/-- The tokens of a factory: the index that an address is registered under. -/
structure Registry where
  indexOf : String → Option ℕ
  inj : ∀ {a b i}, indexOf a = some i → indexOf b = some i → a = b
  pos : ∀ {a i}, indexOf a = some i → 1 ≤ i

/-- Where the server answers, it answers what is registered. -/
structure Honest (registry : Registry) (rpc : SorobanRpc) : Prop where
  tokenIndex : ∀ {a i}, rpc.tokenIndex a = some i → registry.indexOf a = some i
  tokenAddress : ∀ {a i}, rpc.tokenAddress i = some a → registry.indexOf a = some i

/-- There is a row for every index up to `n`, with the address registered there. -/
def AllPresent (registry : Registry) (n : ℕ) (s : Ingesting) : Prop :=
  ∀ i, 1 ≤ i → i ≤ n → ∃ row ∈ s.store.tokens.records, row.tokenIndex = i ∧
    registry.indexOf row.address = some i

/-- Whenever a cycle reports completeness, every token has its row. -/
def CompletenessSound (registry : Registry) (rpcs : List SorobanRpc) : Prop :=
  ∀ earlier later rpc s s' result, rpcs = later ++ rpc :: earlier → Run Cycle .start earlier s →
    runIngest rpc s = some (.ok result, s') → result.backfillComplete = true →
    AllPresent registry result.tokenCount s'

/-- The look-up of every `created` event that is delivered is answered, within the token count. -/
def Resolved (rpc : SorobanRpc) (s : Ingesting) : Prop :=
  ∀ page ∈ delivered rpc s, ∀ token ∈ createdTokens page.events,
    ∃ i n, rpc.tokenIndex token.address = some i ∧ rpc.tokenCount = .ok n ∧ i ≤ n

/-- No cycle reads a smaller token count than an earlier one. -/
def CountsGrow (rpcs : List SorobanRpc) : Prop :=
  rpcs.Pairwise fun later earlier =>
    ∀ n m, later.tokenCount = .ok n → earlier.tokenCount = .ok m → m ≤ n

/-- Every cycle of the history had the look-ups of the events that it was delivered answered. -/
def LookupsResolved (rpcs : List SorobanRpc) : Prop :=
  ∀ earlier later rpc s, rpcs = later ++ rpc :: earlier → Run Cycle .start earlier s → Resolved rpc s

section

variable {registry : Registry} {rpc : SorobanRpc} {rpcs : List SorobanRpc} {s s' : Ingesting}
  {tokens : Keyed IndexedToken.address} {ws : List Write} {n m : ℕ}

/-! ### Properties of the rows -/

/-- Every row has the property. -/
def Rows (P : IndexedToken → Prop) (tokens : Keyed IndexedToken.address) : Prop :=
  ∀ row ∈ tokens.records, P row

theorem rows_set {P : IndexedToken → Prop} {token : IndexedToken} (h : Rows P tokens)
    (ht : P token) : Rows P (tokens.set token) := by
  intro row hrow
  have hfind : (tokens.set token).find? row.address = some row := Keyed.find?_eq_some.mpr ⟨hrow, rfl⟩
  rw [Keyed.find?_set] at hfind
  split_ifs at hfind
  · exact Option.some.inj hfind ▸ ht
  · exact h row (Keyed.find?_eq_some.mp hfind).1

/-- A property that does not speak of the URI holds of every row after some writes, if it holds of the
rows before and of the rows that were written. -/
theorem rows_replay {P : IndexedToken → Prop}
    (huri : ∀ token uri, P token → P { token with metadataUri := uri }) (h : Rows P tokens)
    (hws : ∀ token, .upsert token ∈ ws → P token) : Rows P (replay tokens ws) := by
  induction ws using List.reverseRecOn with
  | nil => exact h
  | append_singleton ws w ih =>
    have hbefore := ih fun token hmem => hws token (List.mem_append_left _ hmem)
    rw [replay_concat]
    cases w with
    | upsert token =>
      have ht := hws token (List.mem_append_right _ (List.mem_singleton_self _))
      exact rows_set hbefore (huri token _ ht)
    | setUri address uri =>
      rw [Write.apply, setMetadataUri]
      rcases hfind : (replay tokens ws).find? address with _ | existing
      · exact hbefore
      · exact rows_set hbefore (huri existing _ (hbefore existing (Keyed.find?_eq_some.mp hfind).1))

/-- The row has the index that its address is registered under, at most `n`. -/
def Placed (registry : Registry) (n : ℕ) (row : IndexedToken) : Prop :=
  registry.indexOf row.address = some row.tokenIndex ∧ row.tokenIndex ≤ n

/-- The indices of placed rows are different. -/
theorem nodup_tokenIndex (h : Rows (Placed registry n) tokens) :
    (tokens.records.map IndexedToken.tokenIndex).Nodup := by
  refine List.Nodup.map_on (fun row hrow row' hrow' heq => ?_) (List.Nodup.of_map _ tokens.nodup)
  have hindex := (h row hrow).1
  rw [heq] at hindex
  exact Keyed.eq_of_key_eq hrow hrow' (registry.inj hindex (h row' hrow').1)

/-- **The counting argument**: `n` placed rows are a row for every index. -/
theorem allPresent_of_length (h : Rows (Placed registry n) s.store.tokens)
    (hlength : n ≤ s.store.tokens.length) : AllPresent registry n s := by
  have hnodup := nodup_tokenIndex h
  have hsubset : s.store.tokens.records.map IndexedToken.tokenIndex ⊆ List.range' 1 n := by
    intro i hi
    obtain ⟨row, hrow, rfl⟩ := List.mem_map.mp hi
    have hpos := registry.pos (h row hrow).1
    have hle := (h row hrow).2
    exact List.mem_range'_1.mpr ⟨hpos, by omega⟩
  have hperm : (s.store.tokens.records.map IndexedToken.tokenIndex).Perm (List.range' 1 n) := by
    refine (hnodup.subperm hsubset).perm_of_length_le ?_
    rw [List.length_range', List.length_map]
    exact hlength
  intro i hlo hhi
  have hmem : i ∈ s.store.tokens.records.map IndexedToken.tokenIndex := by
    rw [hperm.mem_iff, List.mem_range'_1]
    omega
  obtain ⟨row, hrow, rfl⟩ := List.mem_map.mp hmem
  exact ⟨row, hrow, rfl, (h row hrow).1⟩

/-! ### The rows of a cycle -/

theorem tokenIndex_of_getTokenByIndex {i : ℕ} {token : IndexedToken}
    (hread : getTokenByIndex rpc i = some token) : token.tokenIndex = i := by
  simp only [getTokenByIndex, Option.bind_eq_bind, Option.bind_eq_some_iff] at hread
  obtain ⟨info, -, address, -, hrow⟩ := hread
  exact Option.some.inj hrow ▸ rfl

/-- A row that the backfill reads is placed. -/
theorem placed_of_getTokenByIndex (hhonest : Honest registry rpc) {i : ℕ} {token : IndexedToken}
    (hread : getTokenByIndex rpc i = some token) (hi : i ≤ n) : Placed registry n token := by
  simp only [getTokenByIndex, Option.bind_eq_bind, Option.bind_eq_some_iff] at hread
  obtain ⟨info, -, address, haddress, hrow⟩ := hread
  obtain rfl := Option.some.inj hrow
  have hanswer : rpc.tokenAddress i = some address := (Option.filter_eq_some_iff.mp haddress).1
  exact ⟨hhonest.tokenAddress hanswer, hi⟩

theorem Placed.mono {row : IndexedToken} (h : Placed registry m row) (hmn : m ≤ n) :
    Placed registry n row :=
  ⟨h.1, Nat.le_trans h.2 hmn⟩

/-- The rows of the events that are delivered are placed, when their look-ups are answered. -/
theorem placed_of_delivered (hhonest : Honest registry rpc) (hresolved : Resolved rpc s)
    (hn : rpc.tokenCount = .ok n) {token : IndexedToken}
    (hmem : .upsert token ∈ pageWrites (delivered rpc s)) : Placed registry n token := by
  obtain ⟨page, hpage, htoken⟩ := mem_pageWrites_upsert.mp hmem
  obtain ⟨i, n', hi, hn', hle⟩ := hresolved page hpage token htoken
  obtain rfl := Except.ok.inj (hn.symm.trans hn')
  have hindex : token.tokenIndex = i := by
    rw [tokenIndex_of_delivered hpage htoken, hi]
    rfl
  exact ⟨hindex ▸ hhonest.tokenIndex hi, hindex ▸ hle⟩

/-- The pages of events leave the rows in their places. -/
theorem placed_of_phase {s₁ s₂ : Ingesting} (hhonest : Honest registry rpc)
    (hresolved : Resolved rpc s) (h : EventPhase rpc n s s₁ s₂)
    (hs : Rows (Placed registry n) s.store.tokens) : Rows (Placed registry n) s₂.store.tokens := by
  rw [h.tokens]
  refine rows_replay (fun _ _ ht => ht) ?_ fun token => placed_of_delivered hhonest hresolved h.tokenCount
  rcases h.backfill with rfl | ⟨_, hbackfill⟩
  · exact hs
  · obtain ⟨rows, rfl, hrows⟩ := writes_of_backfill hbackfill
    refine rows_replay (fun _ _ ht => ht) hs fun token hmem => ?_
    obtain ⟨row, hrow, heq⟩ := List.mem_map.mp hmem
    cases heq
    obtain ⟨i, -, hi, hread⟩ := hrows _ hrow
    exact placed_of_getTokenByIndex hhonest hread hi

/-- A cycle keeps every row placed; when it reports completeness, there is a row for every index. -/
theorem placed_of_cycle {result : IngestResult} (hhonest : Honest registry rpc)
    (hresolved : Resolved rpc s) (h : CycleOutcome rpc s result s') (hm : m ≤ n)
    (hn : ∀ k, rpc.tokenCount = .ok k → m ≤ k ∧ k = n)
    (hs : Rows (Placed registry m) s.store.tokens) :
    Rows (Placed registry n) s'.store.tokens ∧
      (result.backfillComplete = true → AllPresent registry result.tokenCount s') := by
  have hs : Rows (Placed registry n) s.store.tokens := fun row hrow => (hs row hrow).mono hm
  cases h with
  | noCount _ hresult _ htokens =>
    rw [htokens, hresult]
    exact ⟨hs, fun h => by cases h⟩
  -- a stopped cycle keeps what it read and reports nothing complete
  | @stopped k s₁ s₂ hphase _ hresult _ htokens =>
    obtain ⟨-, rfl⟩ := hn k hphase.tokenCount
    rw [htokens, hresult]
    exact ⟨placed_of_phase hhonest hresolved hphase hs, fun h => by cases h⟩
  | @finished k s₁ s₂ hphase rows hrows _ htokens hcount hresult =>
    obtain ⟨-, rfl⟩ := hn k hphase.tokenCount
    -- the reconciliation of a finished one writes rows read under their own number
    have hplaced : Rows (Placed registry k) s'.store.tokens := by
      rw [htokens]
      refine rows_replay (fun _ _ ht => ht) (placed_of_phase hhonest hresolved hphase hs)
        fun token hmem => ?_
      obtain ⟨row, hrow, heq⟩ := List.mem_map.mp hmem
      cases heq
      rw [hrows] at hrow
      split_ifs at hrow
      · obtain ⟨i, hi, hread⟩ := mem_backfillRows hrow
        have hle := (List.mem_range'_1.mp (List.mem_filter.mp (List.mem_of_mem_take hi)).1).2
        exact placed_of_getTokenByIndex hhonest hread (by omega)
      · cases hrow
    refine ⟨hplaced, fun hcomplete => ?_⟩
    -- as many rows as tokens, each at its place: then all are there
    rw [hcount]
    rw [hresult, decide_eq_true_eq] at hcomplete
    exact allPresent_of_length hplaced hcomplete

/-! ### Runs -/

/-- The greatest token count that was read, `0` if none was. -/
structure LastCount (rpcs : List SorobanRpc) (m : ℕ) : Prop where
  le : ∀ rpc ∈ rpcs, ∀ k, rpc.tokenCount = .ok k → k ≤ m
  read : m = 0 ∨ ∃ rpc ∈ rpcs, rpc.tokenCount = .ok m

/-- The token count that the next cycle reads, if it reads one, is not smaller. -/
theorem lastCount_cons (hgrow : CountsGrow (rpc :: rpcs)) (hm : LastCount rpcs m) :
    ∃ n, m ≤ n ∧ LastCount (rpc :: rpcs) n ∧ ∀ k, rpc.tokenCount = .ok k → m ≤ k ∧ k = n := by
  have hlater := (List.pairwise_cons.mp hgrow).1
  -- a count that could not be read leaves the last one
  rcases hcount : rpc.tokenCount with err | k
  · refine ⟨m, Nat.le_refl m, ⟨fun rpc' hmem k hk => ?_, ?_⟩, fun k hk => by cases hk⟩
    · rcases List.mem_cons.mp hmem with rfl | hmem
      · rw [hcount] at hk
        cases hk
      · exact hm.le rpc' hmem k hk
    · rcases hm.read with h | ⟨rpc', hmem, h⟩
      · exact .inl h
      · exact .inr ⟨rpc', List.mem_cons_of_mem _ hmem, h⟩
  · -- a count that was read is at least every earlier one
    have hmk : m ≤ k := by
      rcases hm.read with rfl | ⟨rpc', hmem, h⟩
      · exact Nat.zero_le k
      · exact hlater rpc' hmem k m hcount h
    refine ⟨k, hmk, ⟨fun rpc' hmem k' hk' => ?_, .inr ⟨rpc, List.mem_cons_self .., hcount⟩⟩, ?_⟩
    · rcases List.mem_cons.mp hmem with rfl | hmem
      · exact (Except.ok.inj (hcount.symm.trans hk')).ge
      · exact hlater rpc' hmem k k' hcount hk'
    · intro k' hk'
      obtain rfl := Except.ok.inj hk'
      exact ⟨hmk, rfl⟩

theorem LookupsResolved.tail (h : LookupsResolved (rpc :: rpcs)) : LookupsResolved rpcs := by
  rintro earlier later rpc' s rfl hrun
  exact h earlier (rpc :: later) rpc' s rfl hrun

/-- **The run lemma**: every row is placed. -/
theorem placed_of_run (hhonest : ∀ rpc ∈ rpcs, Honest registry rpc) (hgrow : CountsGrow rpcs)
    (hresolved : LookupsResolved rpcs) (hrun : Run Cycle .start rpcs s) :
    ∃ m, LastCount rpcs m ∧ Rows (Placed registry m) s.store.tokens := by
  induction hrun with
  | nil => exact ⟨0, ⟨by simp, .inl rfl⟩, fun row hrow => by cases hrow⟩
  | @snoc rpcs rpc s s' hrun hcycle ih =>
    obtain ⟨m, hm, hs⟩ := ih (fun rpc hmem => hhonest rpc (List.mem_cons_of_mem _ hmem))
      (List.pairwise_cons.mp hgrow).2 hresolved.tail
    obtain ⟨n, hmn, hn, hcount⟩ := lastCount_cons hgrow hm
    obtain ⟨result, houtcome⟩ := outcome_of_cycle hcycle
    exact ⟨n, hn, (placed_of_cycle (hhonest rpc (List.mem_cons_self ..))
      (hresolved rpcs [] rpc s rfl hrun) houtcome hmn hcount hs).1⟩

/-- **Completeness is sound** in every run of cycles in which the look-ups of the delivered events are
answered, within the token count. -/
theorem completeness_sound (hhonest : ∀ rpc ∈ rpcs, Honest registry rpc) (hgrow : CountsGrow rpcs)
    (hresolved : LookupsResolved rpcs) : CompletenessSound registry rpcs := by
  rintro earlier later rpc s s' result rfl hrun hcycle hcomplete
  have hmem : ∀ rpc' ∈ rpc :: earlier, rpc' ∈ later ++ rpc :: earlier :=
    fun rpc' h => List.mem_append_right _ h
  have hgrow' : CountsGrow (rpc :: earlier) := (List.pairwise_append.mp hgrow).2.1
  have hresolved' : LookupsResolved earlier := by
    rintro earlier' later' rpc' s rfl hrun'
    exact hresolved earlier' (later ++ rpc :: later') rpc' s (by simp) hrun'
  obtain ⟨m, hm, hs⟩ := placed_of_run
    (fun rpc' h => hhonest rpc' (hmem rpc' (List.mem_cons_of_mem _ h)))
    (List.pairwise_cons.mp hgrow').2 hresolved' hrun
  obtain ⟨n, hmn, -, hcount⟩ := lastCount_cons hgrow' hm
  exact (placed_of_cycle (hhonest rpc (hmem rpc (List.mem_cons_self ..)))
    (hresolved earlier later rpc s rfl hrun) (cycle_cases hcycle) hmn hcount hs).2 hcomplete

end

/-! ### A failed look-up -/

/-- The registry of a factory with one token. -/
def sampleRegistry : Registry where
  indexOf a := if a = "CTOKEN" then some 1 else none
  inj {a b i} ha hb := by
    split_ifs at ha hb with h h'
    rw [h, h']
  pos {a i} ha := by
    split_ifs at ha
    obtain rfl := Option.some.inj ha
    exact Nat.le_refl 1

/-- A server of that factory whose views fail; the `created` event of the token is delivered. -/
def sampleFailing : SorobanRpc where
  tokenCount := .ok 1
  tokenInfo _ := none
  tokenAddress _ := none
  tokenIndex _ := none
  getEvents _ _ := .ok ⟨[⟨"created", some ["CTOKEN", "GCREATOR", "Token", "TOK"], 1700000000000,
    "100-1"⟩], some 200⟩
  startLedger := none
  now := 1700000100000

/-- The same server with its views back. -/
def sampleAnswering : SorobanRpc where
  tokenCount := .ok 1
  tokenInfo _ := some ⟨"Token", "TOK", 7, "GCREATOR", 1700000000⟩
  tokenAddress i := if i = 1 then some "CTOKEN" else none
  tokenIndex a := if a = "CTOKEN" then some 1 else none
  getEvents := sampleFailing.getEvents
  startLedger := none
  now := 1700000100000

/-- The cycle inserts the token's row with the index `0` and reports completeness. -/
theorem not_completeness_sound_sampleLookup :
    Honest sampleRegistry sampleFailing ∧ ¬ CompletenessSound sampleRegistry [sampleFailing] := by
  refine ⟨⟨fun h => (by cases h), fun h => (by cases h)⟩, fun hsound => ?_⟩
  obtain ⟨result, s', hcycle, hcomplete, hcount, hrows⟩ : ∃ result s',
      runIngest sampleFailing .start = some (.ok result, s') ∧ result.backfillComplete = true ∧
      result.tokenCount = 1 ∧ s'.store.tokens.records.map IndexedToken.tokenIndex = [0] :=
    ⟨_, _, rfl, rfl, rfl, rfl⟩
  have hpresent := hsound [] [] sampleFailing .start s' result rfl .nil hcycle hcomplete
  obtain ⟨row, hrow, hindex, -⟩ := hpresent 1 (Nat.le_refl 1) (Nat.le_of_eq hcount.symm)
  have hmem : row.tokenIndex ∈ s'.store.tokens.records.map IndexedToken.tokenIndex :=
    List.mem_map.mpr ⟨row, hrow, rfl⟩
  rw [hrows, hindex] at hmem
  cases hmem with
  | tail _ h => cases h

/-- The indexer of the sample has all that the chain had to tell. -/
theorem completeness_sound_sampleAnswering : CompletenessSound sampleRegistry [sampleAnswering] := by
  refine completeness_sound (fun rpc hmem => ?_) (List.pairwise_singleton _ _)
    fun earlier later rpc s heq hrun => ?_
  · -- the one reader of the run is honest about the one token
    obtain rfl := List.mem_singleton.mp hmem
    constructor
    · exact fun h => h
    · intro a i h
      simp only [sampleAnswering] at h
      split_ifs at h with hi
      obtain rfl := Option.some.inj h
      rw [hi]
      rfl
  · rcases List.append_eq_singleton_iff.mp heq.symm with ⟨rfl, hcons⟩ | ⟨-, hcons⟩
    · obtain ⟨rfl, rfl⟩ := List.cons.inj hcons
      cases hrun
      intro page hpage token htoken
      -- the event delivered names that token
      have hdelivered : (delivered sampleAnswering .start).flatMap
          (fun page => (createdTokens page.events).map IndexedToken.address) = ["CTOKEN"] := rfl
      have haddress : token.address ∈ (delivered sampleAnswering .start).flatMap
          (fun page => (createdTokens page.events).map IndexedToken.address) :=
        List.mem_flatMap.mpr ⟨page, hpage, List.mem_map.mpr ⟨token, htoken, rfl⟩⟩
      rw [hdelivered, List.mem_singleton] at haddress
      exact ⟨1, 1, by rw [haddress]; rfl, rfl, Nat.le_refl 1⟩
    · cases hcons

end StellarForge.Indexer
