import StellarForge.Factory.Refinement.Step

/-!
# What a history has created and minted

`created h` lists the tokens that the calls of the history `h` have created, with their parameters,
in order, and `minted h a` sums what they have minted on the token `a`.

`TokenChange` says once what a call can do to the records: nothing, change one record within
`Token.Evolves`, or add new ones.  From it follow, for whole runs, that the records are the created
tokens (`AbstractStep.origins`), that a record only evolves (`AbstractStep.evolves`), and that the
`issued` field of a capped token is its initial supply plus what has been minted
(`AbstractStep.issued`).
-/

namespace StellarForge.Factory

open Collections Transition FactoryModel

/-! ### Histories -/

/-- The tokens that a call has created, with their parameters. -/
def Invocation.created (i : Invocation) : List (Address × BatchTokenParams) :=
  match i.call, i.ret with
  | .createToken _ p _, .address a => [(a, p)]
  | .createTokensBatch _ ps _, .addresses as => as.zip ps
  | _, _ => []

/-- The tokens that the calls of a history have created, oldest first. -/
def created : List Invocation → List (Address × BatchTokenParams)
  | [] => []
  | i :: h => created h ++ i.created

/-- What a call has minted on the token `a`. -/
def Invocation.mintedOn (i : Invocation) (a : Address) : ℤ :=
  match i.call with
  | .mintTokens token _ _ amount _ => if token = a then amount else 0
  | _ => 0

/-- What the calls of a history have minted on the token `a`. -/
def minted (h : List Invocation) (a : Address) : ℤ := (h.map fun i => i.mintedOn a).sum

/-! ### What a call does to the records -/

/-- The address and the parameters of a token, which never change. -/
def Token.origin (t : Token) : Address × BatchTokenParams := (t.address, t.params)

/-- What a change of a record preserves: where the token comes from, and that a counter never
decreases. -/
structure Token.Evolves (t t' : Token) : Prop where
  origin : t'.origin = t.origin
  creator : t'.creator = t.creator
  wasmHash : t'.wasmHash = t.wasmHash
  counter : ∀ s, t.supply = some s → ∃ s', t'.supply = some s' ∧ s.counter ≤ s'.counter

theorem Token.Evolves.refl (t : Token) : t.Evolves t := ⟨rfl, rfl, rfl, fun s hs => ⟨s, hs, le_refl _⟩⟩

theorem Token.Evolves.trans {t₁ t₂ t₃ : Token} (h₁ : t₁.Evolves t₂) (h₂ : t₂.Evolves t₃) :
    t₁.Evolves t₃ where
  origin := h₂.origin.trans h₁.origin
  creator := h₂.creator.trans h₁.creator
  wasmHash := h₂.wasmHash.trans h₁.wasmHash
  counter s hs := by
    obtain ⟨s', hs', hle⟩ := h₁.counter s hs
    obtain ⟨s₃, hs₃, hle'⟩ := h₂.counter s' hs'
    exact ⟨s₃, hs₃, hle.trans hle'⟩

/-- What a call can do to the records. -/
inductive TokenChange (m : FactoryModel) (i : Invocation) (m' : FactoryModel) : Prop
  | keep (tokens : m'.tokens = m.tokens) (created : i.created = [])
    (minted : ∀ a, i.mintedOn a = 0)
  | put {t t' : Token} (find? : m.tokens.find? t'.address = some t)
    (tokens : m'.tokens = m.tokens.replace t') (evolves : t.Evolves t') (created : i.created = [])
    (minted : ∀ a, a ≠ t'.address → i.mintedOn a = 0)
    (issued : ∀ s', t'.supply = some s' →
      ∃ s, t.supply = some s ∧ s'.issued = s.issued + i.mintedOn t'.address)
  | add {new : List Token} (records : m'.tokens.records = m.tokens.records ++ new)
    (created : i.created = new.map Token.origin) (minted : ∀ a, i.mintedOn a = 0)
    (fresh : ∀ t ∈ new, t.supply = t.params.supply t.valid ∧ t.wasmHash = m.tokenWasmHash)

variable {env : Env} {m m' : FactoryModel} {i : Invocation} {t t' : Token} {a : Address}

/-- The records that a batch adds. -/
theorem FactoryModel.createAll_records {creator : Address} {ps : List BatchTokenParams}
    {as : List Address} (h : m.createAll env creator ps as = some m') :
    ∃ new : List Token, m'.tokens.records = m.tokens.records ++ new ∧
      as.zip ps = new.map Token.origin ∧
      ∀ t ∈ new, t.supply = t.params.supply t.valid ∧ t.wasmHash = m.tokenWasmHash := by
  induction ps generalizing m as with
  | nil =>
    rcases as with _ | ⟨a, as⟩
    · obtain rfl := Option.some.inj h
      exact ⟨[], by simp, by simp, by simp⟩
    · simp [createAll] at h
  | cons p ps ih =>
    -- each address returned belongs to one set of parameters
    rcases as with _ | ⟨a, as⟩
    · simp [createAll] at h
    · rw [createAll, Option.bind_eq_some_iff] at h
      obtain ⟨m₁, hm₁, h⟩ := h
      obtain ⟨hp, hfree, rfl⟩ := create_eq_some hm₁
      obtain ⟨new, hrecords, horigins, hnew⟩ := ih h
      refine ⟨Token.new env creator p hp a m.tokenWasmHash :: new, ?_, ?_, ?_⟩
      · rw [hrecords, Keyed.records_push (h := hfree), List.append_assoc, List.singleton_append]
      · rw [List.zip_cons_cons, horigins, List.map_cons]
        rfl
      · exact List.forall_mem_cons.mpr ⟨⟨rfl, rfl⟩, hnew⟩

/-- A mint only issues more. -/
theorem Token.Evolves.of_mint {amount : ℤ} (hpos : 0 < amount) (h : t.mint amount = some t') :
    t.Evolves t' ∧ ∀ s', t'.supply = some s' →
      ∃ s, t.supply = some s ∧ s'.issued = s.issued + amount := by
  rcases Token.mint_eq_some h with ⟨hs, rfl⟩ | ⟨s, s', hcap, hs, hmint, rfl⟩
  · exact ⟨.refl t', fun s' hs' => absurd (hs.symm.trans hs') (by simp)⟩
  · obtain ⟨-, -, hissued, hcounter⟩ := CappedSupply.mint_eq_some hmint
    refine ⟨⟨rfl, rfl, rfl, fun s₀ hs₀ => ?_⟩, fun s₀ hs₀ => ?_⟩
    · obtain rfl := Option.some.inj (hs.symm.trans hs₀)
      exact ⟨s', rfl, by omega⟩
    · obtain rfl := Option.some.inj hs₀
      exact ⟨s, hs, hissued⟩

/-- A back-fill issues nothing. -/
theorem Token.Evolves.of_backfill {verified : ℤ} (h : t.backfill verified = some t') :
    t.Evolves t' ∧ ∀ s', t'.supply = some s' → ∃ s, t.supply = some s ∧ s'.issued = s.issued := by
  obtain ⟨-, s, s', hcap, hs, hbackfill, rfl⟩ := Token.backfill_eq_some h
  obtain ⟨-, -, hissued, hcounter⟩ := CappedSupply.backfill_eq_some hbackfill
  refine ⟨⟨rfl, rfl, rfl, fun s₀ hs₀ => ?_⟩, fun s₀ hs₀ => ?_⟩
  · obtain rfl := Option.some.inj (hs.symm.trans hs₀)
    exact ⟨s', rfl, by rw [hcounter]; exact le_max_left ..⟩
  · obtain rfl := Option.some.inj hs₀
    exact ⟨s, hs, hissued⟩

/-- A change that leaves the accounting alone. -/
theorem TokenChange.of_same_supply {address : Address} (hm : m' = m.putToken t')
    (ht : m.tokens.find? address = some t) (ho : t'.origin = t.origin)
    (hc : t'.creator = t.creator) (hw : t'.wasmHash = t.wasmHash) (hs : t'.supply = t.supply)
    (hcreated : i.created = []) (hminted : ∀ a, i.mintedOn a = 0) : TokenChange m i m' := by
  obtain rfl := Keyed.key_of_find? ht
  have ha : t'.address = t.address := congrArg Prod.fst ho
  have htokens : m'.tokens = m.tokens.replace t' := by rw [hm]; rfl
  exact .put (ha ▸ ht) htokens ⟨ho, hc, hw, fun s h => ⟨s, hs.trans h, le_refl _⟩⟩ hcreated
    (fun a _ => hminted a) fun s' h => ⟨s', hs.symm.trans h, by rw [hminted, Int.add_zero]⟩

/-- **What every call does to the records.** -/
theorem AbstractStep.tokenChange (h : AbstractStep m i m') : TokenChange m i m' := by
  obtain ⟨env, call, ret⟩ := i
  unfold AbstractStep at h
  cases h with
  | createToken hc hm =>
    obtain ⟨hp, hfree, rfl⟩ := create_eq_some hm
    exact .add (Keyed.records_push (h := hfree)) rfl (fun _ => rfl) (by simp [Token.new])
  | createTokensBatch hc hm =>
    obtain ⟨new, hrecords, horigins, hnew⟩ := createAll_records hm
    exact .add hrecords horigins (fun _ => rfl) hnew
  | setMetadata hp hc hf ht =>
    obtain ⟨-, _, rfl⟩ := Token.setUri_eq_some ht
    exact .of_same_supply rfl hc.find? rfl rfl rfl rfl rfl fun _ => rfl
  | freezeMetadata hp hc => exact .of_same_supply rfl hc.find? rfl rfl rfl rfl rfl fun _ => rfl
  | setBurnEnabled hc => exact .of_same_supply rfl hc.find? rfl rfl rfl rfl rfl fun _ => rfl
  -- minting is the one call that moves the supply of a token that exists
  | @mintTokens address _ _ t t' amount _ hp hc hf hpos ht =>
    obtain ⟨he, hissued⟩ := Token.Evolves.of_mint hpos ht
    have hkey : t.address = address := Keyed.key_of_find? hc.find?
    have ha : t'.address = address := (congrArg Prod.fst he.origin).trans hkey
    refine .put (by rw [ha]; exact hc.find?) rfl he rfl (fun a hne => ?_) fun s' hs' => ?_
    · exact if_neg (ha ▸ Ne.symm hne)
    · obtain ⟨s, hs, heq⟩ := hissued s' hs'
      exact ⟨s, hs, heq.trans (by simp only [Invocation.mintedOn, if_pos ha.symm])⟩
  | backfillCappedSupply ha ht hb =>
    obtain ⟨he, hissued⟩ := Token.Evolves.of_backfill hb
    obtain rfl := Keyed.key_of_find? ht
    have hkey : Token.address _ = _ := congrArg Prod.fst he.origin
    refine .put (by rw [hkey]; exact ht) rfl he rfl (fun _ _ => rfl) fun s' hs' => ?_
    obtain ⟨s, hs, heq⟩ := hissued s' hs'
    exact ⟨s, hs, heq.trans (Int.add_zero _).symm⟩
  -- the remaining calls leave the tokens as they are
  | _ => exact .keep rfl rfl fun _ => rfl

/-! ### What follows for one call -/

/-- The records are the tokens created. -/
theorem AbstractStep.origins (h : AbstractStep m i m') :
    m'.tokens.records.map Token.origin = m.tokens.records.map Token.origin ++ i.created := by
  rcases h.tokenChange with ⟨htokens, hcreated, -⟩ | ⟨ht, htokens, he, hcreated, -, -⟩ |
    ⟨hrecords, hcreated, -, -⟩
  · rw [htokens, hcreated, List.append_nil]
  · rw [htokens, hcreated, List.append_nil]
    simp only [Keyed.replace, List.map_map]
    refine List.map_congr_left fun x hx => ?_
    simp only [Function.comp_apply]
    split_ifs with hk
    · rw [he.origin, Keyed.eq_of_key_eq hx (Keyed.find?_eq_some.mp ht).1
        (hk.trans (Keyed.key_of_find? ht).symm)]
    · rfl
  · rw [hrecords, hcreated, List.map_append]

/-- A record evolves. -/
theorem AbstractStep.evolves (h : AbstractStep m i m') (ht : m.tokens.find? a = some t) :
    ∃ t', m'.tokens.find? a = some t' ∧ t.Evolves t' := by
  rcases h.tokenChange with ⟨htokens, -, -⟩ | @⟨x, x', hx, htokens, he, -, -, -⟩ |
    ⟨hrecords, -, -, -⟩
  · exact ⟨t, by rw [htokens, ht], .refl t⟩
  · rw [htokens]
    by_cases ha : a = x'.address
    · rw [ha] at ht ⊢
      obtain rfl := Option.some.inj (hx.symm.trans ht)
      exact ⟨x', Keyed.find?_replace_self hx, he⟩
    · exact ⟨t, (Keyed.find?_replace_of_ne ha).trans ht, .refl t⟩
  · refine ⟨t, Keyed.find?_eq_some.mpr ?_, .refl t⟩
    obtain ⟨hmem, hkey⟩ := Keyed.find?_eq_some.mp ht
    exact ⟨hrecords ▸ List.mem_append_left _ hmem, hkey⟩

/-- A capped record after a call is an old one, on which the call may have minted, or a new one. -/
theorem AbstractStep.issued (h : AbstractStep m i m') {s' : CappedSupply}
    (ht' : m'.tokens.find? a = some t') (hs' : t'.supply = some s') :
    (∃ t s, m.tokens.find? a = some t ∧ t'.params = t.params ∧ t.supply = some s ∧
      s'.issued = s.issued + i.mintedOn a) ∨
    m.tokens.find? a = none ∧ s'.issued = t'.params.initialSupply ∧ i.mintedOn a = 0 := by
  rcases h.tokenChange with ⟨htokens, -, hm⟩ | @⟨x, x', hx, htokens, he, -, hm, hissued⟩ |
    ⟨hrecords, -, hm, hnew⟩
  · rw [htokens] at ht'
    exact .inl ⟨t', s', ht', rfl, hs', by rw [hm, Int.add_zero]⟩
  · left
    rw [htokens] at ht'
    by_cases ha : a = x'.address
    · subst ha
      obtain rfl := Option.some.inj ((Keyed.find?_replace_self hx).symm.trans ht')
      obtain ⟨s, hs, heq⟩ := hissued s' hs'
      exact ⟨x, s, hx, congrArg Prod.snd he.origin, hs, heq⟩
    · rw [Keyed.find?_replace_of_ne ha] at ht'
      exact ⟨t', s', ht', rfl, hs', by rw [hm a ha, Int.add_zero]⟩
  · obtain ⟨hmem, hkey⟩ := Keyed.find?_eq_some.mp ht'
    rw [hrecords, List.mem_append] at hmem
    rcases hmem with hold | hmem
    · exact .inl ⟨t', s', Keyed.find?_eq_some.mpr ⟨hold, hkey⟩, rfl, hs', by rw [hm, Int.add_zero]⟩
    · right
      refine ⟨Keyed.find?_eq_none.mpr fun x hx hk => ?_, ?_, hm a⟩
      · -- an address that is new is not old
        have hnodup := m'.tokens.nodup
        rw [hrecords, List.map_append, List.nodup_append] at hnodup
        exact hnodup.2.2 _ (List.mem_map_of_mem hx) _ (List.mem_map_of_mem hmem)
          (hk.trans hkey.symm)
      · obtain ⟨cap, _, -, rfl⟩ := Option.pmap_eq_some_iff.mp ((hnew t' hmem).1.symm.trans hs')
        rfl

/-- Only a registered token can be minted on. -/
theorem AbstractStep.mintedOn_eq_zero (h : AbstractStep m i m') (ha : m.tokens.find? a = none) :
    i.mintedOn a = 0 := by
  rcases h.tokenChange with ⟨-, -, hm⟩ | @⟨x, x', hx, -, -, -, hm, -⟩ | ⟨-, -, hm, -⟩
  · exact hm a
  · refine hm a ?_
    rintro rfl
    simp [hx] at ha
  · exact hm a

/-! ### What follows for runs -/

variable {m₀ : FactoryModel} {h : List Invocation}

theorem minted_cons : minted (i :: h) a = i.mintedOn a + minted h a := by
  rw [minted, List.map_cons, List.sum_cons, minted]

/-- **The records of a run are the tokens it has created.** -/
theorem origins_of_run (hr : Run AbstractStep m₀ h m) :
    m.tokens.records.map Token.origin = m₀.tokens.records.map Token.origin ++ created h := by
  induction hr with
  | nil => rw [created, List.append_nil]
  | snoc _ hs ih => rw [hs.origins, ih, created, List.append_assoc]

/-- **Along a run a record only evolves.** -/
theorem evolves_of_run (hr : Run AbstractStep m₀ h m) (ht : m₀.tokens.find? a = some t) :
    ∃ t', m.tokens.find? a = some t' ∧ t.Evolves t' := by
  induction hr with
  | nil => exact ⟨t, ht, .refl t⟩
  | snoc _ hs ih =>
    obtain ⟨t₁, ht₁, he₁⟩ := ih
    obtain ⟨t₂, ht₂, he₂⟩ := hs.evolves ht₁
    exact ⟨t₂, ht₂, he₁.trans he₂⟩

/-- Nothing has been minted on an address that is not registered. -/
theorem minted_eq_zero (hr : Run AbstractStep m₀ h m)
    (ha : m.tokens.find? a = none) : minted h a = 0 := by
  induction hr with
  | nil => rfl
  | @snoc h i m m' _ hs ih =>
    have ha' : m.tokens.find? a = none := by
      rw [Option.eq_none_iff_forall_ne_some]
      intro t ht
      obtain ⟨t', ht', -⟩ := hs.evolves ht
      simp [ha] at ht'
    rw [minted_cons, hs.mintedOn_eq_zero ha', ih ha', Int.add_zero]

/-- **What a run has issued on a capped token is its initial supply and what it has minted.** -/
theorem issued_of_run (h₀ : m₀.tokens = .empty) (hr : Run AbstractStep m₀ h m) {s : CappedSupply}
    (ht : m.tokens.find? a = some t) (hs : t.supply = some s) :
    s.issued = t.params.initialSupply + minted h a := by
  induction hr generalizing t s with
  | nil =>
    rw [h₀, Keyed.find?_empty] at ht
    simp at ht
  | @snoc h i m m' hr hstep ih =>
    rw [minted_cons]
    rcases hstep.issued ht hs with ⟨t₁, s₁, ht₁, hp, hs₁, heq⟩ | ⟨hnone, heq, hzero⟩
    · rw [heq, ih ht₁ hs₁, hp]
      omega
    · rw [heq, minted_eq_zero hr hnone, hzero]
      omega

/-- The record of a token that a run has created. -/
theorem find?_of_mem_created {args : ConstructorArgs} {p : BatchTokenParams}
    (hr : Run AbstractStep args.initialModel h m) (hc : (a, p) ∈ created h) :
    ∃ t, m.tokens.find? a = some t ∧ t.params = p := by
  have horigins := origins_of_run hr
  have hempty : args.initialModel.tokens.records = [] := rfl
  rw [hempty, List.map_nil, List.nil_append] at horigins
  rw [← horigins, List.mem_map] at hc
  obtain ⟨t, ht, horigin⟩ := hc
  exact ⟨t, Keyed.find?_eq_some.mpr ⟨ht, congrArg Prod.fst horigin⟩, congrArg Prod.snd horigin⟩

/-! ### A sample run -/

namespace SampleRun

/-- What the factory of the sample run is built with. -/
def constructorArgs : ConstructorArgs := ⟨⟨1⟩, ⟨2⟩, ⟨3⟩, 7, 100, 10⟩

/-- The token of the sample run, with a cap. -/
def params : BatchTokenParams := ⟨50, [65], [66], 7, 600, some 1000⟩

/-- The token `50` is created by `5` and then minted up to its cap. -/
def history : List Invocation :=
  [⟨permissiveEnv 20 ⟨5⟩, .mintTokens ⟨50⟩ ⟨5⟩ ⟨6⟩ 400 100, .unit⟩,
    ⟨permissiveEnv 10 ⟨5⟩, .createToken ⟨5⟩ params 100, .address ⟨50⟩⟩]

/-- The factory has been constructed. -/
def world₀ : World :=
  (factoryConstructor constructorArgs).commit (permissiveEnv 1 ⟨1⟩) World.genesis

/-- The token has been created. -/
def world₁ : World := (Call.createToken ⟨5⟩ params 100).exec.commit (permissiveEnv 10 ⟨5⟩) world₀

/-- Some more of it has been minted. -/
def world₂ : World :=
  (Call.mintTokens ⟨50⟩ ⟨5⟩ ⟨6⟩ 400 100).exec.commit (permissiveEnv 20 ⟨5⟩) world₁

theorem reaches₀ : Reaches constructorArgs [] world₀ := reaches_constructor rfl

theorem step₁ : Step world₀
    ⟨permissiveEnv 10 ⟨5⟩, .createToken ⟨5⟩ params 100, .address ⟨50⟩⟩ world₁ :=
  step_commit inferInstance rfl

theorem step₂ : Step world₁
    ⟨permissiveEnv 20 ⟨5⟩, .mintTokens ⟨50⟩ ⟨5⟩ ⟨6⟩ 400 100, .unit⟩ world₂ :=
  step_commit inferInstance rfl

theorem reaches : Reaches constructorArgs history world₂ := (reaches₀.step step₁).step step₂

end SampleRun

end StellarForge.Factory
