import StellarForge.Factory.Properties.Creation
import StellarForge.Factory.Properties.Growth
import StellarForge.Factory.Properties.StateFrame

/-!
# What the views answer

`FactoryModel.answer` says what a view is for, on the abstract factory; the storage tiers, the pages of the
creators' lists, the counters and the saturating arithmetic of the code are not to be seen in it.

* `Represents.length_le_of_run`: the token count of a reachable state is a `u32`;
* `Represents.exec_view`: while it is, each view gives its answer;
* `views_exact`: **in every reachable state every view gives that answer, be it a value or an error, and
  changes nothing.**
-/

namespace StellarForge.Factory

open Soroban Contract Transition Collections

/-- A record that must be there. -/
def found {α : Type} (f : α → Ret) (o : Option α) : Except Error Ret :=
  o.elim (.error .tokenNotFound) fun a => .ok (f a)

/-- What a view answers. -/
def FactoryModel.answer (m : FactoryModel) : View → Except Error Ret
  | .isWhitelisted address => .ok (.bool (m.whitelist address))
  | .isMetadataFrozen token => .ok (.bool ((m.tokens.find? token).any Token.frozen))
  | .getMetadataVersion token => .ok (.u32 ((m.tokens.find? token).elim 0 fun t => t.uris.length))
  | .getFeeSplit => .ok (.split (m.split.elim FeeSplit.empty Subtype.val))
  | .getState => .ok (.state m.state)
  | .getBaseFee => .ok (.i128 m.baseFee)
  | .getMetadataFee => .ok (.i128 m.metadataFee)
  | .getTokenInfo index => found (fun t => .info t.info) (m.tokens.at? index)
  | .getTokenIndex token => found .u32 (m.tokens.index? token)
  | .getTokenAddress index => found (fun t => .address t.address) (m.tokens.at? index)
  | .getTokenInfoByAddress token => found (fun t => .info t.info) (m.tokens.find? token)
  | .getMetadata token => .ok (.uri ((m.tokens.find? token).bind fun t => t.uris.head?))
  | .getTokensByCreator creator offset limit =>
    .ok (.indices (((m.creatorTokens creator).drop offset).take
      (min limit MAX_TOKENS_BY_CREATOR_PAGE)))

variable {env : Env} {w w' : World} {m m' : FactoryModel} {i : Invocation} {h : List Invocation}
  {args : ConstructorArgs} {st : FactoryState} {k : DataKey}

/-! ### The token count -/

theorem tokenCount_recordToken {creator : Address} {p : BatchTokenParams} {r : Address × FactoryState}
    (h : (recordToken creator p st).Returns env w r w') :
    r.2.tokenCount ≤ U32.MAX := by
  simp only [recordToken, returns_bind, returns_okOr, returns_pure, U32.checkedAdd_eq_some] at h
  obtain ⟨_, _, -, _, _, -, _, _, -, _, _, -, index, _, ⟨⟨-, hmax⟩, -⟩, _, _, -, _, _, -, _, _, -,
    rfl, -⟩ := h
  exact hmax

/-- The count of a batch has been checked. -/
theorem tokenCount_recordTokens {creator : Address} {ps : List BatchTokenParams} {as : List Address}
    {r : List Address × FactoryState} (h : (recordTokens creator ps as st).Returns env w r w')
    (hst : st.tokenCount ≤ U32.MAX) : r.2.tokenCount ≤ U32.MAX := by
  induction ps generalizing as st w with
  | nil =>
    simp only [recordTokens, returns_pure] at h
    obtain ⟨rfl, -⟩ := h
    exact hst
  | cons p ps ih =>
    simp only [recordTokens, returns_bind] at h
    obtain ⟨_, _, hrec, h⟩ := h
    exact ih h (tokenCount_recordToken hrec)

/-- A call that returns leaves a count that is a `u32`. -/
theorem Represents.length_le_of_step (hw : Represents w m) (hnext : AbstractStep m i m')
    (hs : Step w i w') (hw' : Represents w' m') (hle : m.tokens.length ≤ U32.MAX) :
    m'.tokens.length ≤ U32.MAX := by
  have hst : w.state? = some m.state := Holds.state? hw
  have hst' : w'.state? = some m'.state := Holds.state? hw'
  obtain ⟨env, call, ret⟩ := i
  obtain ⟨hre, hexec⟩ := hs
  have hre : env.NoReentry := hre
  have hexec : call.exec.Returns env w ret w' := hexec
  -- three calls do not only edit the settings
  cases call
  case createToken creator p feePayment =>
    obtain ⟨a, ha, -⟩ := returns_wrap.mp hexec
    obtain ⟨st, s, w₁, w₂, -, -, -, -, hrecord, rfl⟩ := returns_createToken ha
    rw [World.state?_saveState] at hst'
    have hcount : s.tokenCount = m'.tokens.length :=
      congrArg FactoryState.tokenCount (Option.some.inj hst')
    rw [← hcount]
    exact tokenCount_recordToken hrecord
  case createTokensBatch creator ps feePayment =>
    obtain ⟨as, has, -⟩ := returns_wrap.mp hexec
    obtain ⟨st, s, w₁, w₂, fee, hst₀, -, -, -, -, -, -, -, hrecords, -, rfl⟩ :=
      returns_createTokensBatch has
    rw [World.state?_saveState] at hst'
    have hcount : s.tokenCount = m'.tokens.length :=
      congrArg FactoryState.tokenCount (Option.some.inj hst')
    -- both creations check their count against the bound before it is written
    have hold : st.tokenCount = m.tokens.length :=
      congrArg FactoryState.tokenCount (Option.some.inj (hst₀.symm.trans hst))
    rw [← hcount]
    exact tokenCount_recordTokens hrecords (hold ▸ hle)
  case migrate admin =>
    cases hnext with
    | migrate _ => exact hle
  all_goals
    have hedits := editsOnly_of_returns (by simp) hexec
    have hcount := tokenCount_of_editsOnly (by simp [Call.settings]) hedits hst hst'
    have hlength : m'.tokens.length = m.tokens.length := hcount
    omega

/-- **The count of a reachable state is a `u32`.** -/
theorem Represents.length_le_of_run {w₀ : World} {m₀ : FactoryModel} (hw : Represents w₀ m₀)
    (hle : m₀.tokens.length ≤ U32.MAX) (hr : Run Step w₀ h w) :
    ∃ m, Run AbstractStep m₀ h m ∧ Represents w m ∧ m.tokens.length ≤ U32.MAX := by
  induction hr with
  | nil => exact ⟨m₀, .nil, hw, hle⟩
  | snoc _ hs ih =>
    obtain ⟨m, hm, hw, hle⟩ := ih
    obtain ⟨m', hnext, hw'⟩ := hw.step hs
    exact ⟨m', .snoc hm hnext, hw', hw.length_le_of_step hnext hs hw' hle⟩

theorem Reaches.represents_countable (hr : Reaches args h w) :
    ∃ m, Run AbstractStep args.initialModel h m ∧ Represents w m ∧ m.tokens.length ≤ U32.MAX := by
  obtain ⟨_, _, hc, hrun⟩ := hr
  exact hc.represents.length_le_of_run (Nat.zero_le _) hrun

/-! ### The views -/

theorem wrap_eq {α : Type} {f : α → Ret} {x : ContractM α} {a : α} (hx : x.Returns env w a w) :
    (wrap f x) env w = some (.ok (f a), w) :=
  returns_wrap.mpr ⟨a, hx, rfl⟩

theorem wrap_okOr {α : Type} {f : α → Ret} {o : Option α} :
    (wrap f (okOr o .tokenNotFound)) env w = some (found f o, w) := by
  cases o <;> rfl

/-- A read hands on the entry, whichever tier holds it. -/
theorem Holds.wrap_readAddrKeyed {α : Type} {f : α → Ret} {g : Option k.Val → ContractM α}
    (hw : Holds w m st) (hk : k.NoInst = true) :
    (wrap f (readAddrKeyed k >>= g)) env w = (wrap f (g (m.persistent k))) env w := by
  have hread : (readAddrKeyed k).Returns env w (m.persistent k) w :=
    returns_readAddrKeyed.mpr ⟨hw.lookup hk, rfl⟩
  have hbind : (readAddrKeyed k >>= g) env w = g (m.persistent k) env w := hread.bind_eq
  simp only [wrap, Bind.bind, Contract.bind] at hbind ⊢
  rw [hbind]

theorem Represents.returns_loadState (hw : Represents w m) : loadState.Returns env w m.state w :=
  Factory.returns_loadState.mpr ⟨Holds.state? hw, rfl⟩

theorem found_map {α β : Type} {f : β → Ret} {g : α → β} {o : Option α} :
    found f (o.map g) = found (fun a => f (g a)) o := by
  cases o <;> rfl

/-- A read that returns the entry, or a default where there is none. -/
theorem Holds.wrap_read {α : Type} {f : α → Ret} {g : Option k.Val → α} (hw : Holds w m st)
    (hk : k.NoInst = true) :
    (wrap f (readAddrKeyed k >>= fun o => pure (g o))) env w = some (.ok (f (g (m.persistent k))), w) := by
  rw [hw.wrap_readAddrKeyed hk]
  rfl

/-- A field of the stored state. -/
theorem Represents.wrap_loadState {α : Type} {f : α → Ret} {g : FactoryState → α}
    (hw : Represents w m) :
    (wrap f (loadState >>= fun st => pure (g st))) env w = some (.ok (f (g m.state)), w) :=
  wrap_eq (returns_bind.mpr ⟨_, w, hw.returns_loadState, returns_pure.mpr ⟨rfl, rfl⟩⟩)

/-- The two reads of `get_token_info_by_address` end in the record that the address has. -/
theorem Holds.exec_getTokenInfoByAddress (hw : Holds w m st) (token : Address) :
    (wrap .info (Factory.getTokenInfoByAddress token)) env w =
      some (found (fun t => .info t.info) (m.tokens.find? token), w) := by
  rw [Factory.getTokenInfoByAddress, hw.wrap_readAddrKeyed rfl]
  -- number and token are present together
  have hsome : (m.tokens.index? token).isSome = (m.tokens.find? token).isSome := Keyed.isSome_index?
  show (wrap .info (okOr (m.tokens.index? token) .tokenNotFound >>= fun index => _)) env w = _
  rcases hi : m.tokens.index? token with _ | index
  · have hfind : m.tokens.find? token = none := by
      rw [hi] at hsome
      simpa using hsome
    rw [hfind]
    rfl
  · obtain ⟨t, ht⟩ : ∃ t, m.tokens.find? token = some t := by
      rw [hi] at hsome
      exact Option.isSome_iff_exists.mp hsome.symm
    show (wrap .info (readAddrKeyed (.tokenInfo index) >>= fun info => okOr info .tokenNotFound)) env w = _
    rw [hw.wrap_readAddrKeyed rfl, wrap_okOr]
    show some (found .info ((m.tokens.at? index).map Token.info), w) = _
    rw [Keyed.at?_of_index? hi ht, ht]
    rfl

/-- The slice of a creator's list, whatever the offset. -/
theorem Holds.exec_getTokensByCreator (hw : Holds w m st) (hle : m.tokens.length ≤ U32.MAX)
    (creator : Address) (offset limit : ℕ) :
    (wrap .indices (Factory.getTokensByCreator creator offset limit)) env w =
      some (.ok (.indices (((m.creatorTokens creator).drop offset).take
        (min limit MAX_TOKENS_BY_CREATOR_PAGE))), w) := by
  have hlisting := hw.listing creator
  have hfits : (m.creatorTokens creator).length ≤ U32.MAX :=
    (m.length_creatorTokens_le creator).trans hle
  apply wrap_eq
  apply returns_getTokensByCreator_of_pages env _ hlisting.pages (Or.inl hfits)
  rw [hw.lookup rfl, ← hw.persistent, hlisting.count]
  split_ifs with hnil
  · rw [hnil]
    rfl
  · rfl

/-- **While the count is a `u32`, every view gives the abstract answer** and leaves the world as it is. -/
theorem Represents.exec_view (hw : Represents w m) (hle : m.tokens.length ≤ U32.MAX) (v : View) :
    v.exec env w = some (m.answer v, w) := by
  have hh : Holds w m m.state := hw
  -- the maps of single entries first, then what is read from the state, then by key
  cases v with
  | isWhitelisted address =>
    refine (hh.wrap_read rfl).trans ?_
    cases hlisted : m.whitelist address <;> simp [FactoryModel.persistent, FactoryModel.answer, hlisted]
  | isMetadataFrozen token =>
    refine (hh.wrap_read rfl).trans ?_
    rcases ht : m.tokens.find? token with _ | t
    · simp [FactoryModel.persistent, FactoryModel.answer, ht]
    · cases hfrozen : t.frozen <;> simp [FactoryModel.persistent, FactoryModel.answer, ht, hfrozen]
  | getMetadataVersion token =>
    refine (hh.wrap_read rfl).trans ?_
    rcases ht : m.tokens.find? token with _ | t
    · simp [FactoryModel.persistent, FactoryModel.answer, ht]
    · rcases huris : t.uris with _ | _ <;>
        simp [FactoryModel.persistent, FactoryModel.answer, ht, huris]
  | getFeeSplit =>
    have hsplit : w.storage.inst .split = m.split.map Subtype.val := hh.inst .split
    refine wrap_eq (a := (m.split.map Subtype.val).getD FeeSplit.empty) ?_ |>.trans ?_
    · exact returns_bind.mpr ⟨_, w, returns_getInst.mpr ⟨hsplit, rfl⟩, returns_pure.mpr ⟨rfl, rfl⟩⟩
    · cases hs : m.split <;> simp [FactoryModel.answer, hs]
  | getState => exact wrap_eq hw.returns_loadState
  | getBaseFee => exact hw.wrap_loadState
  | getMetadataFee => exact hw.wrap_loadState
  | getTokenInfo index =>
    refine ((hh.wrap_readAddrKeyed rfl).trans wrap_okOr).trans ?_
    exact congrArg (fun r => some (r, w)) found_map
  | getTokenIndex token => exact (hh.wrap_readAddrKeyed rfl).trans wrap_okOr
  | getTokenAddress index =>
    refine ((hh.wrap_readAddrKeyed rfl).trans wrap_okOr).trans ?_
    exact congrArg (fun r => some (r, w)) found_map
  | getTokenInfoByAddress token => exact hh.exec_getTokenInfoByAddress token
  | getMetadata token => exact wrap_eq (returns_readAddrKeyed.mpr ⟨hh.lookup rfl, rfl⟩)
  | getTokensByCreator creator offset limit => exact hh.exec_getTokensByCreator hle creator offset limit

/-- **In every reachable state every view gives the answer of the abstract factory that the calls so far
lead to**, be it a value or an error, and changes nothing. -/
theorem views_exact (hr : Reaches args h w) :
    ∃ m, Run AbstractStep args.initialModel h m ∧ Represents w m ∧
      ∀ (env : Env) (v : View), v.exec env w = some (m.answer v, w) := by
  obtain ⟨m, hm, hw, hle⟩ := hr.represents_countable
  exact ⟨m, hm, hw, fun env v => hw.exec_view hle v⟩

/-- The views after the sample run. -/
theorem views_exact_sampleRun :
    ∃ m, Run AbstractStep SampleRun.constructorArgs.initialModel SampleRun.history m ∧
      Represents SampleRun.world₂ m ∧
      ∀ (env : Env) (v : View), v.exec env SampleRun.world₂ = some (m.answer v, SampleRun.world₂) :=
  views_exact SampleRun.reaches

end StellarForge.Factory
