import StellarForge.Collections.Windows
import StellarForge.Factory.Properties.Enumeration
import StellarForge.Factory.Properties.Growth

/-!
# Tokens of the factory, as the frontend reads them

`getTokenInfo` and `getTokensByCreator` of the frontend's service simulate views of the contract at a
node.  A read that fails is left out of the page that it belongs to.
-/

namespace StellarForge.Frontend.Tokens

open Soroban Contract Factory Transition Collections

/-! ### Nodes -/

/-- What the simulation of a view returns, `none` where the call fails. -/
abbrev Node := View → Option Ret

/-- A node that simulates in the world `w`. -/
def simulate (env : Env) (w : World) : Node := fun view =>
  match view.exec env w with
  | some (.ok ret, _) => some ret
  | _ => none

/-- The same node, where some reads of `get_token_info` fail. -/
def Node.failing (node : Node) (fails : ℕ → Bool) : Node
  | .getTokenInfo index => if fails index then none else node (.getTokenInfo index)
  | view => node view

/-! ### The service -/

/-- What `scValToNative` makes of the fields of a record. -/
structure ViewSdk where
  text : Bytes → String
  address : Address → String
  /-- `Number` of a 64-bit integer. -/
  number : ℕ → ℕ

/-- A token, as the page shows it. -/
structure TokenInfo where
  name : String
  symbol : String
  decimals : ℕ
  creator : String
  createdAt : ℕ
  totalSupply : Option String := none
  metadataUri : Option String := none
  index : Option ℕ := none
  deriving DecidableEq, Repr

/-- The identity as `scValToNative` decodes it; the record has no `total_supply`. -/
def identityOf (sdk : ViewSdk) (native : Factory.TokenInfo) : TokenInfo where
  name := sdk.text native.name
  symbol := sdk.text native.symbol
  decimals := native.decimals
  creator := sdk.address native.creator
  createdAt := sdk.number native.createdAt

/-- `getTokenInfo` -/
def getTokenInfo (sdk : ViewSdk) (node : Node) (index : ℕ) : Option TokenInfo :=
  match node (.getTokenInfo index) with
  | some (.info native) => some (identityOf sdk native)
  | _ => none

/-- `getTokensByCreator`: the tokens whose records can be read, `none` where the list cannot. -/
def getTokensByCreator (sdk : ViewSdk) (node : Node) (creator : Address) (offset limit : ℕ) :
    Option (List TokenInfo) :=
  match node (.getTokensByCreator creator offset limit) with
  | some (.indices indices) =>
    if indices = [] then some [] else some (indices.filterMap (getTokenInfo sdk node))
  -- the reply is not an array
  | some _ => some []
  | none => none

/-- A page of tokens, and how many there are. -/
structure TokenPage where
  tokens : List TokenInfo
  total : ℕ

/-- The reason of the first read that fails. -/
def firstRejection (read : ℕ → Except String TokenInfo) (indices : List ℕ) : String :=
  (indices.findSome? fun i => match read i with
    | .error reason => some reason
    | .ok _ => none).getD "Failed to fetch any tokens for the requested page"

/-- `getAllTokens`; `read` is what becomes of each `getTokenInfo`. -/
def getAllTokens (getFactoryState : Except String ℕ) (read : ℕ → Except String TokenInfo)
    (offset limit : ℕ) (tokenCountSnapshot : Option ℕ) : Except String TokenPage :=
  match tokenCountSnapshot.elim getFactoryState .ok with
  | .error reason => .error reason
  | .ok total =>
    if total = 0 ∨ limit = 0 then .ok ⟨[], total⟩
    else if total - offset < 1 then .ok ⟨[], total⟩
    else
      let indices := window total offset limit
      let tokens := indices.filterMap fun i =>
        (read i).toOption.map fun info => { info with index := some i }
      if tokens = [] then .error (firstRejection read indices) else .ok ⟨tokens, total⟩

/-- The numbers of the tokens of a page. -/
def TokenPage.numbers (page : TokenPage) : List ℕ := page.tokens.filterMap TokenInfo.index

/-! ### Pages of all tokens -/

/-- A page has the total that it was made for, and those tokens of its window that can be read. -/
theorem getAllTokens_eq_ok {getFactoryState : Except String ℕ} {read : ℕ → Except String TokenInfo}
    {offset limit : ℕ} {tokenCountSnapshot : Option ℕ} {page : TokenPage}
    (h : getAllTokens getFactoryState read offset limit tokenCountSnapshot = .ok page) :
    tokenCountSnapshot.elim getFactoryState .ok = .ok page.total ∧
      page.numbers = (window page.total offset limit).filter fun i => (read i).isOk := by
  unfold getAllTokens at h
  split at h
  · cases h
  · next total htotal =>
    -- three ways to answer: no tokens, past the end, or the window that was read
    split_ifs at h with hzero hpast
    · obtain rfl := Except.ok.inj h
      refine ⟨htotal, ?_⟩
      have hnil : window total offset limit = [] := by
        rw [List.eq_nil_iff_forall_not_mem]
        intro i hi
        rw [mem_window] at hi
        omega
      rw [hnil]
      rfl
    · obtain rfl := Except.ok.inj h
      refine ⟨htotal, ?_⟩
      have hle : total ≤ offset := by omega
      rw [window_eq_nil hle]
      rfl
    · dsimp only at h
      split_ifs at h
      obtain rfl := Except.ok.inj h
      refine ⟨htotal, ?_⟩
      rw [TokenPage.numbers, List.filterMap_filterMap, ← List.filterMap_eq_filter]
      apply List.filterMap_congr
      -- a read that fails is left out of the page
      intro i _
      rw [Option.guard]
      cases read i with
      | error reason => rfl
      | ok info => rfl

/-! ### Reading a factory -/

variable {env : Env} {w : World} {m : FactoryModel} {view : View} {ret : Ret} {sdk : ViewSdk}
  {fails : ℕ → Bool} {creator : Address} {i offset limit : ℕ}

theorem simulate_of_returns (h : view.exec.Returns env w ret w) :
    simulate env w view = some ret := by
  have hexec : view.exec env w = some (.ok ret, w) := h
  rw [simulate, hexec]

theorem simulate_getTokensByCreator (hw : Represents w m)
    (hfits : offset + min limit MAX_TOKENS_BY_CREATOR_PAGE ≤ U32.MAX) :
    simulate env w (.getTokensByCreator creator offset limit) =
      some (.indices (((m.creatorTokens creator).drop offset).take
        (min limit MAX_TOKENS_BY_CREATOR_PAGE))) := by
  apply simulate_of_returns
  exact returns_wrap.mpr ⟨_, Holds.returns_getTokensByCreator hw hfits, rfl⟩

/-- `get_token_address` of a registered token. -/
theorem simulate_getTokenAddress (hw : Represents w m) {a : Address} :
    simulate env w (.getTokenAddress i) = some (.address a) ↔
      (m.tokens.at? i).map Token.address = some a := by
  have hlookup : w.storage.lookup (.tokenAddress i) = (m.tokens.at? i).map Token.address := by
    rw [Holds.lookup hw rfl]
    rfl
  constructor
  · -- the view returns what is stored under the number
    intro h
    have hreturns : ∃ w', (View.getTokenAddress i).exec.Returns env w (.address a) w' := by
      rw [simulate] at h
      split at h
      · next ret w' hexec =>
        obtain rfl := Option.some.inj h
        exact ⟨w', hexec⟩
      · cases h
    obtain ⟨w', hreturns⟩ := hreturns
    simp only [View.exec, returns_wrap, getTokenAddress, returns_bind, returns_readAddrKeyed,
      returns_okOr] at hreturns
    obtain ⟨_, ⟨_, _, ⟨rfl, rfl⟩, ha, -⟩, hret⟩ := hreturns
    obtain rfl := Ret.address.inj hret
    rw [← hlookup, ha]
  · intro ha
    apply simulate_of_returns
    simp only [View.exec, returns_wrap, getTokenAddress, returns_bind, returns_readAddrKeyed,
      returns_okOr]
    exact ⟨a, ⟨_, w, ⟨rfl, rfl⟩, hlookup.trans ha, rfl⟩, rfl⟩

/-- The record of a listed token is found. -/
theorem simulate_getTokenInfo (hw : Represents w m) (hi : i ∈ m.creatorTokens creator) :
    ∃ info, simulate env w (.getTokenInfo i) = some (.info info) := by
  obtain ⟨t, ht, -⟩ := FactoryModel.mem_creatorTokens.mp hi
  refine ⟨t.info, simulate_of_returns ?_⟩
  exact returns_wrap.mpr ⟨_, Holds.returns_getTokenInfo hw ht, rfl⟩

/-- Of the listed tokens those cannot be read for which the read fails. -/
theorem getTokenInfo_eq_none (hw : Represents w m) (hi : i ∈ m.creatorTokens creator) :
    getTokenInfo sdk ((simulate env w).failing fails) i = none ↔ fails i = true := by
  obtain ⟨info, hinfo⟩ : ∃ info, simulate env w (.getTokenInfo i) = some (.info info) :=
    simulate_getTokenInfo hw hi
  rw [getTokenInfo, Node.failing, hinfo]
  cases fails i with
  | true => exact iff_of_true rfl rfl
  | false => exact iff_of_false (Option.some_ne_none _) Bool.false_ne_true

/-- A page of the service. -/
theorem getTokensByCreator_eq (hw : Represents w m)
    (hfits : offset + min limit MAX_TOKENS_BY_CREATOR_PAGE ≤ U32.MAX) :
    getTokensByCreator sdk ((simulate env w).failing fails) creator offset limit =
      some ((((m.creatorTokens creator).drop offset).take
        (min limit MAX_TOKENS_BY_CREATOR_PAGE)).filterMap
          (getTokenInfo sdk ((simulate env w).failing fails))) := by
  have hserved : (simulate env w).failing fails (.getTokensByCreator creator offset limit) =
      simulate env w (.getTokensByCreator creator offset limit) := rfl
  rw [getTokensByCreator, hserved, simulate_getTokensByCreator hw hfits]
  show (if _ = [] then _ else _) = _
  split_ifs with hnil
  · rw [hnil]
    rfl
  · rfl

end StellarForge.Frontend.Tokens
