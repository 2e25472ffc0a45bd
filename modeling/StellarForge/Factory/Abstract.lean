import StellarForge.Collections.Keyed
import StellarForge.Collections.Pages
import StellarForge.Factory.Entrypoint

/-!
# What the factory is for: the abstract factory

`FactoryModel` is the factory without its storage: the governance data, and the registered tokens as
one numbered sequence of records.  What must never happen cannot be written down here: a proposal has
its ledger with it, fees are natural numbers, an installed split is valid, no two tokens have the same
address, the counter of a capped token lies between what has been issued and the cap, and a token has
at most `METADATA_MAX_UPDATES` metadata URIs.

`Next env m call ret m'` is one successful call.  `FactoryModel.content` is the storage that stands
for an abstract factory; `StellarForge.Factory.Refinement` proves that the code keeps to it.
-/

namespace StellarForge.Factory

open Collections

/-! ### Tokens -/

/-- The accounting of a capped token. -/
structure CappedSupply where
  cap : ℤ
  /-- The initial supply plus everything minted since. -/
  issued : ℤ
  /-- The stored counter, which an admin back-fill may raise above `issued`. -/
  counter : ℤ
  issued_le : issued ≤ counter
  counter_le : counter ≤ cap

namespace CappedSupply

/-- Account for a mint, if the cap allows it. -/
def mint (s : CappedSupply) (amount : ℤ) : Option CappedSupply :=
  if h : s.counter + amount ≤ s.cap then
    some { s with
      issued := s.issued + amount
      counter := s.counter + amount
      issued_le := Int.add_le_add_right s.issued_le amount
      counter_le := h }
  else none

/-- Raise the counter to a verified supply, if the cap allows it. -/
def backfill (s : CappedSupply) (verified : ℤ) : Option CappedSupply :=
  if h : verified ≤ s.cap then
    some { s with
      counter := max s.counter verified
      issued_le := le_trans s.issued_le (le_max_left ..)
      counter_le := max_le s.counter_le h }
  else none

variable {s s' : CappedSupply} {amount verified : ℤ}

theorem mint_eq_some (h : s.mint amount = some s') : s.counter + amount ≤ s.cap ∧
    s'.cap = s.cap ∧ s'.issued = s.issued + amount ∧ s'.counter = s.counter + amount := by
  unfold mint at h
  split_ifs at h with hle
  obtain rfl := Option.some.inj h
  exact ⟨hle, rfl, rfl, rfl⟩

theorem backfill_eq_some (h : s.backfill verified = some s') : verified ≤ s.cap ∧
    s'.cap = s.cap ∧ s'.issued = s.issued ∧ s'.counter = max s.counter verified := by
  unfold backfill at h
  split_ifs at h with hle
  obtain rfl := Option.some.inj h
  exact ⟨hle, rfl, rfl, rfl⟩

end CappedSupply

/-- What the creation paths require of the parameters of a token. -/
structure BatchTokenParams.Valid (p : BatchTokenParams) : Prop where
  name : 0 < p.name.length ∧ p.name.length ≤ 32
  symbol : 0 < p.symbol.length ∧ p.symbol.length ≤ 12
  decimals : p.decimals ≤ 18
  initialSupply : 0 ≤ p.initialSupply
  maxSupply : ∀ cap ∈ p.maxSupply, 0 < cap ∧ p.initialSupply ≤ cap

instance (p : BatchTokenParams) : Decidable p.Valid :=
  decidable_of_iff ((0 < p.name.length ∧ p.name.length ≤ 32) ∧
      (0 < p.symbol.length ∧ p.symbol.length ≤ 12) ∧ p.decimals ≤ 18 ∧ 0 ≤ p.initialSupply ∧
      ∀ cap ∈ p.maxSupply, 0 < cap ∧ p.initialSupply ≤ cap)
    ⟨fun ⟨hn, hs, hd, hi, hm⟩ => ⟨hn, hs, hd, hi, hm⟩,
      fun ⟨hn, hs, hd, hi, hm⟩ => ⟨hn, hs, hd, hi, hm⟩⟩

/-- The accounting of a new token: all that has been issued is the initial supply. -/
def BatchTokenParams.supply (p : BatchTokenParams) (hp : p.Valid) : Option CappedSupply :=
  p.maxSupply.pmap (fun cap h => ⟨cap, p.initialSupply, p.initialSupply, le_refl _, h⟩)
    fun cap hc => (hp.maxSupply cap hc).2

theorem BatchTokenParams.supply_cap {p : BatchTokenParams} (hp : p.Valid) :
    (p.supply hp).map CappedSupply.cap = p.maxSupply := by
  rw [supply, Option.map_pmap, Option.pmap_eq_map, Option.map_id']

/-- A registered token. -/
structure Token where
  address : Address
  creator : Address
  /-- The parameters it was created with. -/
  params : BatchTokenParams
  valid : params.Valid
  createdAt : ℕ
  /-- The code it was deployed with. -/
  wasmHash : BytesN32
  burnEnabled : Bool
  supply : Option CappedSupply
  supply_cap : supply.map CappedSupply.cap = params.maxSupply
  /-- The supply counter has been back-filled. -/
  backfilled : Bool
  /-- The metadata URIs, most recent first. -/
  uris : List Bytes
  length_uris : uris.length ≤ METADATA_MAX_UPDATES
  /-- The metadata is frozen. -/
  frozen : Bool

namespace Token

/-- The `TokenInfo` of the token. -/
def info (t : Token) : TokenInfo where
  name := t.params.name
  symbol := t.params.symbol
  decimals := t.params.decimals
  creator := t.creator
  createdAt := t.createdAt
  burnEnabled := t.burnEnabled
  maxSupply := t.params.maxSupply

/-- The token that the creation paths make from valid parameters. -/
def new (env : Env) (creator : Address) (p : BatchTokenParams) (hp : p.Valid) (address : Address)
    (wasmHash : BytesN32) : Token where
  address := address
  creator := creator
  params := p
  valid := hp
  createdAt := env.timestamp
  wasmHash := wasmHash
  burnEnabled := true
  supply := p.supply hp
  supply_cap := p.supply_cap hp
  backfilled := false
  uris := []
  length_uris := Nat.zero_le _
  frozen := false

/-- The token that the creation paths make from the parameters `p`, if they are valid. -/
def create (env : Env) (creator : Address) (p : BatchTokenParams) (address : Address)
    (wasmHash : BytesN32) : Option Token :=
  if hp : p.Valid then some (new env creator p hp address wasmHash) else none

/-- The token with other accounting under the same cap. -/
def withSupply (t : Token) (s : CappedSupply) (h : some s.cap = t.params.maxSupply) : Token :=
  { t with supply := some s, supply_cap := h }

/-- The token with one more metadata URI. -/
def withUri (t : Token) (uri : Bytes) (h : t.uris.length < METADATA_MAX_UPDATES) : Token :=
  { t with uris := uri :: t.uris, length_uris := h }

theorem cap_eq {t : Token} {s s' : CappedSupply} (hs : t.supply = some s) (h : s'.cap = s.cap) :
    some s'.cap = t.params.maxSupply := by
  rw [← t.supply_cap, hs, Option.map_some, h]

/-- Account for a mint. -/
def mint (t : Token) (amount : ℤ) : Option Token :=
  match hs : t.supply with
  | none => some t
  | some s =>
    match hm : s.mint amount with
    | none => none
    | some s' => some (t.withSupply s' (cap_eq hs (CappedSupply.mint_eq_some hm).2.1))

/-- Back-fill the supply counter of a capped token, once. -/
def backfill (t : Token) (verified : ℤ) : Option Token :=
  match hs : t.supply with
  | none => none
  | some s =>
    if t.backfilled then none
    else match hb : s.backfill verified with
      | none => none
      | some s' => some
          { t.withSupply s' (cap_eq hs (CappedSupply.backfill_eq_some hb).2.1) with
            backfilled := true }

/-- Set the metadata URI. -/
def setUri (t : Token) (uri : Bytes) : Option Token :=
  if t.frozen then none
  else if h : t.uris.length < METADATA_MAX_UPDATES then some (t.withUri uri h)
  else none

end Token

/-! ### The abstract factory -/

/-- What is proposed, and the ledger it waits for or expires at. -/
structure Proposal (α : Type) where
  subject : α
  ledger : ℕ

/-- The splits that `set_fee_split` installs. -/
structure FeeSplit.Valid (splits : FeeSplit) : Prop where
  length_pos : 0 < splits.entries.length
  length_le : splits.entries.length ≤ MAX_FEE_SPLIT_RECIPIENTS
  one_le : ∀ e ∈ splits.entries, 1 ≤ e.2
  sum_eq : (splits.entries.map Prod.snd).sum = 10000

/-- The factory without its storage: what governs it, the whitelist, and the tokens in their order. -/
structure FactoryModel where
  admin : Address
  paused : Bool
  treasury : Address
  feeToken : Address
  baseFee : ℕ
  metadataFee : ℕ
  tokenWasmHash : BytesN32
  whitelistEnabled : Bool
  pendingAdmin : Option (Proposal Address)
  pendingUpgrade : Option (Proposal BytesN32)
  split : Option {splits : FeeSplit // splits.Valid}
  whitelist : Address → Bool
  tokens : Keyed Token.address

namespace FactoryModel

/-- The state that stands for the governance data. -/
def state (m : FactoryModel) : FactoryState where
  admin := m.admin
  paused := m.paused
  locked := false
  treasury := m.treasury
  feeToken := m.feeToken
  baseFee := m.baseFee
  metadataFee := m.metadataFee
  tokenWasmHash := m.tokenWasmHash
  tokenCount := m.tokens.length
  schemaVersion := CURRENT_SCHEMA_VERSION
  whitelistEnabled := m.whitelistEnabled
  pendingAdmin := m.pendingAdmin.map Proposal.subject
  pendingAdminExpiry := m.pendingAdmin.map Proposal.ledger
  pendingUpgradeHash := m.pendingUpgrade.map Proposal.subject
  pendingUpgradeReadyAt := m.pendingUpgrade.map Proposal.ledger

/-- The numbers of the tokens of `creator`. -/
def creatorTokens (m : FactoryModel) (creator : Address) : List ℕ :=
  m.tokens.indices fun t => t.creator = creator

/-- The value of each persistent entry. -/
def persistent (m : FactoryModel) : (k : DataKey) → Option k.Val
  | .tokenInfo i => (m.tokens.at? i).map Token.info
  | .creatorTokens c p => page MAX_TOKENS_BY_CREATOR_PAGE (m.creatorTokens c) p
  | .creatorTokenCount c =>
    if m.creatorTokens c = [] then none else some (m.creatorTokens c).length
  | .tokenIndex a => m.tokens.index? a
  | .tokenAddress i => (m.tokens.at? i).map Token.address
  | .metadata a => (m.tokens.find? a).bind fun t => t.uris.head?
  | .metadataVersion a =>
    (m.tokens.find? a).bind fun t => if t.uris = [] then none else some t.uris.length
  | .metadataFrozen a => (m.tokens.find? a).bind fun t => if t.frozen then some true else none
  | .owner a => (m.tokens.find? a).map Token.creator
  | .supply a => (m.tokens.find? a).bind fun t => t.supply.map CappedSupply.counter
  | .backfilled a => (m.tokens.find? a).bind fun t => if t.backfilled then some true else none
  | .whitelist a => if m.whitelist a then some true else none
  | _ => none

/-- The value of each key of the instance entry while the stored state is `st`. -/
def inst (m : FactoryModel) (st : FactoryState) : (k : DataKey) → Option k.Val
  | .state => some st.encode
  | .split => m.split.map Subtype.val
  | .sv => some CURRENT_SCHEMA_VERSION
  | _ => none

/-- The invocation carries the authorization of `admin`, who is the admin. -/
def IsAdmin (env : Env) (m : FactoryModel) (admin : Address) : Prop :=
  env.authorized admin = true ∧ admin = m.admin

/-- The invocation carries the authorization of `creator`, who may create tokens for `fee`. -/
structure MayCreate (env : Env) (m : FactoryModel) (creator : Address) (fee feePayment : ℤ) :
    Prop where
  authorized : env.authorized creator = true
  paused : m.paused = false
  fee_le : fee ≤ feePayment
  whitelisted : m.whitelistEnabled = true → m.whitelist creator = true

/-- Add the token that the parameters `p` describe, if its address is new. -/
def create (env : Env) (creator : Address) (p : BatchTokenParams) (address : Address)
    (m : FactoryModel) : Option FactoryModel :=
  match Token.create env creator p address m.tokenWasmHash with
  | none => none
  | some t =>
    if h : m.tokens.find? t.address = none then some { m with tokens := m.tokens.push t h }
    else none

/-- Add the tokens that a batch describes, in order. -/
def createAll (env : Env) (creator : Address) :
    List BatchTokenParams → List Address → FactoryModel → Option FactoryModel
  | [], [], m => some m
  | p :: ps, a :: as, m => (m.create env creator p a).bind (createAll env creator ps as)
  | _, _, _ => none

/-- Replace the record of a token by one with the same address. -/
def putToken (m : FactoryModel) (t : Token) : FactoryModel :=
  { m with tokens := m.tokens.replace t }

/-- The caller `creator` has authorized a change of its token `t` at `address`. -/
structure IsCreator (env : Env) (m : FactoryModel) (creator address : Address) (t : Token) :
    Prop where
  authorized : env.authorized creator = true
  find? : m.tokens.find? address = some t
  creator_eq : t.creator = creator

end FactoryModel

open FactoryModel in
/-- One successful call of the abstract factory. -/
inductive Next (env : Env) (m : FactoryModel) : Call → Ret → FactoryModel → Prop
  | addToWhitelist {admin address} (ha : IsAdmin env m admin) :
    Next env m (.addToWhitelist admin address) .unit
      { m with whitelist := Function.update m.whitelist address true }
  | removeFromWhitelist {admin address} (ha : IsAdmin env m admin) :
    Next env m (.removeFromWhitelist admin address) .unit
      { m with whitelist := Function.update m.whitelist address false }
  | setWhitelistEnabled {admin enabled} (ha : IsAdmin env m admin) :
    Next env m (.setWhitelistEnabled admin enabled) .unit { m with whitelistEnabled := enabled }
  | createToken {creator p feePayment address m'}
    (hc : MayCreate env m creator m.baseFee feePayment)
    (hm : m.create env creator p address = some m') :
    Next env m (.createToken creator p feePayment) (.address address) m'
  | createTokensBatch {creator tokens feePayment addresses m'}
    (hc : MayCreate env m creator (m.baseFee * tokens.length) feePayment)
    (hm : m.createAll env creator tokens addresses = some m') :
    Next env m (.createTokensBatch creator tokens feePayment) (.addresses addresses) m'
  | setMetadata {address admin uri t t'} {feePayment : ℤ} (hp : m.paused = false)
    (hc : IsCreator env m admin address t) (hf : m.metadataFee ≤ feePayment)
    (ht : t.setUri uri = some t') :
    Next env m (.setMetadata address admin uri feePayment) .unit (m.putToken t')
  | freezeMetadata {address admin t} (hp : m.paused = false)
    (hc : IsCreator env m admin address t) :
    Next env m (.freezeMetadata address admin) .unit (m.putToken { t with frozen := true })
  | mintTokens {address admin recipient t t'} {amount feePayment : ℤ} (hp : m.paused = false)
    (hc : IsCreator env m admin address t) (hf : m.baseFee ≤ feePayment) (ha : 0 < amount)
    (ht : t.mint amount = some t') :
    Next env m (.mintTokens address admin recipient amount feePayment) .unit (m.putToken t')
  | burn {address holder amount t} (ha : env.authorized holder = true) (hpos : 0 < amount)
    (ht : m.tokens.find? address = some t) (hb : t.burnEnabled = true) :
    Next env m (.burn address holder amount) .unit m
  | setBurnEnabled {address admin enabled t} (hc : IsCreator env m admin address t) :
    Next env m (.setBurnEnabled address admin enabled) .unit
      (m.putToken { t with burnEnabled := enabled })
  | pause {admin} (ha : IsAdmin env m admin) :
    Next env m (.pause admin) .unit { m with paused := true }
  | unpause {admin} (ha : IsAdmin env m admin) :
    Next env m (.unpause admin) .unit { m with paused := false }
  | clearFeeSplit {admin splits} (ha : IsAdmin env m admin) (hs : splits.entries = []) :
    Next env m (.setFeeSplit admin splits) .unit { m with split := none }
  | setFeeSplit {admin splits} (ha : IsAdmin env m admin) (hs : splits.Valid) :
    Next env m (.setFeeSplit admin splits) .unit { m with split := some ⟨splits, hs⟩ }
  | updateFees {admin} {baseFee metadataFee : Option ℕ} (ha : IsAdmin env m admin) :
    Next env m (.updateFees admin (baseFee.map Nat.cast) (metadataFee.map Nat.cast)) .unit
      { m with
        baseFee := baseFee.getD m.baseFee, metadataFee := metadataFee.getD m.metadataFee }
  | proposeUpgrade {admin hash} (ha : IsAdmin env m admin) :
    Next env m (.proposeUpgrade admin hash) .unit
      { m with pendingUpgrade := some ⟨hash, env.sequence + UPGRADE_TIMELOCK_LEDGERS⟩ }
  | executeUpgrade {admin hash readyAt} (ha : IsAdmin env m admin)
    (hp : m.pendingUpgrade = some ⟨hash, readyAt⟩) (hr : readyAt ≤ env.sequence) :
    Next env m (.executeUpgrade admin hash) .unit
      { m with pendingUpgrade := none, tokenWasmHash := hash }
  | cancelUpgrade {admin} (ha : IsAdmin env m admin) :
    Next env m (.cancelUpgrade admin) .unit { m with pendingUpgrade := none }
  | migrate {admin} (ha : IsAdmin env m admin) : Next env m (.migrate admin) .unit m
  | backfillCappedSupply {admin address verified t t'} (ha : IsAdmin env m admin)
    (ht : m.tokens.find? address = some t) (hb : t.backfill verified = some t') :
    Next env m (.backfillCappedSupply admin address verified) .unit (m.putToken t')
  | proposeAdmin {admin newAdmin} (ha : IsAdmin env m admin) (hne : admin ≠ newAdmin) :
    Next env m (.proposeAdmin admin newAdmin) .unit
      { m with pendingAdmin := some ⟨newAdmin, env.sequence + ADMIN_PROPOSAL_TTL_LEDGERS⟩ }
  | acceptAdmin {newAdmin expiry} (ha : env.authorized newAdmin = true)
    (hp : m.pendingAdmin = some ⟨newAdmin, expiry⟩) (hexp : env.sequence < expiry) :
    Next env m (.acceptAdmin newAdmin) .unit { m with admin := newAdmin, pendingAdmin := none }
  | cancelAdminProposal {admin} (ha : IsAdmin env m admin) :
    Next env m (.cancelAdminProposal admin) .unit { m with pendingAdmin := none }
  | transferAdmin {admin newAdmin receipt} (ha : IsAdmin env m admin) (hne : admin ≠ newAdmin) :
    Next env m (.transferAdmin admin newAdmin) (.receipt receipt)
      { m with pendingAdmin := some ⟨newAdmin, env.sequence + ADMIN_PROPOSAL_TTL_LEDGERS⟩ }
  | updateAdmin {admin newAdmin receipt} (ha : IsAdmin env m admin) (hne : admin ≠ newAdmin) :
    Next env m (.updateAdmin admin newAdmin) (.receipt receipt)
      { m with pendingAdmin := some ⟨newAdmin, env.sequence + ADMIN_PROPOSAL_TTL_LEDGERS⟩ }
  | backfillTokenAddress {address index} (hi : m.tokens.index? address = some index) :
    Next env m (.backfillTokenAddress address) (.u32 index) m
  | view {v ret} : Next env m (.view v) ret m

/-! ### The storage of an abstract factory -/

/-- What a world holds, leaving out lifetimes, calls and events. -/
@[ext] structure Content where
  persistent : (k : DataKey) → Option k.Val
  inst : (k : DataKey) → Option k.Val
  contracts : Address → Option BytesN32

/-- The content that stands for `m` while the stored state is `st`. -/
def FactoryModel.content (m : FactoryModel) (st : FactoryState) : Content where
  persistent := m.persistent
  inst := m.inst st
  contracts a := (m.tokens.find? a).map Token.wasmHash

/-- The storage and the contracts, without events, lifetimes or calls. -/
def World.content (w : World) : Content := ⟨w.storage.persistent, w.storage.inst, w.contracts⟩

/-- The world holds the abstract factory `m`. -/
def Represents (w : World) (m : FactoryModel) : Prop := w.content = m.content m.state

end StellarForge.Factory
