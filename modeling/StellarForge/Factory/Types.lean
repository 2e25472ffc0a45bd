import Mathlib.Data.BitVec
import Mathlib.Data.List.Pairwise
import Mathlib.Order.Basic
import Mathlib.Tactic.Common

/-!
# Data types of the token factory

The contract's own data: addresses, hashes, token records, the factory state and its stored
layout, the fee split and the error codes.

`FactoryState` is stored as a map from field names to values.  Decoding it is strict: it fails
when a declared field is absent or has another type, which is how an entry written by a binary
with fewer fields is read by this one.
-/

namespace StellarForge.Factory

/-- A Soroban address; only its identity matters to the contract. -/
structure Address where
  id : ℕ
  deriving DecidableEq, Repr

instance : LT Address := ⟨fun a b => a.id < b.id⟩

instance (a b : Address) : Decidable (a < b) := inferInstanceAs (Decidable (a.id < b.id))

/-- `BytesN<32>` -/
abbrev BytesN32 := BitVec 256

/-- A Soroban `String` is a sequence of bytes; its length counts bytes. -/
abbrev Bytes := List UInt8

/-- A Soroban `Symbol`. -/
abbrev Symbol := String

/-! ### Constants -/

/-- The schema version written by the constructor and reached by `migrate`. -/
def CURRENT_SCHEMA_VERSION : ℕ := 5

/-- Ledgers for which an admin proposal can be accepted. -/
def ADMIN_PROPOSAL_TTL_LEDGERS : ℕ := 17280

/-- Ledgers between `propose_upgrade` and the earliest `execute_upgrade`. -/
def UPGRADE_TIMELOCK_LEDGERS : ℕ := 17280

/-- Below so many ledgers an entry is renewed. -/
def MIN_TTL : ℕ := 100000

/-- The ledgers that a renewed entry lives for. -/
def MAX_TTL : ℕ := 535000

/-- Indices in one page of a creator's token list. -/
def MAX_TOKENS_BY_CREATOR_PAGE : ℕ := 50

/-- The bytes of a metadata URI. -/
def METADATA_URI_MAX_LEN : ℕ := 128

/-- How often the metadata of a token may be set. -/
def METADATA_MAX_UPDATES : ℕ := 5

/-- `TokenInfo` entries moved by one call of `migrate`. -/
def MIGRATE_TOKEN_INFO_CHUNK : ℕ := 20

/-- The recipients of a split. -/
def MAX_FEE_SPLIT_RECIPIENTS : ℕ := 10

/-- The tokens of one batch. -/
def MAX_BATCH_SIZE : ℕ := 20

/-! ### Errors -/

/-- The errors of the contract. -/
inductive Error
  | insufficientFee | unauthorized | invalidParameters | tokenNotFound | metadataAlreadySet
  | alreadyInitialized | burnAmountExceedsBalance | burnNotEnabled | invalidBurnAmount
  | contractPaused | reentrancy | arithmeticOverflow | stateNotFound | invalidTokenParams
  | invalidDecimals | maxSupplyExceeded | invalidFeeSplit | tooManyFeeSplitRecipients
  | alreadyBackfilled | notWhitelisted | invalidMetadataUri | zeroFeeSplitEntry | metadataFrozen
  | treasuryTransferFailed | batchSizeExceeded | noPendingProposal | proposalExpired
  | upgradeNotReady | noUpgradePending | upgradeHashMismatch
  deriving DecidableEq, Repr

/-! ### Records -/

/-- What a creator asks for. -/
structure BatchTokenParams where
  salt : BytesN32
  name : Bytes
  symbol : Bytes
  decimals : ℕ
  initialSupply : ℤ
  maxSupply : Option ℤ
  deriving DecidableEq, Repr

/-- The record of a token. -/
structure TokenInfo where
  name : Bytes
  symbol : Bytes
  decimals : ℕ
  creator : Address
  createdAt : ℕ
  burnEnabled : Bool
  maxSupply : Option ℤ
  deriving DecidableEq, Repr

/-- What `transfer_admin` and `update_admin` return: the rotation is proposed, not complete. -/
structure AdminRotationReceipt where
  rotationComplete : Bool
  pendingAdmin : Address
  expiresAtLedger : ℕ
  requiredNextCall : Symbol
  deriving DecidableEq, Repr

/-- A `Map<Address, u32>` of basis points: iteration is in the order of the keys, each of which
occurs once. -/
structure FeeSplit where
  entries : List (Address × ℕ)
  sorted : entries.Pairwise fun a b => a.1 < b.1

/-- The empty map. -/
def FeeSplit.empty : FeeSplit := ⟨[], .nil⟩

/-! ### The factory state -/

/-- The state of the factory, one entry of its instance storage. -/
structure FactoryState where
  admin : Address
  paused : Bool
  /-- Held during the external calls of a guarded entrypoint. -/
  locked : Bool
  treasury : Address
  feeToken : Address
  baseFee : ℤ
  metadataFee : ℤ
  /-- The hash of the code that `record_token` deploys. -/
  tokenWasmHash : BytesN32
  tokenCount : ℕ
  schemaVersion : ℕ
  whitelistEnabled : Bool
  pendingAdmin : Option Address
  pendingAdminExpiry : Option ℕ
  pendingUpgradeHash : Option BytesN32
  pendingUpgradeReadyAt : Option ℕ
  deriving DecidableEq, Repr

/-- The keys of the stored map of a `FactoryState`, one for each declared field. -/
inductive StateField
  | admin | paused | locked | treasury | feeToken | baseFee | metadataFee | tokenWasmHash
  | tokenCount | schemaVersion | whitelistEnabled | pendingAdmin | pendingAdminExpiry
  | pendingUpgradeHash | pendingUpgradeReadyAt
  deriving DecidableEq, Repr

/-- The declared fields. -/
def StateField.all : List StateField :=
  [.admin, .paused, .locked, .treasury, .feeToken, .baseFee, .metadataFee, .tokenWasmHash,
    .tokenCount, .schemaVersion, .whitelistEnabled, .pendingAdmin, .pendingAdminExpiry,
    .pendingUpgradeHash, .pendingUpgradeReadyAt]

/-- The stored values that occur in a `FactoryState`. -/
inductive ScVal
  | void
  | bool (b : Bool)
  | u32 (n : ℕ)
  | u64 (n : ℕ)
  | i128 (x : ℤ)
  | address (a : Address)
  | bytesN (h : BytesN32)
  deriving DecidableEq, Repr

/-- The stored map of a `FactoryState`: `none` where the key is absent. -/
abbrev StateMap := StateField → Option ScVal

namespace ScVal

/-- The Boolean that a value is. -/
def toBool? : ScVal → Option Bool
  | bool b => some b
  | _ => none

/-- The `u32` that a value is. -/
def toU32? : ScVal → Option ℕ
  | u32 n => some n
  | _ => none

/-- The `u64` that a value is. -/
def toU64? : ScVal → Option ℕ
  | u64 n => some n
  | _ => none

/-- The `i128` that a value is. -/
def toI128? : ScVal → Option ℤ
  | i128 x => some x
  | _ => none

/-- The address that a value is. -/
def toAddress? : ScVal → Option Address
  | address a => some a
  | _ => none

/-- The 32 bytes that a value is. -/
def toBytesN? : ScVal → Option BytesN32
  | bytesN h => some h
  | _ => none

/-- An `Option` is stored as the value itself, or as void for `None`. -/
def ofOption {α : Type} (f : α → ScVal) : Option α → ScVal
  | some a => f a
  | none => void

/-- The inverse of `ofOption`, given the decoder of the value. -/
def toOption? {α : Type} (f? : ScVal → Option α) : ScVal → Option (Option α)
  | void => some none
  | v => (f? v).map some

end ScVal

namespace FactoryState

/-- The map a `FactoryState` is stored as. -/
def encode (st : FactoryState) : StateMap
  | .admin => some (.address st.admin)
  | .paused => some (.bool st.paused)
  | .locked => some (.bool st.locked)
  | .treasury => some (.address st.treasury)
  | .feeToken => some (.address st.feeToken)
  | .baseFee => some (.i128 st.baseFee)
  | .metadataFee => some (.i128 st.metadataFee)
  | .tokenWasmHash => some (.bytesN st.tokenWasmHash)
  | .tokenCount => some (.u32 st.tokenCount)
  | .schemaVersion => some (.u32 st.schemaVersion)
  | .whitelistEnabled => some (.bool st.whitelistEnabled)
  | .pendingAdmin => some (.ofOption .address st.pendingAdmin)
  | .pendingAdminExpiry => some (.ofOption .u64 st.pendingAdminExpiry)
  | .pendingUpgradeHash => some (.ofOption .bytesN st.pendingUpgradeHash)
  | .pendingUpgradeReadyAt => some (.ofOption .u64 st.pendingUpgradeReadyAt)

/-- The values of a stored map as a `FactoryState`, each with the declared type. -/
def decodeFields (m : StateMap) : Option FactoryState := do
  let admin ← (m .admin).bind ScVal.toAddress?
  let paused ← (m .paused).bind ScVal.toBool?
  let locked ← (m .locked).bind ScVal.toBool?
  let treasury ← (m .treasury).bind ScVal.toAddress?
  let feeToken ← (m .feeToken).bind ScVal.toAddress?
  let baseFee ← (m .baseFee).bind ScVal.toI128?
  let metadataFee ← (m .metadataFee).bind ScVal.toI128?
  let tokenWasmHash ← (m .tokenWasmHash).bind ScVal.toBytesN?
  let tokenCount ← (m .tokenCount).bind ScVal.toU32?
  let schemaVersion ← (m .schemaVersion).bind ScVal.toU32?
  let whitelistEnabled ← (m .whitelistEnabled).bind ScVal.toBool?
  let pendingAdmin ← (m .pendingAdmin).bind (ScVal.toOption? ScVal.toAddress?)
  let pendingAdminExpiry ← (m .pendingAdminExpiry).bind (ScVal.toOption? ScVal.toU64?)
  let pendingUpgradeHash ← (m .pendingUpgradeHash).bind (ScVal.toOption? ScVal.toBytesN?)
  let pendingUpgradeReadyAt ← (m .pendingUpgradeReadyAt).bind (ScVal.toOption? ScVal.toU64?)
  pure { admin, paused, locked, treasury, feeToken, baseFee, metadataFee, tokenWasmHash,
         tokenCount, schemaVersion, whitelistEnabled, pendingAdmin, pendingAdminExpiry,
         pendingUpgradeHash, pendingUpgradeReadyAt }

/-- Read a stored map as a `FactoryState`: its keys must be the declared fields. -/
def decode (m : StateMap) : Option FactoryState :=
  if StateField.all.all fun f => (m f).isSome then decodeFields m else none

@[simp] theorem decode_encode (st : FactoryState) : decode st.encode = some st := by
  obtain ⟨_, _, _, _, _, _, _, _, _, _, _, pa, pe, ph, pr⟩ := st
  rcases pa with _ | _ <;> rcases pe with _ | _ <;> rcases ph with _ | _ <;>
    rcases pr with _ | _ <;> rfl

/-- A map that lacks a declared field is not a `FactoryState`. -/
theorem decode_eq_none_of_absent {m : StateMap} {f : StateField} (h : m f = none) :
    decode m = none := by
  have hf : f ∈ StateField.all := by cases f <;> decide
  unfold decode
  rw [ite_eq_right_iff]
  intro hall
  have := List.all_eq_true.mp hall f hf
  rw [h] at this
  contradiction

end FactoryState

end StellarForge.Factory
