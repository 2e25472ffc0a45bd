import Mathlib.Data.Int.Notation
import StellarForge.Collections.Expiring
import StellarForge.Concurrency.Process

/-!
# What the API routes run on

The environment of a deployment, the keys of its KV store with the types of their values, the
memory of an instance, and the operations that a route awaits: those of the KV store and the requests
to Pinata.

`Answers faulty cidOf` is how the services answer.  A KV request that fails may have been carried
out or not; with `faulty := False` none fails.  `cidOf` is the content addressing of IPFS.
-/

namespace StellarForge.Server

open Collections Concurrency

/-! ### Environment -/

/-- The environment variables that the routes read. -/
structure Deployment where
  /-- `VERCEL_KV_REST_API_URL` and `VERCEL_KV_REST_API_TOKEN` are both set. -/
  isKvConfigured : Bool
  /-- `VERCEL_ENV` is `production`. -/
  isProduction : Bool
  /-- `JWT_SECRET` as it is set, which may be to the empty text; `Deployment.signingSecret?` is what the
  routes make of it. -/
  jwtSecret : Option String
  /-- `PINATA_API_KEY` and `PINATA_API_SECRET` are both set. -/
  isPinataConfigured : Bool
  challengeMaxPerWindow : ℤ := 20
  challengeMaxPerDay : ℤ := 200
  actionMaxPerWindow : ℤ := 10
  actionMaxPerDay : ℤ := 100
  deriving DecidableEq, Repr

/-- A deployment with a KV store. -/
def sampleDeployment : Deployment where
  isKvConfigured := true
  isProduction := true
  jwtSecret := some "secret"
  isPinataConfigured := true

/-! ### The KV store -/

/-- `ratelimit:challenge:<ip>` and `ratelimit:action:<address>`. -/
inductive BucketPrefix
  | challenge (ip : String)
  | action (address : String)
  deriving DecidableEq, Repr

/-- The keys; the texts of different keys differ. -/
inductive Key
  /-- `<bucketPrefix>:window` -/
  | window (bucketPrefix : BucketPrefix)
  /-- `<bucketPrefix>:day` -/
  | day (bucketPrefix : BucketPrefix)
  /-- `auth:challenge:<address>` -/
  | challenge (address : String)
  /-- `pinowner:<cid>` -/
  | pinOwner (cid : String)
  deriving DecidableEq, Repr

/-- The count of a window in memory, and when the window began. -/
structure Bucket where
  count : ℕ
  windowStart : ℕ
  deriving DecidableEq, Repr

/-- The wallet that a CID belongs to, and since when. -/
structure PinOwnerRecord where
  ownerAddress : String
  pinnedAt : ℕ
  deriving DecidableEq, Repr

/-- What is stored under a key; the records are stored as JSON. -/
@[reducible] def Key.Val : Key → Type
  | .window _ => Bucket
  | .day _ => ℕ
  | .challenge _ => String
  | .pinOwner _ => PinOwnerRecord

/-- Any KV failure that is not "the key does not exist". -/
structure KvError where
  message : String
  deriving DecidableEq, Repr

/-! ### The memory of an instance -/

/-- A challenge in memory, and when it was issued. -/
structure StoredChallenge where
  value : String
  createdAt : ℕ
  deriving DecidableEq, Repr

/-- The module-level maps of `rateLimit.ts`, `challengeStore.ts` and `pinOwnership.ts`. -/
structure Memory where
  buckets : BucketPrefix → Option Bucket := fun _ => none
  challenges : String → Option StoredChallenge := fun _ => none
  memoryRegistry : String → Option PinOwnerRecord := fun _ => none

/-! ### Operations -/

/-- What the server asks of Pinata. -/
inductive PinataRequest
  | pinJSONToIPFS (pinataContent name : String)
  | pinFileToIPFS (buffer : List UInt8) (type filename : String)
  | unpin (cid : String)
  deriving DecidableEq, Repr

/-- `fetch` rejects, or there is a response: its status, and the `IpfsHash` of its body when it has
one. -/
inductive PinataReply
  | rejected
  | response (status : ℕ) (ipfsHash : Option String)
  deriving DecidableEq, Repr

/-- `response.ok` -/
def PinataReply.ok : PinataReply → Bool
  | .rejected => false
  | .response status _ => 200 ≤ status ∧ status ≤ 299

/-- What a request of the server waits for. -/
inductive Op
  | kvGet (k : Key)
  | kvSet (k : Key) (value : k.Val) (exSeconds : Option ℕ)
  | kvDel (k : Key)
  | randomBytes
  | pinata (request : PinataRequest)

/-- What it gets in reply. -/
@[reducible] def Op.Reply : Op → Type
  | .kvGet k => Except KvError (Option k.Val)
  | .kvSet .. => Except KvError Unit
  | .kvDel _ => Except KvError Unit
  | .randomBytes => String
  | .pinata _ => PinataReply

/-- The services: the KV store, the values that `randomBytes` has given, and the requests that
Pinata has received, latest first. -/
structure Services where
  kv : Expiring Key Key.Val := .empty
  drawn : List String := []
  pinataRequests : List PinataRequest := []

/-- The CID that Pinata pins a request under, when it is an upload. -/
def PinataRequest.cid? (cidOf : PinataRequest → String) : PinataRequest → Option String
  | .unpin _ => none
  | request => some (cidOf request)

/-- How the services answer an operation at the time `t`. -/
def Answers (faulty : Prop) (cidOf : PinataRequest → String) (t : ℕ) (s : Services) :
    (op : Op) → op.Reply → Services → Prop
  | .kvGet k, r, s' => s' = s ∧ (r = .ok (s.kv.get t k) ∨ faulty ∧ ∃ e, r = .error e)
  | .kvSet k v ex, r, s' =>
    (r = .ok () ∧ s' = { s with kv := s.kv.set t k v (ex.map (· * 1000)) }) ∨
      faulty ∧ (∃ e, r = .error e) ∧
        (s' = s ∨ s' = { s with kv := s.kv.set t k v (ex.map (· * 1000)) })
  | .kvDel k, r, s' =>
    (r = .ok () ∧ s' = { s with kv := s.kv.del k }) ∨
      faulty ∧ (∃ e, r = .error e) ∧ (s' = s ∨ s' = { s with kv := s.kv.del k })
  | .randomBytes, r, s' => r ≠ "" ∧ s' = { s with drawn := r :: s.drawn }
  | .pinata request, r, s' =>
    s' = { s with pinataRequests := request :: s.pinataRequests } ∧
      ∀ status hash, r = .response status (some hash) → request.cid? cidOf = some hash

/-- There is always an answer. -/
theorem exists_answers {faulty : Prop} {cidOf : PinataRequest → String} (t : ℕ) (s : Services)
    (op : Op) : ∃ r s', Answers faulty cidOf t s op r s' := by
  cases op with
  | kvGet k => exact ⟨_, _, rfl, .inl rfl⟩
  | kvSet k v ex => exact ⟨_, _, .inl ⟨rfl, rfl⟩⟩
  | kvDel k => exact ⟨_, _, .inl ⟨rfl, rfl⟩⟩
  | randomBytes => exact ⟨"00", _, by decide, rfl⟩
  | pinata request => exact ⟨.rejected, _, rfl, nofun⟩

/-! ### Programs -/

/-- An instance with the services it runs on. -/
abbrev ServerWorld := World Memory Services

/-- What a route computes while nothing has thrown. -/
abbrev Program := Process Memory Op Op.Reply

/-- With `KvError` as the exception. -/
abbrev Throwing := ExceptT KvError Program

/-- `Date.now()` -/
def dateNow : Program ℕ := .atOnce fun t m => (t, m)

/-- `null` when the key is absent or expired. -/
def kvGet (k : Key) : Throwing (Option k.Val) := .mk (.await (Op.kvGet k))

/-- A write to the store, with its lifetime. -/
def kvSet (k : Key) (value : k.Val) (exSeconds : Option ℕ) : Throwing Unit :=
  .mk (.await (Op.kvSet k value exSeconds))

/-- A removal from the store. -/
def kvDel (k : Key) : Throwing Unit := .mk (.await (Op.kvDel k))

/-- What cannot throw. -/
theorem runs_lift {α : Type} {answers : ℕ → Services → (op : Op) → op.Reply → Services → Prop}
    {p : Program α} {w w' : ServerWorld} {r : Except KvError α} :
    Process.Runs answers (ExceptT.lift p : Throwing α).run w r w' ↔
      ∃ a, r = .ok a ∧ Process.Runs answers p w a w' := by
  show Process.Runs answers (p >>= fun a => .done (.ok a)) w r w' ↔ _
  rw [Process.runs_bind]
  constructor
  · rintro ⟨a, w₁, hp, hdone⟩
    obtain ⟨rfl, h⟩ := Process.runs_done.mp hdone
    exact ⟨a, rfl, hp.wait h⟩
  · rintro ⟨a, rfl, hp⟩
    exact ⟨a, w', hp, .done (.refl w')⟩

end StellarForge.Server
