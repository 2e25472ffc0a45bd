import StellarForge.Concurrency.Fleet
import StellarForge.Server.PinOwnership
import StellarForge.Transition.Run

/-!
# Who may unpin a CID

Uploads and unpins in progress on any number of instances, with a KV store and without, whatever fails.
`Holds wallet cid h` says that the wallet has uploaded content with the CID and not unpinned it since.
`ownership` is the discipline of a request: it may record or unpin a CID after Pinata has pinned it for
the request, or after the request has found its wallet on record.

* `obeys_ipfsRoute`: **every request keeps to it**;
* `Involved.of_step`: only an upload makes a wallet concerned with a CID;
* `own_of_unpin`: **a wallet unpins its own content only**, in a run in which no content is pinned for a
  wallet while another is concerned with its CID;
* `not_own_of_unpin`: otherwise the later upload replaces the record, and the content of the first
  wallet may be unpinned.
-/

namespace StellarForge.Server

open Collections Concurrency Transition Process

/-- The upload and unpin routes on any number of instances. -/
abbrev IpfsFleet := Fleet IpfsRequest Memory Op Op.Reply (Option IpfsResponse) Services

/-- A step of an instance, or the beginning of a request. -/
abbrev IpfsDeed := Deed IpfsRequest Op Op.Reply

/-- Requests arrive and perform their operations. -/
def IpfsStep (env : Deployment) (faulty : Prop) (cidOf : PinataRequest → String) :
    IpfsFleet → IpfsDeed → IpfsFleet → Prop :=
  Fleet.Step (ipfsRoute env) (Answers faulty cidOf)

/-- The token of the request is the wallet's. -/
def IpfsRequest.By (request : IpfsRequest) (wallet : String) : Prop := request.walletAuth = .ok wallet

/-- The CID that Pinata has pinned the content of an upload under. -/
def PinataRequest.pinned? : PinataRequest → PinataReply → Option String
  | .unpin _, _ => none
  | _, .rejected => none
  | _, .response status ipfsHash => if (PinataReply.response status ipfsHash).ok then ipfsHash else none

/-! ### The routes keep to the records -/

/-- An answer that lets a request record or unpin the CID: its content has been pinned, or it is on
record for the wallet. -/
def Entitles (request : IpfsRequest) (cid : String) : (op : Op) → op.Reply → Prop
  | .kvGet (.pinOwner c), .ok (some record) => c = cid ∧ request.By record.ownerAddress
  | .pinata upload, reply => upload.pinned? reply = some cid
  | _, _ => False

/-- What the record of a wallet is good for. -/
def ownership (env : Deployment) (request : IpfsRequest) : Discipline Memory Op Op.Reply String where
  grants op r cid := Entitles request cid op r
  shows m cid := env.isKvConfigured = false ∧
    ∃ record ∈ m.memoryRegistry cid, request.By record.ownerAddress
  may K op := match op with
    | .kvGet (.pinOwner _) => env.isKvConfigured = true
    | .kvSet (.pinOwner cid) record _ => request.By record.ownerAddress ∧ K cid
    | .pinata (.unpin cid) => K cid
    | _ => True
  mayWrite K m m' := env.isKvConfigured = false → ∀ cid, ∀ record ∈ m'.memoryRegistry cid,
    record ∈ m.memoryRegistry cid ∨ request.By record.ownerAddress ∧ K cid

section

variable {env : Deployment} {request : IpfsRequest} {wallet cid : String} {K : String → Prop}

theorem obeys_recordInMemory {record : PinOwnerRecord}
    (h : env.isKvConfigured = false → request.By record.ownerAddress ∧ K cid) :
    (recordInMemory cid record).Obeys (ownership env request) (fun _ _ => True) K := by
  refine obeys_atOnce.mpr fun t m => ⟨fun hkv c record' hrecord => ?_, trivial⟩
  by_cases hc : c = cid
  · subst hc
    obtain rfl : record = record' := by simpa using hrecord
    exact .inr (h hkv)
  · left
    simpa [Function.update_of_ne hc] using hrecord

theorem obeys_clearInMemory :
    (clearInMemory cid).Obeys (ownership env request) (fun _ _ => True) K := by
  refine obeys_atOnce.mpr fun t m => ⟨fun _ c record hrecord => .inl ?_, trivial⟩
  by_cases hc : c = cid
  · subst hc
    simp at hrecord
  · simpa [Function.update_of_ne hc] using hrecord

/-- An upload records the wallet of its own request. -/
theorem obeys_recordPinOwner (hby : request.By wallet) (hK : K cid) :
    (recordPinOwner env cid wallet).Obeys (ownership env request) (fun _ _ => True) K := by
  refine obeys_bind.mpr (obeys_atOnce.mpr fun t m => ⟨fun _ c record h => .inl h, ?_⟩)
  by_cases hkv : env.isKvConfigured = true
  · simp only [hkv, ↓reduceIte]
    refine obeys_bind.mpr (obeys_await.mpr ⟨⟨hby, .inl hK⟩, fun r => ?_⟩)
    rcases r with e | ⟨⟩
    · exact obeys_recordInMemory fun h => by simp [hkv] at h
    · trivial
  · simp only [hkv]
    exact obeys_recordInMemory fun _ => ⟨hby, .inl hK⟩

theorem obeys_clearPinOwner :
    (clearPinOwner env cid).Obeys (ownership env request) (fun _ _ => True) K := by
  by_cases hkv : env.isKvConfigured = true
  · simp only [clearPinOwner, hkv, ↓reduceIte]
    refine obeys_bind.mpr (obeys_await.mpr ⟨trivial, fun r => ?_⟩)
    rcases r with e | ⟨⟩
    · exact obeys_clearInMemory
    · trivial
  · simp only [clearPinOwner, hkv]
    exact obeys_clearInMemory

/-- A wallet that is found to be the owner may unpin. -/
theorem obeys_getPinOwner : (getPinOwner env cid).Obeys (ownership env request)
    (fun K owner => ∀ wallet ∈ owner, request.By wallet → K cid) K := by
  by_cases hkv : env.isKvConfigured = true
  · simp only [getPinOwner, hkv, ↓reduceIte]
    refine obeys_bind.mpr (obeys_await.mpr ⟨hkv, fun r => ?_⟩)
    rcases r with e | _ | record
    · exact fun _ h => absurd h (by simp)
    · exact fun _ h => absurd h (by simp)
    · rintro wallet hwallet hby
      obtain rfl : record.ownerAddress = wallet := by simpa using hwallet
      exact ⟨rfl, hby⟩
  · simp only [getPinOwner, hkv]
    refine obeys_atOnce.mpr fun t m => ⟨fun _ c record h => .inl h, ?_⟩
    rintro wallet hwallet hby
    obtain ⟨record, hrecord, rfl⟩ := Option.map_eq_some_iff.mp hwallet
    exact .inr ⟨by simpa using hkv, record, hrecord, hby⟩

/-- An upload touches the record of the CID that it is answered with. -/
theorem obeys_pinContent {upload : PinataRequest} {failed : String} (hupload : ∀ c, upload ≠ .unpin c)
    (hby : request.By wallet) :
    (pinContent env upload failed wallet).Obeys (ownership env request) (fun _ _ => True) K := by
  have hmay : (ownership env request).may K (.pinata upload) := by
    cases upload with
    | unpin c => exact absurd rfl (hupload c)
    | _ => trivial
  refine obeys_bind.mpr (obeys_await.mpr ⟨hmay, fun r => ?_⟩)
  rcases r with _ | ⟨status, ipfsHash⟩
  · trivial
  · dsimp only
    split_ifs with hok
    · rcases ipfsHash with _ | c
      · trivial
      · refine obeys_bind.mpr ((obeys_recordPinOwner hby ?_).imp fun _ _ _ => trivial)
        show upload.pinned? (.response status (some c)) = some c
        cases upload with
        | unpin c => exact absurd rfl (hupload c)
        | _ => exact if_pos hok
    · trivial

theorem obeys_unpinContent (hK : K cid) :
    (unpinContent env cid).Obeys (ownership env request) (fun _ _ => True) K := by
  refine obeys_bind.mpr (obeys_await.mpr ⟨hK, fun r => ?_⟩)
  rcases r with _ | ⟨status, ipfsHash⟩
  · trivial
  · dsimp only
    split_ifs
    · exact obeys_bind.mpr (obeys_clearPinOwner.imp fun _ _ _ => trivial)
    · trivial
    · trivial

/-- `unpin` touches the record of the CID that it was asked for. -/
theorem obeys_unpin {rawCid : Option String} (hby : request.By wallet) :
    (unpin env wallet rawCid).Obeys (ownership env request) (fun _ _ => True) K := by
  rw [unpin]
  split
  · trivial
  · refine obeys_bind.mpr (obeys_getPinOwner.imp fun K owner howner => ?_)
    rcases owner with _ | owner
    · trivial
    · dsimp only
      split_ifs with hne
      · trivial
      · obtain rfl := not_not.mp hne
        exact obeys_unpinContent (howner _ rfl hby)
      · trivial

/-- **The routes keep to the records of their own requests.** -/
theorem obeys_ipfsAction {body : IpfsBody} (hby : request.By wallet) :
    (ipfsAction env wallet body).Obeys (ownership env request) (fun _ _ => True) K := by
  cases body with
  | uploadJson checked =>
    rcases checked with message | ⟨metadata, name⟩
    · trivial
    · rw [ipfsAction, uploadJson]
      split_ifs
      · exact obeys_pinContent nofun hby
      · trivial
  | uploadFile checked =>
    rcases checked with ⟨status, message⟩ | ⟨buffer, type, filename⟩
    · trivial
    · rw [ipfsAction, uploadFile]
      split_ifs
      · exact obeys_pinContent nofun hby
      · trivial
  | unpin cid => exact obeys_unpin hby

theorem may_of_onBucket {op : Op} (hop : op.OnBucket) : (ownership env request).may K op := by
  cases op with
  | kvGet k =>
    cases k with
    | pinOwner _ => exact hop.elim
    | _ => trivial
  | kvSet k v ex =>
    cases k with
    | pinOwner _ => exact hop.elim
    | _ => trivial
  | pinata _ => exact hop.elim
  | _ => trivial

/-- **Every request keeps to the records**, with a KV store and without. -/
theorem obeys_ipfsRoute :
    (ipfsRoute env request).Obeys (ownership env request) (fun _ _ => True) K := by
  rw [ipfsRoute]
  split_ifs
  · trivial
  · split
    · trivial
    next wallet hby =>
      split_ifs
      · trivial
      · have hlimit : (isActionRateLimited env wallet).Obeys (ownership env request)
            (fun _ _ => True) K := by
          refine within_isRateLimited.obeys (fun op hop K => may_of_onBucket hop) ?_ K
          exact fun m m' h K _ c record hrecord => .inl (h.2 ▸ hrecord)
        refine obeys_bind.mpr (hlimit.imp fun K limited _ => ?_)
        cases limited
        · exact obeys_bind.mpr ((obeys_ipfsAction hby).imp fun _ _ _ => trivial)
        · trivial

/-- What a request knows after synchronous sections, and what it has written in them. -/
theorem settles_spec {K' : String → Prop} {m m' : Memory}
    (h : (ownership env request).Settles K m K' m') :
    (∀ cid, K' cid → K cid ∨ (ownership env request).shows m cid) ∧
      (env.isKvConfigured = false → ∀ cid, ∀ record ∈ m'.memoryRegistry cid,
        record ∈ m.memoryRegistry cid ∨ request.By record.ownerAddress ∧
          (K cid ∨ (ownership env request).shows m cid)) := by
  induction h with
  | refl K m => exact ⟨fun _ => .inl, fun _ _ _ => .inl⟩
  | @write K K' m m₁ m' hwrite _ ih =>
    obtain ⟨hknows, hwrites⟩ := ih
    have hbefore : ∀ cid, (K cid ∨ (ownership env request).shows m cid) ∨
        (ownership env request).shows m₁ cid → K cid ∨ (ownership env request).shows m cid := by
      rintro cid (h | ⟨hkv, record, hrecord, hby⟩)
      · exact h
      · rcases hwrite hkv cid record hrecord with hrecord | ⟨-, hK⟩
        · exact .inr ⟨hkv, record, hrecord, hby⟩
        · exact .inl hK
    refine ⟨fun cid h => hbefore cid (hknows cid h), fun hkv cid record hrecord => ?_⟩
    rcases hwrites hkv cid record hrecord with hrecord | ⟨hby, h⟩
    · rcases hwrite hkv cid record hrecord with hrecord | ⟨hby, hK⟩
      · exact .inl hrecord
      · exact .inr ⟨hby, .inl hK⟩
    · exact .inr ⟨hby, hbefore cid h⟩

end

/-! ### The wallets of a CID -/

/-- What the unpin route takes for a success. -/
def PinataReply.Unpinned : PinataReply → Prop
  | .rejected => False
  | .response status ipfsHash => (PinataReply.response status ipfsHash).ok ∨ status = 404

/-- Pinata has pinned content for the wallet under the CID. -/
def Uploads (wallet cid : String) : IpfsDeed → Prop
  | .perform request _ _ (.pinata upload) reply => request.By wallet ∧ upload.pinned? reply = some cid
  | _ => False

/-- Pinata has unpinned the CID for the wallet. -/
def Unpins (wallet cid : String) : IpfsDeed → Prop
  | .perform request _ _ (.pinata (.unpin c)) reply =>
    request.By wallet ∧ c = cid ∧ PinataReply.Unpinned reply
  | _ => False

/-- The wallet has uploaded content with the CID and not unpinned it since; the history is latest
first. -/
def Holds (wallet cid : String) : List IpfsDeed → Prop
  | [] => False
  | d :: h => Uploads wallet cid d ∨ Holds wallet cid h ∧ ¬ Unpins wallet cid d

/-- The ways in which a wallet may be concerned with a CID. -/
inductive Involved (env : Deployment) (h : List IpfsDeed) (s : IpfsFleet) (wallet cid : String) : Prop
  | holds : Holds wallet cid h → Involved env h s wallet cid
  /-- It is on record in the KV store. -/
  | recorded {e : Entry PinOwnerRecord} : env.isKvConfigured = true →
    s.store.kv.entry (.pinOwner cid) = some e → e.value.ownerAddress = wallet →
    Involved env h s wallet cid
  /-- There is no KV store, and it is on record in the memory of an instance. -/
  | remembered {host : ℕ} {record : PinOwnerRecord} : env.isKvConfigured = false →
    (s.memory host).memoryRegistry cid = some record → record.ownerAddress = wallet →
    Involved env h s wallet cid
  /-- A request of it that has not ended is about to record or to unpin the CID. -/
  | busy {task : Task IpfsRequest Memory Op Op.Reply (Option IpfsResponse)} : task ∈ s.tasks →
    task.process.result? = none → task.request.By wallet → task.rights (ownership env) cid →
    Involved env h s wallet cid

section

variable {env : Deployment} {faulty : Prop} {cidOf : PinataRequest → String} {h : List IpfsDeed}
  {s s' : IpfsFleet} {d : IpfsDeed} {wallet cid : String} {i t : ℕ}
  {task : Task IpfsRequest Memory Op Op.Reply (Option IpfsResponse)}

theorem IpfsRequest.By.unique {request : IpfsRequest} {other : String} (hby : request.By wallet)
    (hother : request.By other) : wallet = other := Except.ok.inj (hby.symm.trans hother)

/-- Whose CIDs a request may unpin when it gets there, and what it has put into the memory. -/
theorem involved_of_settle {q : Program (Option IpfsResponse)} {m : Memory}
    (hobeying : s.Obeying (ownership env)) (hi : s.tasks[i]? = some task)
    (hsettle : task.process.settle t (s.memory task.host) = (q, m)) :
    ∃ K, q.Obeys (ownership env task.request) (fun _ _ => True) K ∧
      (q.result? = none → ∀ cid, K cid → ∀ wallet, task.request.By wallet →
        Involved env h s wallet cid) ∧
      (env.isKvConfigured = false → ∀ cid, ∀ record ∈ m.memoryRegistry cid,
        record ∈ (s.memory task.host).memoryRegistry cid ∨
          Involved env h s record.ownerAddress cid) := by
  have htask : task ∈ s.tasks := List.mem_of_getElem? hi
  -- a request that is answered stays as it is
  have hdone : ∀ a, task.process = .done a → q = .done a ∧ m = s.memory task.host := by
    intro a ha
    rw [ha] at hsettle
    obtain ⟨rfl, rfl⟩ := Prod.mk.inj hsettle
    exact ⟨rfl, rfl⟩
  obtain ⟨K, hsettles, hobeys⟩ := (hobeying task htask).settle hsettle
  obtain ⟨hknows, hwrites⟩ := settles_spec hsettles
  -- what the request may know: its own rights, or a record in the memory of its host
  have hinvolved : task.process.result? = none → ∀ cid,
      task.rights (ownership env) cid ∨
        (ownership env task.request).shows (s.memory task.host) cid →
      ∀ wallet, task.request.By wallet → Involved env h s wallet cid := by
    rintro hnone cid (hrights | ⟨hkv, record, hrecord, hby⟩) wallet hwallet
    · exact .busy htask hnone hwallet hrights
    · exact .remembered hkv hrecord (hby.unique hwallet)
  refine ⟨K, hobeys, fun hq cid hK => hinvolved ?_ cid (hknows cid hK),
    fun hkv cid record hrecord => ?_⟩
  · cases hprocess : task.process with
    | done a =>
      obtain ⟨rfl, -⟩ := hdone a hprocess
      cases hq
    | _ => rfl
  · cases hprocess : task.process with
    | done a =>
      obtain ⟨-, rfl⟩ := hdone a hprocess
      exact .inl hrecord
    | _ =>
      refine (hwrites hkv cid record hrecord).imp_right fun ⟨hby, hK⟩ => ?_
      exact hinvolved (by rw [hprocess]; rfl) cid hK _ hby

/-- How a memory comes to have a record. -/
theorem involved_of_update {q : Program (Option IpfsResponse)} {m : Memory} {host : ℕ}
    {record : PinOwnerRecord} (hkv : env.isKvConfigured = false)
    (hobeying : s.Obeying (ownership env)) (hi : s.tasks[i]? = some task)
    (hsettle : task.process.settle t (s.memory task.host) = (q, m))
    (hrecord : (Function.update s.memory task.host m host).memoryRegistry cid = some record) :
    Involved env h s record.ownerAddress cid := by
  by_cases hhost : host = task.host
  · subst hhost
    rw [Function.update_self] at hrecord
    obtain ⟨-, -, -, hwrites⟩ := involved_of_settle (h := h) hobeying hi hsettle
    rcases hwrites hkv cid record hrecord with hbefore | hinvolved
    · exact .remembered hkv hbefore rfl
    · exact hinvolved
  · rw [Function.update_of_ne hhost] at hrecord
    exact .remembered hkv hrecord rfl

/-- How the KV store comes to have a record. -/
theorem entry_of_answers {store store' : Services} {op : Op} {r : op.Reply} {e : Entry PinOwnerRecord}
    (hans : Answers faulty cidOf t store op r store') (he : store'.kv.entry (.pinOwner cid) = some e) :
    store.kv.entry (.pinOwner cid) = some e ∨ ∃ ex, op = .kvSet (.pinOwner cid) e.value ex := by
  -- only a write under this content's own key makes a new record
  cases op with
  | kvGet k =>
    obtain ⟨rfl, -⟩ := hans
    exact .inl he
  | kvSet k v ex =>
    have hset : (store.kv.set t k v (ex.map (· * 1000))).entry (.pinOwner cid) = some e →
        store.kv.entry (.pinOwner cid) = some e ∨
          ∃ ex', Op.kvSet k v ex = .kvSet (.pinOwner cid) e.value ex' := by
      intro he
      by_cases hk : Key.pinOwner cid = k
      · subst hk
        rw [Expiring.entry_set_self] at he
        obtain rfl := Option.some.inj he
        exact .inr ⟨ex, rfl⟩
      · rw [Expiring.entry_set_ne hk] at he
        exact .inl he
    obtain ⟨-, rfl⟩ | ⟨-, -, rfl | rfl⟩ := hans
    · exact hset he
    · exact .inl he
    · exact hset he
  | kvDel k =>
    have hdel : (store.kv.del k).entry (.pinOwner cid) = some e →
        store.kv.entry (.pinOwner cid) = some e := by
      intro he
      by_cases hk : Key.pinOwner cid = k
      · subst hk
        rw [Expiring.entry_del_self] at he
        cases he
      · rwa [Expiring.entry_del_ne hk] at he
    obtain ⟨-, rfl⟩ | ⟨-, -, rfl | rfl⟩ := hans
    · exact .inl (hdel he)
    · exact .inl he
    · exact .inl (hdel he)
  | randomBytes =>
    obtain ⟨-, rfl⟩ := hans
    exact .inl he
  | pinata _ =>
    obtain ⟨rfl, -⟩ := hans
    exact .inl he

/-- How a request comes to know of a CID. -/
theorem uploads_or_recorded_of_entitles {request : IpfsRequest} {op : Op} {r : op.Reply}
    {store' : Services} {K : String → Prop} (hmay : (ownership env request).may K op)
    (hans : Answers faulty cidOf t s.store op r store') (hentitles : Entitles request cid op r)
    (hby : request.By wallet) :
    Uploads wallet cid (.perform request i t op r) ∨ Involved env h s wallet cid := by
  cases op with
  | kvGet k =>
    cases k with
    | pinOwner c =>
      obtain ⟨-, rfl | ⟨-, e, rfl⟩⟩ := hans
      · cases hget : s.store.kv.get t (.pinOwner c) with
        | none =>
          rw [hget] at hentitles
          exact hentitles.elim
        | some record =>
          rw [hget] at hentitles
          obtain ⟨rfl, howner⟩ := hentitles
          obtain ⟨e, he, -, rfl⟩ := Expiring.get_eq_some.mp hget
          exact .inr (.recorded hmay he (howner.unique hby))
      · exact hentitles.elim
    | _ => exact hentitles.elim
  | pinata upload => exact .inl ⟨hby, hentitles⟩
  | _ => exact hentitles.elim

/-- **Only an upload makes a wallet concerned with a CID.** -/
theorem Involved.of_step (hs : IpfsStep env faulty cidOf s d s') (hobeying : s.Obeying (ownership env))
    (hinvolved : Involved env (d :: h) s' wallet cid) :
    Uploads wallet cid d ∨ Involved env h s wallet cid := by
  -- where the involvement comes from, against what the deed was
  cases hinvolved with
  | holds hholds => exact hholds.imp_right fun hholds => .holds hholds.1
  | recorded hkv he howner =>
    cases hs with
    | arrive => exact .inr (.recorded hkv he howner)
    | finish => exact .inr (.recorded hkv he howner)
    | perform _ hi _ hsettle hans =>
      rcases entry_of_answers hans he with he | ⟨ex, rfl⟩
      · exact .inr (.recorded hkv he howner)
      · -- the record was written just now, by a request that had the right to
        obtain ⟨K, hobeys, hknows, -⟩ := involved_of_settle hobeying hi hsettle
        obtain ⟨hby, hK⟩ := hobeys.1
        exact .inr (hknows rfl _ hK _ (howner ▸ hby))
  | @remembered host record hkv hrecord howner =>
    cases hs with
    | arrive => exact .inr (.remembered hkv hrecord howner)
    | finish _ hi hsettle =>
      exact .inr (howner ▸ involved_of_update hkv hobeying hi hsettle hrecord)
    | perform _ hi _ hsettle _ =>
      exact .inr (howner ▸ involved_of_update hkv hobeying hi hsettle hrecord)
  | busy htask hnone hby hrights =>
    cases hs with
    | arrive =>
      rcases List.mem_append.mp htask with htask | htask
      · exact .inr (.busy htask hnone hby hrights)
      · rw [List.mem_singleton.mp htask, Task.rights_arrive] at hrights
        exact hrights.elim
    | finish _ hi hsettle =>
      rcases List.mem_or_eq_of_mem_set htask with htask | rfl
      · exact .inr (.busy htask hnone hby hrights)
      · cases hnone
    | perform _ hi hrequest hsettle hans =>
      -- the request that moved, or another one that was busy before
      rcases List.mem_or_eq_of_mem_set htask with htask | rfl
      · exact .inr (.busy htask hnone hby hrights)
      · obtain rfl := hrequest
        obtain ⟨K, hobeys, -, -⟩ := involved_of_settle (h := h) hobeying hi hsettle
        rw [Task.rights_perform] at hrights
        exact uploads_or_recorded_of_entitles hobeys.1 hans hrights hby

/-! ### One wallet for a CID -/

/-- Nothing has been pinned. -/
structure NothingPinned (s : IpfsFleet) : Prop where
  tasks : s.tasks = []
  recorded : ∀ cid, s.store.kv.entry (.pinOwner cid) = none
  remembered : ∀ host cid, (s.memory host).memoryRegistry cid = none

/-- When Pinata has pinned content for a wallet, no other wallet is concerned with the CID. -/
def OwnContent (env : Deployment) (h : List IpfsDeed) (s : IpfsFleet) (d : IpfsDeed) : Prop :=
  ∀ wallet cid, Uploads wallet cid d → ∀ other, Involved env h s other cid → other = wallet

/-- Every CID has one wallet at most. -/
structure Exclusive (env : Deployment) (h : List IpfsDeed) (s : IpfsFleet) : Prop where
  obeying : s.Obeying (ownership env)
  unique : ∀ cid wallet other, Involved env h s wallet cid → Involved env h s other cid → other = wallet

theorem NothingPinned.exclusive (hnothing : NothingPinned s) : Exclusive env [] s where
  obeying task htask := by simp [hnothing.tasks] at htask
  unique cid wallet other hwallet _ := by
    cases hwallet with
    | holds hholds => exact hholds.elim
    | recorded _ he _ =>
      rw [hnothing.recorded] at he
      cases he
    | remembered _ hrecord _ =>
      rw [hnothing.remembered] at hrecord
      cases hrecord
    | busy htask _ _ _ => simp [hnothing.tasks] at htask

theorem Holds.append {h' : List IpfsDeed} (hholds : Holds wallet cid h)
    (hunpins : ∀ d ∈ h', ¬ Unpins wallet cid d) : Holds wallet cid (h' ++ h) := by
  induction h' with
  | nil => exact hholds
  | cons d h' ih =>
    obtain ⟨hd, hrest⟩ := List.forall_mem_cons.mp hunpins
    exact .inr ⟨ih hrest, hd⟩

theorem Uploads.unique {other : String} (hwallet : Uploads wallet cid d)
    (hother : Uploads other cid d) : other = wallet := by
  match d, hwallet, hother with
  | .perform _ _ _ (.pinata _) _, ⟨hwallet, _⟩, ⟨hother, _⟩ => exact hother.unique hwallet

/-- Ownership stays exclusive under a step that is about own content. -/
theorem Exclusive.step (hexclusive : Exclusive env h s) (hown : OwnContent env h s d)
    (hs : IpfsStep env faulty cidOf s d s') : Exclusive env (d :: h) s' where
  obeying := hs.obeying (fun _ => obeys_ipfsRoute) hexclusive.obeying
  unique cid wallet other hwallet hother := by
    rcases hwallet.of_step hs hexclusive.obeying with hwallet | hwallet <;>
      rcases hother.of_step hs hexclusive.obeying with hother | hother
    · exact hwallet.unique hother
    · exact hown wallet cid hwallet other hother
    · exact (hown other cid hother wallet hwallet).symm
    · exact hexclusive.unique cid wallet other hwallet hother

/-- **A wallet unpins its own content only**, in a run in which no content is pinned for a wallet while
another is concerned with its CID. -/
theorem own_of_unpin {s₀ : IpfsFleet} {request : IpfsRequest} {r : PinataReply} {other : String}
    (hnothing : NothingPinned s₀)
    (hr : Guarded (IpfsStep env faulty cidOf) (OwnContent env) s₀ h s)
    (hs : IpfsStep env faulty cidOf s (.perform request i t (.pinata (.unpin cid)) r) s')
    (hby : request.By wallet) (hother : Holds other cid h) : other = wallet := by
  have hexclusive : Exclusive env h s :=
    hr.invariant (fun hexclusive hown hs => hexclusive.step hown hs) hnothing.exclusive
  cases hs with
  | perform _ hi hrequest hsettle _ =>
    obtain rfl := hrequest
    obtain ⟨K, hobeys, hknows, -⟩ := involved_of_settle (h := h) hexclusive.obeying hi hsettle
    have hwallet : Involved env h s wallet cid := hknows rfl cid hobeys.1 wallet hby
    exact hexclusive.unique cid wallet other hwallet (.holds hother)

end

/-- The CID of a document. -/
def sampleCid : String := "QmXoypizjW3WknFiJnKLwHCnL72vedxjQkDDP1mXWo6uco"

/-- A server that has had no requests. -/
def noUploads : IpfsFleet := ⟨0, fun _ => {}, {}, []⟩

theorem nothingPinned_noUploads : NothingPinned noUploads := ⟨rfl, fun _ => rfl, fun _ _ => rfl⟩

/-- A wallet uploads the document. -/
def sampleUpload (wallet : String) : IpfsRequest :=
  ⟨true, .ok wallet, .uploadJson (.ok ("\x7b\"name\":\"Gold\"\x7d", "gold"))⟩

/-- A wallet has it unpinned. -/
def sampleUnpin (wallet : String) : IpfsRequest := ⟨true, .ok wallet, .unpin (some sampleCid)⟩

/-- Pinata pins the content of the upload. -/
def samplePin (i : ℕ) (wallet : String) : IpfsDeed :=
  .perform (sampleUpload wallet) i 0 (.pinata (.pinJSONToIPFS "\x7b\"name\":\"Gold\"\x7d" "gold"))
    (.response 200 (some sampleCid))

/-- Pinata unpins the content. -/
def sampleDelete (i : ℕ) (wallet : String) : IpfsDeed :=
  .perform (sampleUnpin wallet) i 0 (.pinata (.unpin sampleCid)) (.response 200 none)

/-- A request arrives, and the buckets of its wallet have room; latest first. -/
def samplePassed (i : ℕ) (request : IpfsRequest) (wallet : String) (window : Option Bucket)
    (day : Option ℕ) (count : ℕ) : List IpfsDeed :=
  [.perform request i 0 (.kvSet (.day (.action wallet)) count (some DAY_EX)) (.ok ()),
    .perform request i 0 (.kvGet (.day (.action wallet))) (.ok day),
    .perform request i 0 (.kvSet (.window (.action wallet)) ⟨count, 0⟩ (some WINDOW_EX)) (.ok ()),
    .perform request i 0 (.kvGet (.window (.action wallet))) (.ok window), .arrive request 0]

/-- An upload of the wallet, latest first. -/
def sampleUploaded (i : ℕ) (wallet : String) : List IpfsDeed :=
  .perform (sampleUpload wallet) i 0 (.kvSet (.pinOwner sampleCid) ⟨wallet, 0⟩ none) (.ok ()) ::
    samplePin i wallet :: samplePassed i (sampleUpload wallet) wallet none none 1

/-! ### Two wallets with content of their own -/

/-- The CID of another document. -/
def otherCid : String := "QmYwAPJzv5CZsnA625s3Xf2nemtYgPpHdWEz79ojWKPbdG"

/-- Another document. -/
def otherUpload : IpfsRequest :=
  ⟨true, .ok "GBOB", .uploadJson (.ok ("\x7b\"name\":\"Silver\"\x7d", "silver"))⟩

/-- The other wallet has its own document unpinned. -/
def otherUnpin : IpfsRequest := ⟨true, .ok "GBOB", .unpin (some otherCid)⟩

/-- The other document is pinned. -/
def otherPin : IpfsDeed :=
  .perform otherUpload 1 0 (.pinata (.pinJSONToIPFS "\x7b\"name\":\"Silver\"\x7d" "silver"))
    (.response 200 (some otherCid))

/-- It is unpinned. -/
def otherDelete : IpfsDeed :=
  .perform otherUnpin 2 0 (.pinata (.unpin otherCid)) (.response 200 none)

/-- The CIDs of the two documents. -/
def cidOfDocument : PinataRequest → String
  | .pinJSONToIPFS _ name => if name = "gold" then sampleCid else otherCid
  | _ => sampleCid

/-- Two wallets upload a document each, and the request of the second to unpin its own gets as far as the
record. -/
def sampleOwn : List IpfsDeed :=
  .perform otherUnpin 2 0 (.kvGet (.pinOwner otherCid)) (.ok (some ⟨"GBOB", 0⟩)) ::
    (samplePassed 2 otherUnpin "GBOB" (some ⟨1, 0⟩) (some 1) 2 ++
      (.perform otherUpload 1 0 (.kvSet (.pinOwner otherCid) ⟨"GBOB", 0⟩ none) (.ok ()) :: otherPin ::
        (samplePassed 1 otherUpload "GBOB" none none 1 ++ sampleUploaded 0 "GALICE")))

/-- Content is pinned for a wallet, which alone is at work and has it on record nowhere. -/
theorem ownContent_of_new {env : Deployment} {h : List IpfsDeed} {s : IpfsFleet} {d : IpfsDeed}
    {wallet cid : String} (hkv : env.isKvConfigured = true)
    (huploads : ∀ wallet' cid', Uploads wallet' cid' d → wallet' = wallet ∧ cid' = cid)
    (hholds : ∀ other, ¬ Holds other cid h) (hrecord : s.store.kv.entry (.pinOwner cid) = none)
    (htasks : ∀ task ∈ s.tasks, task.process.result? = none → task.request.By wallet) :
    OwnContent env h s d := by
  intro wallet' cid' hupload other hinvolved
  obtain ⟨rfl, rfl⟩ := huploads wallet' cid' hupload
  cases hinvolved with
  | holds hother => exact absurd hother (hholds other)
  | recorded _ he _ =>
    rw [hrecord] at he
    cases he
  | remembered hno _ _ =>
    rw [hkv] at hno
    cases hno
  | busy htask hresult hby _ => exact hby.unique (htasks _ htask hresult)

theorem uploads_samplePin {i : ℕ} {owner wallet cid : String}
    (h : Uploads wallet cid (samplePin i owner)) : wallet = owner ∧ cid = sampleCid :=
  ⟨(Except.ok.inj h.1).symm, (Option.some.inj h.2).symm⟩

theorem uploads_otherPin {wallet cid : String} (h : Uploads wallet cid otherPin) :
    wallet = "GBOB" ∧ cid = otherCid :=
  ⟨(Except.ok.inj h.1).symm, (Option.some.inj h.2).symm⟩

/-- Nothing has been uploaded before the first document. -/
theorem not_holds_first (other : String) :
    ¬ Holds other sampleCid (samplePassed 0 (sampleUpload "GALICE") "GALICE" none none 1) := by
  simp [samplePassed, Holds, Uploads]

/-- And only that before the second one. -/
theorem not_holds_second (other : String) :
    ¬ Holds other otherCid
      (samplePassed 1 otherUpload "GBOB" none none 1 ++ sampleUploaded 0 "GALICE") := by
  intro hholds
  have hpin : Uploads other otherCid (samplePin 0 "GALICE") := by
    simpa [samplePassed, sampleUploaded, Holds, Uploads, Unpins, samplePin] using hholds
  exact absurd (uploads_samplePin hpin).2 (by decide)

theorem guarded_sampleOwn : ∃ s s',
    Guarded (IpfsStep sampleDeployment False cidOfDocument) (OwnContent sampleDeployment) noUploads
      sampleOwn s ∧
    IpfsStep sampleDeployment False cidOfDocument s otherDelete s' :=
  -- limiter, pin and record of the first wallet, then of the other, then the unpinning
  ⟨_, _, .snoc (.snoc (.snoc (.snoc (.snoc (.snoc (.snoc (.snoc (.snoc (.snoc (.snoc (.snoc (.snoc
      (.snoc (.snoc (.snoc (.snoc (.snoc (.snoc (.snoc .nil
      (fun _ _ h => h.elim) .arrive)
      (fun _ _ h => h.elim) (.perform (Nat.le_refl _) rfl rfl rfl ⟨rfl, .inl rfl⟩))
      (fun _ _ h => h.elim) (.perform (Nat.le_refl _) rfl rfl rfl (.inl ⟨rfl, rfl⟩)))
      (fun _ _ h => h.elim) (.perform (Nat.le_refl _) rfl rfl rfl ⟨rfl, .inl rfl⟩))
      (fun _ _ h => h.elim) (.perform (Nat.le_refl _) rfl rfl rfl (.inl ⟨rfl, rfl⟩)))
      (ownContent_of_new rfl (fun _ _ => uploads_samplePin) not_holds_first rfl
        (List.forall_mem_singleton.mpr fun _ => rfl))
      (.perform (Nat.le_refl _) rfl rfl rfl ⟨rfl, fun _ _ h => (PinataReply.response.inj h).2⟩))
      (fun _ _ h => h.elim) (.perform (Nat.le_refl _) rfl rfl rfl (.inl ⟨rfl, rfl⟩)))
      (fun _ _ h => h.elim) .arrive)
      (fun _ _ h => h.elim) (.perform (Nat.le_refl _) rfl rfl rfl ⟨rfl, .inl rfl⟩))
      (fun _ _ h => h.elim) (.perform (Nat.le_refl _) rfl rfl rfl (.inl ⟨rfl, rfl⟩)))
      (fun _ _ h => h.elim) (.perform (Nat.le_refl _) rfl rfl rfl ⟨rfl, .inl rfl⟩))
      (fun _ _ h => h.elim) (.perform (Nat.le_refl _) rfl rfl rfl (.inl ⟨rfl, rfl⟩)))
      (ownContent_of_new rfl (fun _ _ => uploads_otherPin) not_holds_second rfl
        (List.forall_mem_cons.mpr ⟨fun h => absurd h (Option.some_ne_none _),
          List.forall_mem_singleton.mpr fun _ => rfl⟩))
      (.perform (Nat.le_refl _) rfl rfl rfl ⟨rfl, fun _ _ h => (PinataReply.response.inj h).2⟩))
      (fun _ _ h => h.elim) (.perform (Nat.le_refl _) rfl rfl rfl (.inl ⟨rfl, rfl⟩)))
      (fun _ _ h => h.elim) .arrive)
      (fun _ _ h => h.elim) (.perform (Nat.le_refl _) rfl rfl rfl ⟨rfl, .inl rfl⟩))
      (fun _ _ h => h.elim) (.perform (Nat.le_refl _) rfl rfl rfl (.inl ⟨rfl, rfl⟩)))
      (fun _ _ h => h.elim) (.perform (Nat.le_refl _) rfl rfl rfl ⟨rfl, .inl rfl⟩))
      (fun _ _ h => h.elim) (.perform (Nat.le_refl _) rfl rfl rfl (.inl ⟨rfl, rfl⟩)))
      (fun _ _ h => h.elim) (.perform (Nat.le_refl _) rfl rfl rfl ⟨rfl, .inl rfl⟩),
    .perform (Nat.le_refl _) rfl rfl rfl ⟨rfl, nofun⟩⟩

/-- The second wallet unpins its own document, and the first one has its own still. -/
theorem own_of_unpin_sampleOwn :
    Holds "GALICE" sampleCid sampleOwn ∧ Holds "GBOB" otherCid sampleOwn ∧
      ∀ other, Holds other otherCid sampleOwn → other = "GBOB" := by
  obtain ⟨s, s', hr, hs⟩ := guarded_sampleOwn
  refine ⟨?_, ?_, fun other hother => own_of_unpin nothingPinned_noUploads hr hs rfl hother⟩
  · simp [sampleOwn, samplePassed, sampleUploaded, samplePin, otherPin, Holds, Uploads, Unpins,
      PinataRequest.pinned?, IpfsRequest.By, sampleUpload, otherUpload]
    rfl
  · simp [sampleOwn, samplePassed, sampleUploaded, samplePin, otherPin, Holds, Uploads, Unpins,
      PinataRequest.pinned?, IpfsRequest.By, sampleUpload, otherUpload]
    rfl

/-! ### Two wallets with the same content -/

/-- Both wallets upload, and then the request of the second to unpin gets as far as the record. -/
def sampleBoth : List IpfsDeed :=
  .perform (sampleUnpin "GBOB") 2 0 (.kvGet (.pinOwner sampleCid)) (.ok (some ⟨"GBOB", 0⟩)) ::
    (samplePassed 2 (sampleUnpin "GBOB") "GBOB" (some ⟨1, 0⟩) (some 1) 2 ++
      (sampleUploaded 1 "GBOB" ++ sampleUploaded 0 "GALICE"))

theorem run_sampleBoth : ∃ s s',
    Run (IpfsStep sampleDeployment False fun _ => sampleCid) noUploads sampleBoth s ∧
    s.result? 0 = some (some ⟨200, .cid sampleCid⟩) ∧ s.result? 1 = some (some ⟨200, .cid sampleCid⟩) ∧
    IpfsStep sampleDeployment False (fun _ => sampleCid) s (sampleDelete 2 "GBOB") s' :=
  -- both wallets pin the same content, and the second record replaces the first
  ⟨_, _, .snoc (.snoc (.snoc (.snoc (.snoc (.snoc (.snoc (.snoc (.snoc (.snoc (.snoc (.snoc (.snoc
      (.snoc (.snoc (.snoc (.snoc (.snoc (.snoc (.snoc .nil
      .arrive)
      (.perform (Nat.le_refl _) rfl rfl rfl ⟨rfl, .inl rfl⟩))
      (.perform (Nat.le_refl _) rfl rfl rfl (.inl ⟨rfl, rfl⟩)))
      (.perform (Nat.le_refl _) rfl rfl rfl ⟨rfl, .inl rfl⟩))
      (.perform (Nat.le_refl _) rfl rfl rfl (.inl ⟨rfl, rfl⟩)))
      (.perform (Nat.le_refl _) rfl rfl rfl ⟨rfl, fun _ _ h => (PinataReply.response.inj h).2⟩))
      (.perform (Nat.le_refl _) rfl rfl rfl (.inl ⟨rfl, rfl⟩)))
      .arrive)
      (.perform (Nat.le_refl _) rfl rfl rfl ⟨rfl, .inl rfl⟩))
      (.perform (Nat.le_refl _) rfl rfl rfl (.inl ⟨rfl, rfl⟩)))
      (.perform (Nat.le_refl _) rfl rfl rfl ⟨rfl, .inl rfl⟩))
      (.perform (Nat.le_refl _) rfl rfl rfl (.inl ⟨rfl, rfl⟩)))
      (.perform (Nat.le_refl _) rfl rfl rfl ⟨rfl, fun _ _ h => (PinataReply.response.inj h).2⟩))
      (.perform (Nat.le_refl _) rfl rfl rfl (.inl ⟨rfl, rfl⟩)))
      .arrive)
      (.perform (Nat.le_refl _) rfl rfl rfl ⟨rfl, .inl rfl⟩))
      (.perform (Nat.le_refl _) rfl rfl rfl (.inl ⟨rfl, rfl⟩)))
      (.perform (Nat.le_refl _) rfl rfl rfl ⟨rfl, .inl rfl⟩))
      (.perform (Nat.le_refl _) rfl rfl rfl (.inl ⟨rfl, rfl⟩)))
      (.perform (Nat.le_refl _) rfl rfl rfl ⟨rfl, .inl rfl⟩),
    rfl, rfl, .perform (Nat.le_refl _) rfl rfl rfl ⟨rfl, nofun⟩⟩

/-- **A wallet unpins the content of another**: both have uploaded it, and the later upload has replaced
the record of the earlier one. -/
theorem not_own_of_unpin : ∃ h s s',
    Run (IpfsStep sampleDeployment False fun _ => sampleCid) noUploads h s ∧
    s.result? 0 = some (some ⟨200, .cid sampleCid⟩) ∧
    s.result? 1 = some (some ⟨200, .cid sampleCid⟩) ∧ Holds "GALICE" sampleCid h ∧
    IpfsStep sampleDeployment False (fun _ => sampleCid) s (sampleDelete 2 "GBOB") s' := by
  obtain ⟨s, s', hr, halice, hbob, hs⟩ := run_sampleBoth
  refine ⟨sampleBoth, s, s', hr, halice, hbob, ?_, hs⟩
  have hholds : Holds "GALICE" sampleCid (samplePin 0 "GALICE" ::
      samplePassed 0 (sampleUpload "GALICE") "GALICE" none none 1) := .inl ⟨rfl, rfl⟩
  show Holds "GALICE" sampleCid (sampleBoth.take 14 ++ _)
  refine hholds.append ?_
  simp [sampleBoth, sampleUploaded, samplePassed, samplePin, Unpins]

end StellarForge.Server
