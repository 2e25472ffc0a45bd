import StellarForge.Factory.Token
import StellarForge.Pinning.Reconciliation

/-!
# Live content under reconciliation

A CID is live when it is the root of a current metadata URI, when the document at such a URI names
it as its image, or when one of its rows is inside the grace window.  A run compares pins with the
texts after `ipfs://` only:

* `mem_classifyPins`: the rows that a run unpins;
* `keepsLiveContent_iff`: **the accounts whose live content a run keeps**;
* `not_keepsLiveContent_sampleUpload`: one upload, a day later.
-/

namespace StellarForge.Pinning

open Text

/-! ### What is live -/

/-- The CID that a URI resolves through: what follows `ipfs://`, up to a path. -/
def rootCid (uri : String) : Option String :=
  (afterPrefix "ipfs://".toList uri.toList).map fun rest =>
    String.ofList (rest.takeWhile fun c => c ≠ '/' ∧ c ≠ '?' ∧ c ≠ '#')

/-- The row is inside the grace window. -/
def InsideGrace (getTime : DateParser) (now : ℤ) (pin : PinataPin) : Prop :=
  ∃ pinnedAt ∈ getTime pin.datePinned, now - pinnedAt ≤ GRACE_WINDOW_MS

/-- The row is older than the grace window. -/
def PastGrace (getTime : DateParser) (now : ℤ) (pin : PinataPin) : Prop :=
  ∃ pinnedAt ∈ getTime pin.datePinned, GRACE_WINDOW_MS < now - pinnedAt

/-- The content of a CID is in use: `imageOf uri` is the CID that the image field of the document
at `uri` names. -/
def Live (getTime : DateParser) (now : ℤ) (account : List PinataPin) (uris : List String)
    (imageOf : String → Option String) (cid : String) : Prop :=
  (∃ uri ∈ uris, rootCid uri = some cid) ∨ (∃ uri ∈ uris, imageOf uri = some cid) ∨
    ∃ pin ∈ account, pin.ipfsPinHash = cid ∧ InsideGrace getTime now pin

/-- The CID itself is one of the URIs: as `ipfs://<cid>`, or bare. -/
def Named (uris : List String) (cid : String) : Prop :=
  ∃ uri ∈ uris, matchIpfsUri uri = some cid ∨
    (uri = cid ∧ matchIpfsUri uri = none ∧ looksLikeCid uri = true)

/-- A run deletes nothing live. -/
def KeepsLiveContent (around : Surroundings) (now : ℤ) (options : ReconciliationOptions)
    (account : List PinataPin) (uris : List String) (imageOf : String → Option String) : Prop :=
  ∀ cid ∈ (runReconciliation around now options).2,
    ¬ Live around.getTime now account uris imageOf cid

/-! ### What is unpinned -/

theorem extractCid_eq_some_iff {uri cid : String} :
    extractCid uri = some cid ↔ matchIpfsUri uri = some cid ∨
      (uri = cid ∧ matchIpfsUri uri = none ∧ looksLikeCid uri = true) := by
  rw [extractCid]
  rcases hmatch : matchIpfsUri uri with _ | c
  · by_cases hbare : looksLikeCid uri = true
    · simp [hbare]
    · simp [hbare]
  · simp

theorem mem_extractCids_iff {uris : List String} {cid : String} :
    cid ∈ extractCidsFromMetadataUris uris ↔ Named uris cid := by
  rw [extractCidsFromMetadataUris, List.mem_filterMap, Named]
  simp only [extractCid_eq_some_iff]

theorem isStale_iff {getTime : DateParser} {now : ℤ} {pin : PinataPin} :
    isStale getTime now GRACE_WINDOW_MS pin = true ↔ PastGrace getTime now pin := by
  rw [isStale, PastGrace]
  rcases htime : getTime pin.datePinned with _ | pinnedAt
  · simp
  · simp only [Option.mem_some_iff, exists_eq_left', not_le, decide_eq_true_eq]

/-- The rows that are selected, in their order: not in use, and past the grace window. -/
theorem classifyPins_fst {getTime : DateParser} {cidInUse : List String} {now graceMs : ℤ}
    {pins : List PinataPin} :
    (classifyPins getTime cidInUse now graceMs pins).1 =
      (pins.filter fun pin => !cidInUse.contains pin.ipfsPinHash &&
        isStale getTime now graceMs pin).map PinataPin.ipfsPinHash := by
  induction pins with
  | nil => rfl
  | cons pin pins ih =>
    rw [classifyPins, List.filter_cons]
    by_cases hused : cidInUse.contains pin.ipfsPinHash = true
    · simp only [hused, if_true, Bool.not_true, Bool.false_and, Bool.false_eq_true, if_false, ih]
    · by_cases hstale : isStale getTime now graceMs pin = true
      · simp only [hused, hstale, Bool.not_false, Bool.and_self, if_true, Bool.false_eq_true,
          if_false, List.map_cons, ih]
      · simp only [hused, hstale, Bool.and_false, Bool.false_eq_true, if_false, ih]

/-- A CID is unpinned for every row of it that is past the grace window, unless it is in use. -/
theorem mem_classifyPins {getTime : DateParser} {cidInUse : List String} {now : ℤ}
    {pins : List PinataPin} {cid : String} :
    cid ∈ (classifyPins getTime cidInUse now GRACE_WINDOW_MS pins).1 ↔
      cid ∉ cidInUse ∧ ∃ pin ∈ pins, pin.ipfsPinHash = cid ∧ PastGrace getTime now pin := by
  rw [classifyPins_fst, List.mem_map]
  constructor
  · rintro ⟨pin, hpin, rfl⟩
    obtain ⟨hmem, hselected⟩ := List.mem_filter.mp hpin
    rw [Bool.and_eq_true, isStale_iff] at hselected
    have hnot : pin.ipfsPinHash ∉ cidInUse := by simpa using hselected.1
    exact ⟨hnot, pin, hmem, rfl, hselected.2⟩
  · rintro ⟨hnot, pin, hmem, rfl, hpast⟩
    refine ⟨pin, List.mem_filter.mpr ⟨hmem, ?_⟩, rfl⟩
    rw [Bool.and_eq_true, isStale_iff]
    exact ⟨by simpa using hnot, hpast⟩

/-- The pins that a run with an open gate selects. -/
def selection (around : Surroundings) (now : ℤ) (account : List PinataPin) (uris : List String) :
    List String :=
  (classifyPins around.getTime (extractCidsFromMetadataUris uris) now GRACE_WINDOW_MS account).1

/-- The gate does not refuse: there is no check, or it answers `ready`. -/
def GateOpen (options : ReconciliationOptions) : Prop :=
  ∀ gate ∈ options.gate, gate.ready = true

/-- With an open gate and complete inputs a run sends its DELETE requests for the selection, unless
the breaker trips or it is a dry run. -/
theorem runReconciliation_unpins {around : Surroundings} {now : ℤ}
    {options : ReconciliationOptions} {account : List PinataPin} {uris : List String}
    (hgate : GateOpen options) (haccount : around.account = .ok account)
    (huris : around.metadataUris = .ok uris)
    (hbreaker : ¬ circuitBreakerTrips options account (selection around now account uris)) :
    (runReconciliation around now options).2 =
      if options.dryRun then [] else selection around now account uris := by
  have hopen : ∀ detail, options.gate ≠ some ⟨false, detail⟩ := by
    intro detail heq
    have hready : (⟨false, detail⟩ : ReconciliationGate).ready = true := hgate _ heq
    cases hready
  rw [selection] at hbreaker
  rw [runReconciliation]
  split
  · next detail heq => exact absurd heq (hopen detail)
  · simp only [haccount, huris, listAllPins_eq, if_neg hbreaker]
    split <;> rfl

/-! ### Live content -/

/-- **When a run deletes nothing live**: it is a dry run, or every row past the grace window whose
CID is live is a row of a CID that is itself one of the URIs. -/
theorem keepsLiveContent_iff {around : Surroundings} {now : ℤ}
    {options : ReconciliationOptions} {account : List PinataPin} {uris : List String}
    (imageOf : String → Option String) (hgate : GateOpen options)
    (haccount : around.account = .ok account) (huris : around.metadataUris = .ok uris)
    (hbreaker : ¬ circuitBreakerTrips options account (selection around now account uris)) :
    KeepsLiveContent around now options account uris imageOf ↔
      options.dryRun = true ∨ ∀ pin ∈ account, PastGrace around.getTime now pin →
        Live around.getTime now account uris imageOf pin.ipfsPinHash →
          Named uris pin.ipfsPinHash := by
  rw [KeepsLiveContent, runReconciliation_unpins hgate haccount huris hbreaker]
  by_cases hdry : options.dryRun = true
  · simp [hdry]
  · -- a dry run unpins nothing; otherwise a live pin is at stake only past the grace period
    rw [if_neg hdry]
    constructor
    · intro hkeeps
      refine .inr fun pin hpin hpast hlive => ?_
      by_contra hnot
      have hunused : pin.ipfsPinHash ∉ extractCidsFromMetadataUris uris :=
        fun hmem => hnot (mem_extractCids_iff.mp hmem)
      -- what is selected is named by no URI, so a live one was named after all
      exact hkeeps pin.ipfsPinHash (mem_classifyPins.mpr ⟨hunused, pin, hpin, rfl, hpast⟩) hlive
    · rintro (hcontra | hnamed) cid hselected hlive
      · exact absurd hcontra hdry
      · obtain ⟨hunused, pin, hpin, rfl, hpast⟩ := mem_classifyPins.mp hselected
        exact hunused (mem_extractCids_iff.mpr (hnamed pin hpin hpast hlive))

/-! ### One upload -/

/-- The bytes of an ASCII text. -/
def asciiBytes (text : String) : Factory.Bytes :=
  text.toList.map fun c => UInt8.ofNat c.toNat

/-- An upload pins the image and the document that names it. -/
def sampleAccount : List PinataPin :=
  [⟨"QmImage", "1970-01-01T00:00:00.000Z"⟩, ⟨"QmDocument", "1970-01-01T00:00:00.000Z"⟩]

/-- The metadata URIs on the chain. -/
def sampleUris : List String := ["ipfs://QmDocument"]

/-- The image that a document names. -/
def sampleImageOf (uri : String) : Option String :=
  if uri = "ipfs://QmDocument" then some "QmImage" else none

/-- The index is ready. -/
def sampleGate : ReconciliationOptions where
  checkReadiness := some (.ok ⟨true, none⟩)

/-- The account and the chain of the sample. -/
def sampleAround : Surroundings where
  getTime text := if text = "1970-01-01T00:00:00.000Z" then some 0 else none
  account := .ok sampleAccount
  metadataUris := .ok sampleUris
  unpinAnswer _ := some 200

/-- Two days after the upload. -/
def sampleNow : ℤ := 2 * GRACE_WINDOW_MS

theorem gateOpen_sample : GateOpen sampleGate := by
  intro gate hgate
  obtain rfl : (⟨true, none⟩ : ReconciliationGate) = gate := Option.some.inj hgate
  rfl

theorem selection_sample :
    selection sampleAround sampleNow sampleAccount sampleUris = ["QmImage"] := by
  rfl

theorem not_trips_sample :
    ¬ circuitBreakerTrips sampleGate sampleAccount
      (selection sampleAround sampleNow sampleAccount sampleUris) := by
  rw [selection_sample]
  rintro ⟨hfloor, -⟩
  exact absurd hfloor (by decide)

/-- The URI is one that the contract accepts, and the run deletes the image of its document. -/
theorem not_keepsLiveContent_sampleUpload :
    (∀ uri ∈ sampleUris, ∀ env w,
      (Factory.validateMetadataUri (asciiBytes uri)).Returns env w () w) ∧
      ¬ KeepsLiveContent sampleAround sampleNow sampleGate sampleAccount sampleUris
        sampleImageOf := by
  constructor
  · intro uri huri env w
    obtain rfl := List.mem_singleton.mp huri
    rfl
  · intro hkeeps
    have hunpins : "QmImage" ∈ (runReconciliation sampleAround sampleNow sampleGate).2 := by
      rw [runReconciliation_unpins gateOpen_sample rfl rfl not_trips_sample, selection_sample]
      decide
    have hlive : Live sampleAround.getTime sampleNow sampleAccount sampleUris sampleImageOf
        "QmImage" := .inr (.inl ⟨"ipfs://QmDocument", List.mem_singleton_self _, by decide⟩)
    exact hkeeps "QmImage" hunpins hlive

/-- A run over the pins of an image and of its document, of which the chain names the document. -/
theorem keepsLiveContent_iff_sampleUpload :
    KeepsLiveContent sampleAround sampleNow sampleGate sampleAccount sampleUris sampleImageOf ↔
      sampleGate.dryRun = true ∨ ∀ pin ∈ sampleAccount,
        PastGrace sampleAround.getTime sampleNow pin →
          Live sampleAround.getTime sampleNow sampleAccount sampleUris sampleImageOf
            pin.ipfsPinHash → Named sampleUris pin.ipfsPinHash :=
  keepsLiveContent_iff sampleImageOf gateOpen_sample rfl rfl not_trips_sample

end StellarForge.Pinning
