import StellarForge.Pinning.LiveContent

/-!
# The guard rails of a run

Unpinning cannot be undone.  `MayUnpin` is the one combination of gate, inputs, options and counts in
which a run may unpin; `candidates` are the rows that it may unpin then.

* `refuses_of_not_mayUnpin`: in every other combination no request is sent;
* `accounting_of_mayUnpin`: one request for each candidate, and what the result counts;
* `guardRails`: **the two together**;
* `not_atMostPart_sampleNaN`: a limit that is `NaN` limits nothing.
-/

namespace StellarForge.Pinning

open Encoding Text

/-! ### Candidates -/

/-- Nothing on chain names the CID of the row, and its date can be read and is past the grace window. -/
structure Candidate (getTime : DateParser) (now : ℤ) (uris : List String) (pin : PinataPin) : Prop where
  unreferenced : ¬ Named uris pin.ipfsPinHash
  pastGrace : PastGrace getTime now pin

variable {getTime : DateParser} {now : ℤ} {uris : List String} {pin : PinataPin}

theorem candidate_iff : Candidate getTime now uris pin ↔
    (!(extractCidsFromMetadataUris uris).contains pin.ipfsPinHash &&
      isStale getTime now GRACE_WINDOW_MS pin) = true := by
  rw [Bool.and_eq_true, isStale_iff, Bool.not_eq_true', ← Bool.not_eq_true, List.contains_iff_mem,
    mem_extractCids_iff]
  exact ⟨fun h => ⟨h.unreferenced, h.pastGrace⟩, fun h => ⟨h.1, h.2⟩⟩

instance : Decidable (Candidate getTime now uris pin) := decidable_of_iff' _ candidate_iff

/-- The candidate rows of an account, in its order. -/
def candidates (getTime : DateParser) (now : ℤ) (uris : List String) (account : List PinataPin) :
    List PinataPin :=
  account.filter fun pin => Candidate getTime now uris pin

/-- A run selects the candidates. -/
theorem selection_eq {around : Surroundings} {account : List PinataPin} :
    selection around now account uris =
      (candidates around.getTime now uris account).map PinataPin.ipfsPinHash := by
  rw [selection, classifyPins_fst, candidates]
  congr 1
  apply List.filter_congr
  intro pin _
  rw [Bool.eq_iff_iff, decide_eq_true_eq]
  exact candidate_iff.symm

/-- Every row is either selected or preserved. -/
theorem classifyPins_snd (getTime : DateParser) (cidInUse : List String) (now graceMs : ℤ)
    (pins : List PinataPin) :
    (classifyPins getTime cidInUse now graceMs pins).1.length +
      (classifyPins getTime cidInUse now graceMs pins).2 = pins.length := by
  induction pins with
  | nil => rfl
  | cons pin pins ih =>
    rw [classifyPins, List.length_cons]
    dsimp only
    split_ifs
    · dsimp only
      omega
    · rw [List.length_cons]
      dsimp only
      omega
    · dsimp only
      omega

/-! ### Accounting -/

/-- Every candidate is counted once, as unpinned or as failed. -/
theorem count_total (tally : UnpinTally) (cid : String) (status : Option ℕ) :
    (tally.count cid status).cleaned + (tally.count cid status).errors =
      tally.cleaned + tally.errors + 1 := by
  rcases status with _ | status
  · rw [UnpinTally.count]
    dsimp only
    omega
  · rw [UnpinTally.count]
    split_ifs
    · dsimp only
      omega
    · dsimp only
      omega

/-- Every request is counted once, as cleaned or as an error. -/
theorem unpinCids_total (answer : ℕ → Option ℕ) (cids : List String) :
    (unpinCids answer cids).cleaned + (unpinCids answer cids).errors = cids.length := by
  rw [unpinCids, ← List.length_zipIdx (l := cids) (i := 0)]
  induction cids.zipIdx using List.reverseRecOn with
  | nil => rfl
  | append_singleton requests request ih =>
    rw [List.foldl_append, List.foldl_cons, List.foldl_nil, count_total, ih, List.length_append,
      List.length_singleton]

/-! ### When a run may unpin -/

/-- At most five candidates, or a part of the account that is not above the limit, or the operator's
override.  The part is the double nearest to the quotient, and the limit can be `NaN`. -/
def WithinBreaker (options : ReconciliationOptions) (pins candidates : ℕ) : Prop :=
  candidates ≤ 5 ∨ options.unpinLimit.lt (.ofRat (candidates / pins)) = false ∨
    options.overrideCircuitBreaker = true

/-- The gate, where there is one, has answered that it is ready; the account and the URIs have been
read; the run is no dry run and keeps within the breaker. -/
structure MayUnpin (around : Surroundings) (now : ℤ) (options : ReconciliationOptions)
    (account : List PinataPin) (uris : List String) : Prop where
  gate : ∀ outcome ∈ options.checkReadiness, ∃ detail, outcome = .ok ⟨true, detail⟩
  account_eq : around.account = .ok account
  uris_eq : around.metadataUris = .ok uris
  dryRun : options.dryRun = false
  breaker : WithinBreaker options account.length (candidates around.getTime now uris account).length

variable {around : Surroundings} {options : ReconciliationOptions} {account : List PinataPin}

/-- An error of the check is no `ready`. -/
theorem gateOpen_iff :
    GateOpen options ↔ ∀ outcome ∈ options.checkReadiness, ∃ detail, outcome = .ok ⟨true, detail⟩ := by
  rw [GateOpen, ReconciliationOptions.gate]
  rcases options.checkReadiness with _ | err | ⟨ready, detail⟩
  · simp
  · simp
  · cases ready <;> simp

theorem circuitBreakerTrips_iff {toUnpin : List String} (hlength : toUnpin.length ≤ account.length) :
    circuitBreakerTrips options account toUnpin ↔
      ¬ WithinBreaker options account.length toUnpin.length := by
  rw [circuitBreakerTrips, WithinBreaker, not_or, not_or, not_le, Bool.not_eq_false,
    UNPIN_RATIO_FLOOR]
  refine and_congr_right fun hfloor => ?_
  -- above the floor the account is not empty
  have hpos : 0 < account.length := by omega
  rw [unpinRatio, if_pos hpos]

theorem length_selection_le :
    (selection around now account uris).length ≤ account.length := by
  rw [selection_eq, List.length_map]
  exact List.length_filter_le _ _

/-- **In every other combination no request is sent.** -/
theorem refuses_of_not_mayUnpin (h : ∀ account uris, ¬ MayUnpin around now options account uris) :
    (runReconciliation around now options).2 = [] := by
  rw [runReconciliation]
  split
  · rfl
  · next hgate =>
    have hopen : GateOpen options := by
      rintro ⟨ready, detail⟩ heq
      cases ready
      · exact absurd (Option.mem_def.mp heq) (hgate detail)
      · rfl
    rcases haccount : around.account with err | account
    · rfl
    rcases huris : around.metadataUris with err | uris
    · rfl
    simp only [listAllPins_eq]
    have hselection : (classifyPins around.getTime (extractCidsFromMetadataUris uris) now
        GRACE_WINDOW_MS account).1 = selection around now account uris := rfl
    split_ifs with hbreaker hdry
    · rfl
    · rfl
    · -- nothing refuses, so the run may unpin
      refine absurd ?_ (h account uris)
      rw [hselection, circuitBreakerTrips_iff length_selection_le, not_not, selection_eq,
        List.length_map] at hbreaker
      exact ⟨gateOpen_iff.mp hopen, haccount, huris, by simpa using hdry, hbreaker⟩

/-- What a run that may unpin returns and sends. -/
theorem runReconciliation_of_mayUnpin (h : MayUnpin around now options account uris) :
    runReconciliation around now options =
      let classified :=
        classifyPins around.getTime (extractCidsFromMetadataUris uris) now GRACE_WINDOW_MS account
      let tally := unpinCids around.unpinAnswer classified.1
      ({ checked := account.length
         preserved := classified.2
         cleaned := tally.cleaned
         errors := tally.errors
         errorMessage := tally.errorMessage }, classified.1) := by
  -- past the gate, the listing and the breaker, nothing but the unpinning is left
  have hbreaker : ¬ circuitBreakerTrips options account (selection around now account uris) := by
    rw [circuitBreakerTrips_iff length_selection_le, not_not, selection_eq, List.length_map]
    exact h.breaker
  have hopen : ∀ detail, options.gate ≠ some ⟨false, detail⟩ := by
    intro detail heq
    have hready : (⟨false, detail⟩ : ReconciliationGate).ready = true :=
      gateOpen_iff.mpr h.gate _ heq
    cases hready
  rw [selection] at hbreaker
  rw [runReconciliation]
  split
  · next detail heq => exact absurd heq (hopen detail)
  · simp only [h.account_eq, h.uris_eq, listAllPins_eq, if_neg hbreaker, h.dryRun,
      Bool.false_eq_true, if_false]

/-- **Where it may unpin, a run sends one request for each candidate**, and counts every row. -/
theorem accounting_of_mayUnpin (h : MayUnpin around now options account uris) :
    let run := runReconciliation around now options
    run.2 = (candidates around.getTime now uris account).map PinataPin.ipfsPinHash ∧
      run.1.checked = account.length ∧
      run.1.checked = run.1.preserved + (candidates around.getTime now uris account).length ∧
      run.1.cleaned + run.1.errors = (candidates around.getTime now uris account).length := by
  have hselection : (classifyPins around.getTime (extractCidsFromMetadataUris uris) now
      GRACE_WINDOW_MS account).1 =
      (candidates around.getTime now uris account).map PinataPin.ipfsPinHash := selection_eq
  have hrows := classifyPins_snd around.getTime (extractCidsFromMetadataUris uris) now
    GRACE_WINDOW_MS account
  rw [runReconciliation_of_mayUnpin h]
  dsimp only
  rw [unpinCids_total, hselection, List.length_map]
  rw [hselection, List.length_map] at hrows
  exact ⟨rfl, rfl, by omega, rfl⟩

/-- **Guard rails**: a run unpins in one combination only, and then exactly the candidates. -/
theorem guardRails (around : Surroundings) (now : ℤ) (options : ReconciliationOptions) :
    let run := runReconciliation around now options
    (∀ account uris, MayUnpin around now options account uris →
      run.2 = (candidates around.getTime now uris account).map PinataPin.ipfsPinHash ∧
        run.1.checked = account.length ∧
        run.1.checked = run.1.preserved + (candidates around.getTime now uris account).length ∧
        run.1.cleaned + run.1.errors = (candidates around.getTime now uris account).length) ∧
      ((∀ account uris, ¬ MayUnpin around now options account uris) → run.2 = []) :=
  ⟨fun _ _ => accounting_of_mayUnpin, refuses_of_not_mayUnpin⟩

/-! ### Six of ten pins -/

/-- Six old pins and four with a date that cannot be read. -/
def sampleCrowd : List PinataPin :=
  (["Qm0", "Qm1", "Qm2", "Qm3", "Qm4", "Qm5"].map (⟨·, "1970-01-01T00:00:00.000Z"⟩)) ++
    ["Qm6", "Qm7", "Qm8", "Qm9"].map (⟨·, ""⟩)

/-- Nothing on chain names any of them. -/
def sampleCrowdAround : Surroundings where
  getTime text := if text = "1970-01-01T00:00:00.000Z" then some 0 else none
  account := .ok sampleCrowd
  metadataUris := .ok []
  unpinAnswer i := if i = 0 then some 500 else some 200

/-- The gate is ready, and `part` of the account may be unpinned. -/
def sampleLimited (part : Number) : ReconciliationOptions where
  checkReadiness := some (.ok ⟨true, none⟩)
  maxUnpinRatio := some part

theorem mayUnpin_sampleCrowd {part : Number} (hpart : part.lt (.ofRat (6 / 10)) = false) :
    MayUnpin sampleCrowdAround sampleNow (sampleLimited part) sampleCrowd [] where
  gate _ houtcome := ⟨none, (Option.some.inj houtcome).symm⟩
  account_eq := rfl
  uris_eq := rfl
  dryRun := rfl
  breaker := .inr (.inl hpart)

/-- With a limit of 0.6 all six are unpinned, though the double is a little less than six tenths; the
first request fails. -/
theorem guardRails_sampleCrowd :
    (runReconciliation sampleCrowdAround sampleNow (sampleLimited (.ofRat (6 / 10)))).2 =
        ["Qm0", "Qm1", "Qm2", "Qm3", "Qm4", "Qm5"] ∧
      (runReconciliation sampleCrowdAround sampleNow
        (sampleLimited (.ofRat (6 / 10)))).1.preserved = 4 ∧
      (runReconciliation sampleCrowdAround sampleNow
        (sampleLimited (.ofRat (6 / 10)))).1.cleaned + (runReconciliation sampleCrowdAround sampleNow
        (sampleLimited (.ofRat (6 / 10)))).1.errors = 6 := by
  have hsame : (Number.ofRat (6 / 10)).lt (.ofRat (6 / 10)) = false := by decide +kernel
  obtain ⟨hsent, hchecked, hrows, hcounted⟩ :=
    (guardRails sampleCrowdAround sampleNow (sampleLimited (.ofRat (6 / 10)))).1 _ _
      (mayUnpin_sampleCrowd hsame)
  refine ⟨hsent, ?_, hcounted⟩
  have hcandidates : (candidates sampleCrowdAround.getTime sampleNow [] sampleCrowd).length = 6 := rfl
  have hlength : sampleCrowd.length = 10 := rfl
  omega

/-! ### A limit that is no number -/

/-- The number of candidates is at most this part of the pins. -/
def AtMostPart (part : Number) (pins candidates : ℕ) : Prop :=
  match part with
  | .nan => False
  | .infinite negative => negative = false
  | .finite q => (candidates : ℚ) ≤ q * pins

/-- **With a limit of `NaN` the breaker never trips**: six of ten pins are unpinned without an
override. -/
theorem not_atMostPart_sampleNaN :
    ¬ ∀ around now options account uris, around.account = .ok account →
      around.metadataUris = .ok uris → (runReconciliation around now options).2 ≠ [] →
      (candidates around.getTime now uris account).length ≤ 5 ∨
        AtMostPart options.unpinLimit account.length
          (candidates around.getTime now uris account).length ∨
        options.overrideCircuitBreaker = true := by
  intro h
  have hsent := (accounting_of_mayUnpin (mayUnpin_sampleCrowd (rfl : Number.nan.lt _ = false))).1
  have hnonempty : (runReconciliation sampleCrowdAround sampleNow (sampleLimited .nan)).2 ≠ [] := by
    rw [hsent]
    decide
  rcases h sampleCrowdAround sampleNow (sampleLimited .nan) sampleCrowd [] rfl rfl hnonempty with
    hfew | hpart | hoverride
  · exact absurd hfew (by decide)
  · exact hpart
  · exact absurd hoverride (by decide)

end StellarForge.Pinning
