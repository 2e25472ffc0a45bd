import StellarForge.Factory.Properties.Histories

/-!
# The supply cap holds over every run

`supply_le_cap`: on a capped token the initial supply plus everything minted stays within the cap;
the stored counter lies between the two and never decreases.
-/

namespace StellarForge.Factory

open Soroban Contract Collections Transition FactoryModel

variable {args : ConstructorArgs} {h : List Invocation} {w : World} {m : FactoryModel}

/-- The stored counter of a token. -/
theorem Represents.supply (hw : Represents w m) {a : Address} {t : Token}
    (ht : m.tokens.find? a = some t) :
    w.storage.persistent (.supply a) = t.supply.map CappedSupply.counter := by
  refine (Holds.persistent hw _).trans ?_
  change (m.tokens.find? a).bind _ = _
  rw [ht, Option.bind_some]

/-- **The supply cap over whole runs.** -/
theorem supply_le_cap (hr : Reaches args h w) {a : Address} {p : BatchTokenParams} {cap : ℤ}
    (hc : (a, p) ∈ created h) (hcap : p.maxSupply = some cap) :
    p.initialSupply + minted h a ≤ cap ∧
      ∃ counter, w.storage.persistent (.supply a) = some counter ∧
        p.initialSupply + minted h a ≤ counter ∧ counter ≤ cap ∧
        ∀ h' w', Run Step w h' w' →
          ∃ counter', w'.storage.persistent (.supply a) = some counter' ∧ counter ≤ counter' := by
  obtain ⟨m, hm, hw⟩ := hr.represents
  obtain ⟨t, ht, rfl⟩ := find?_of_mem_created hm hc
  obtain ⟨s, hs, rfl⟩ := Option.map_eq_some_iff.mp (t.supply_cap.trans hcap)
  have hissued := issued_of_run rfl hm ht hs
  refine ⟨hissued ▸ s.issued_le.trans s.counter_le, s.counter, ?_, hissued ▸ s.issued_le,
    s.counter_le, fun h' w' hr' => ?_⟩
  · rw [hw.supply ht, hs, Option.map_some]
  · obtain ⟨m', hm', hw'⟩ := hw.run hr'
    obtain ⟨t', ht', he⟩ := evolves_of_run hm' ht
    obtain ⟨s', hs', hle⟩ := he.counter s hs
    exact ⟨s'.counter, by rw [hw'.supply ht', hs', Option.map_some], hle⟩

/-- The token of the sample run is within its cap. -/
theorem supply_le_cap_sampleRun : (600 : ℤ) + minted SampleRun.history ⟨50⟩ ≤ 1000 :=
  (supply_le_cap SampleRun.reaches (List.mem_singleton.mpr rfl) rfl).1

end StellarForge.Factory
