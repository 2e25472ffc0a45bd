import StellarForge.Encoding.Json
import StellarForge.Encoding.Replace
import StellarForge.Frontend.Addresses

/-!
# Error reports

`scrubSensitiveData` is called with every report before it is sent.  It replaces what looks like an
address or like a secret key in the message, in the values of the exceptions, and in the tags and the
extras that are strings.

* `reveals_scrubText_iff`: the texts that still reveal an address;
* `scrubSensitiveData_iff`: **the reports that carry no addresses or keys when they are sent**;
* `captureContractError_reveals`: a failed call of a contract sends the address of the contract.
-/

namespace StellarForge.Frontend.Monitoring

open Encoding

/-! ### The reports -/

/-- `\w` -/
def isWord (unit : CodeUnit) : Bool :=
  (0x61 ≤ unit && unit ≤ 0x7a) || (0x41 ≤ unit && unit ≤ 0x5a) || (0x30 ≤ unit && unit ≤ 0x39) ||
    unit = 0x5f

/-- `[A-Z2-7]` -/
def isKeyUnit (unit : CodeUnit) : Bool := (0x41 ≤ unit && unit ≤ 0x5a) || (0x32 ≤ unit && unit ≤ 0x37)

/-- `/\b[GC][A-Z2-7]{54}\b/g` -/
def STELLAR_ADDRESS_PATTERN : FixedPattern CodeUnit where
  classes := (fun unit => unit = 0x47 || unit = 0x43) :: List.replicate 54 isKeyUnit
  whole := true
  ne_nil := List.cons_ne_nil _ _

/-- `/S[A-Z2-7]{55}/g` -/
def PRIVATE_KEY_PATTERN : FixedPattern CodeUnit where
  classes := (fun unit => unit = 0x53) :: List.replicate 55 isKeyUnit
  whole := false
  ne_nil := List.cons_ne_nil _ _

/-- `text.replace(STELLAR_ADDRESS_PATTERN, …).replace(PRIVATE_KEY_PATTERN, …)` -/
def scrubText (text : List CodeUnit) : List CodeUnit :=
  PRIVATE_KEY_PATTERN.replace isWord (units "[PRIVATE_KEY]")
    (STELLAR_ADDRESS_PATTERN.replace isWord (units "[WALLET_ADDRESS]") text)

/-- The parts of a report that `scrubSensitiveData` looks at.  A tag or an extra may be any value. -/
structure ErrorEvent where
  message : Option (List CodeUnit)
  /-- The `value` of each of the `exception.values`. -/
  exception : Option (List (Option (List CodeUnit)))
  tags : Option (List (List CodeUnit × Json.Value))
  extra : Option (List (List CodeUnit × Json.Value))

/-- A text that may be missing; one that is empty is left alone as well. -/
def scrubOptional (text : Option (List CodeUnit)) : Option (List CodeUnit) :=
  text.map fun text => if text = [] then text else scrubText text

/-- `typeof value === 'string'` -/
def scrubEntry : List CodeUnit × Json.Value → List CodeUnit × Json.Value
  | (key, .string text) => (key, .string (scrubText text))
  | (key, value) => (key, value)

/-- `beforeSend`: the report without what looks like an address. -/
def scrubSensitiveData (event : ErrorEvent) : ErrorEvent where
  message := scrubOptional event.message
  exception := event.exception.map (List.map scrubOptional)
  tags := event.tags.map (List.map scrubEntry)
  extra := event.extra.map (List.map scrubEntry)

/-- `ContractErrorContext` and `TransactionErrorContext` -/
structure ErrorContext where
  network : Option (List CodeUnit) := none
  contractId : Option (List CodeUnit) := none
  functionName : Option (List CodeUnit) := none
  params : Option (List (List CodeUnit × Json.Value)) := none
  txHash : Option (List CodeUnit) := none

/-- `if (value) …[key] = value` -/
def entryOf (key : String) (value : Option (List CodeUnit)) : List (List CodeUnit × Json.Value) :=
  ((value.filter (· ≠ [])).map fun text => (units key, .string text)).toList

/-- What a report is given by the scope that it is captured in. -/
structure Scope where
  tags : List (List CodeUnit × Json.Value)
  extra : List (List CodeUnit × Json.Value)

/-- The scope of an error of a contract call. -/
def captureContractError (context : ErrorContext) : Scope where
  tags := entryOf "network" context.network ++ entryOf "contractId" context.contractId ++
    entryOf "functionName" context.functionName ++ entryOf "txHash" context.txHash
  extra := entryOf "network" context.network ++ entryOf "contractId" context.contractId ++
    entryOf "functionName" context.functionName ++
    (context.params.map fun params => (units "params", .object params)).toList ++
    entryOf "txHash" context.txHash

/-- The scope of an error of a transaction. -/
def captureTransactionError (context : ErrorContext) : Scope where
  tags := entryOf "txHash" context.txHash ++ entryOf "network" context.network ++
    entryOf "contractId" context.contractId ++ entryOf "functionName" context.functionName
  extra := entryOf "txHash" context.txHash ++ entryOf "network" context.network ++
    entryOf "contractId" context.contractId ++ entryOf "functionName" context.functionName ++
    (context.params.map fun params => (units "params", .object params)).toList

/-! ### What a report reveals -/

mutual

/-- The strings in a value. -/
def strings : Json.Value → List (List CodeUnit)
  | .string text => [text]
  | .array items => itemStrings items
  | .object fields => fieldStrings fields
  | .null => []
  | .bool _ => []
  | .number _ => []

/-- The strings in the items of an array. -/
def itemStrings : List Json.Value → List (List CodeUnit)
  | [] => []
  | item :: items => strings item ++ itemStrings items

/-- The keys of an object, and the strings in its values. -/
def fieldStrings : List (List CodeUnit × Json.Value) → List (List CodeUnit)
  | [] => []
  | (key, value) :: fields => key :: (strings value ++ fieldStrings fields)

end

/-- All strings in the four parts of a report. -/
def ErrorEvent.strings (event : ErrorEvent) : List (List CodeUnit) :=
  event.message.toList ++ (event.exception.getD []).flatMap Option.toList ++
    fieldStrings (event.tags.getD []) ++ fieldStrings (event.extra.getD [])

/-- An account or a contract. -/
def IsAddress (key : List CodeUnit) : Prop := IsStrKey 0x30 key ∨ IsStrKey 0x10 key

/-- An address as a word of its own, or a secret seed anywhere. -/
def Reveals (text : List CodeUnit) : Prop :=
  Occurs isWord IsAddress text ∨ ∃ seed, IsStrKey 0x90 seed ∧ seed <:+: text

/-- The string that is the value of an entry. -/
def topStrings : List CodeUnit × Json.Value → List (List CodeUnit)
  | (_, .string text) => [text]
  | _ => []

/-- The other strings of an entry: its key, and what is nested in its value. -/
def nestedStrings : List CodeUnit × Json.Value → List (List CodeUnit)
  | (key, .string _) => [key]
  | (key, value) => key :: strings value

/-- The strings that are scrubbed. -/
def ErrorEvent.topStrings (event : ErrorEvent) : List (List CodeUnit) :=
  event.message.toList ++ (event.exception.getD []).flatMap Option.toList ++
    (event.tags.getD []).flatMap Monitoring.topStrings ++
    (event.extra.getD []).flatMap Monitoring.topStrings

/-- The strings that are not. -/
def ErrorEvent.nestedStrings (event : ErrorEvent) : List (List CodeUnit) :=
  (event.tags.getD []).flatMap Monitoring.nestedStrings ++
    (event.extra.getD []).flatMap Monitoring.nestedStrings

/-! ### Where the strings are -/

variable {text key w piece : List CodeUnit} {entries : List (List CodeUnit × Json.Value)}
  {event : ErrorEvent} {unit : CodeUnit}

theorem scrubOptional_eq (text : Option (List CodeUnit)) : scrubOptional text = text.map scrubText := by
  cases text with
  | none => rfl
  | some text =>
    rw [scrubOptional, Option.map_some, Option.map_some]
    split_ifs with hnil
    · rw [hnil]
      rfl
    · rfl

/-- The strings of an object stand at its top or below. -/
theorem mem_fieldStrings : text ∈ fieldStrings entries ↔
    text ∈ entries.flatMap topStrings ∨ text ∈ entries.flatMap nestedStrings := by
  induction entries with
  | nil => exact (or_self_iff).symm
  | cons entry entries ih =>
    obtain ⟨key, value⟩ := entry
    have hentry : text = key ∨ text ∈ strings value ↔
        text ∈ topStrings (key, value) ∨ text ∈ nestedStrings (key, value) := by
      cases value <;> simp [strings, topStrings, nestedStrings, or_comm]
    rw [fieldStrings, List.mem_cons, List.mem_append, ih, List.flatMap_cons, List.flatMap_cons,
      List.mem_append, List.mem_append, ← or_assoc, hentry]
    exact or_or_or_comm

theorem ErrorEvent.mem_strings :
    text ∈ event.strings ↔ text ∈ event.topStrings ∨ text ∈ event.nestedStrings := by
  simp only [strings, topStrings, nestedStrings, List.mem_append, mem_fieldStrings]
  tauto

theorem topStrings_scrubEntry (entries : List (List CodeUnit × Json.Value)) :
    (entries.map scrubEntry).flatMap topStrings = (entries.flatMap topStrings).map scrubText := by
  rw [List.flatMap_map, List.map_flatMap]
  apply List.flatMap_congr
  rintro ⟨key, value⟩ -
  cases value <;> rfl

theorem nestedStrings_scrubEntry (entries : List (List CodeUnit × Json.Value)) :
    (entries.map scrubEntry).flatMap nestedStrings = entries.flatMap nestedStrings := by
  rw [List.flatMap_map]
  apply List.flatMap_congr
  rintro ⟨key, value⟩ -
  cases value <;> rfl

theorem toList_scrubOptional (texts : List (Option (List CodeUnit))) :
    (texts.map scrubOptional).flatMap Option.toList = (texts.flatMap Option.toList).map scrubText := by
  rw [List.flatMap_map, List.map_flatMap]
  apply List.flatMap_congr
  intro text _
  rw [scrubOptional_eq, Option.toList_map]

theorem getD_map_scrub {A : Type} {scrub : A → A} (list : Option (List A)) :
    (list.map (List.map scrub)).getD [] = (list.getD []).map scrub := by
  cases list <;> rfl

/-- The strings at the top are scrubbed. -/
theorem topStrings_scrubSensitiveData (event : ErrorEvent) :
    (scrubSensitiveData event).topStrings = event.topStrings.map scrubText := by
  simp only [ErrorEvent.topStrings, scrubSensitiveData, getD_map_scrub, topStrings_scrubEntry,
    toList_scrubOptional, scrubOptional_eq, Option.toList_map, List.map_append]

/-- The other ones stay as they are. -/
theorem nestedStrings_scrubSensitiveData (event : ErrorEvent) :
    (scrubSensitiveData event).nestedStrings = event.nestedStrings := by
  simp only [ErrorEvent.nestedStrings, scrubSensitiveData, getD_map_scrub, nestedStrings_scrubEntry]

theorem mem_strings_scrubSensitiveData :
    text ∈ (scrubSensitiveData event).strings ↔
      (∃ string ∈ event.topStrings, scrubText string = text) ∨ text ∈ event.nestedStrings := by
  rw [ErrorEvent.mem_strings, topStrings_scrubSensitiveData, nestedStrings_scrubSensitiveData,
    List.mem_map]

/-! ### What is left of a text -/

/-- The units of the network's keys are those of the patterns, and they are in words. -/
theorem units_of_mem_ALPHABET (h : unit ∈ ALPHABET) : isKeyUnit unit = true ∧ isWord unit = true := by
  have hall : ALPHABET.all (fun unit => isKeyUnit unit && isWord unit) = true := by decide
  exact Bool.and_eq_true_iff.mp (List.all_eq_true.mp hall unit h)

theorem isKeyUnit_of_not_isWord (h : isWord unit = false) : isKeyUnit unit = false := by
  simp only [isWord, isKeyUnit, Bool.or_eq_false_iff, Bool.and_eq_false_iff, decide_eq_false_iff_not,
    UInt16.le_iff_toNat_le, UInt16.reduceToNat] at h ⊢
  omega

theorem length_of_isStrKey {version : UInt8} (h : IsStrKey version key) : key.length = 56 := by
  obtain ⟨payload, -, hkey⟩ := h
  rw [hkey]
  exact length_lettersOf _

theorem mem_of_isStrKey {version : UInt8} (h : IsStrKey version key) (hunit : unit ∈ key) :
    unit ∈ ALPHABET := by
  obtain ⟨payload, -, hkey⟩ := h
  rw [hkey] at hunit
  exact mem_lettersOf hunit

theorem IsAddress.length (h : IsAddress key) : key.length = 56 := h.elim length_of_isStrKey length_of_isStrKey

theorem IsAddress.mem (h : IsAddress key) (hunit : unit ∈ key) : unit ∈ ALPHABET :=
  h.elim (mem_of_isStrKey · hunit) (mem_of_isStrKey · hunit)

/-- The first letter of a key tells its version. -/
theorem exists_cons_of_isStrKey {version : UInt8} (h : IsStrKey version key) :
    ∃ rest, key = letter (version.toNat / 8) :: rest ∧ rest.length = 55 ∧
      ∀ unit ∈ rest, isKeyUnit unit = true := by
  have hlen := length_of_isStrKey h
  have hmem : ∀ unit ∈ key, unit ∈ ALPHABET := fun unit hunit => mem_of_isStrKey h hunit
  obtain ⟨payload, hpayload, hkey⟩ := h
  have hhead : (strKey version payload)[0]? = some (letter (version.toNat / 8)) := head?_strKey hpayload
  rw [← hkey] at hhead
  cases key with
  | nil => cases hlen
  | cons unit rest =>
    rw [List.getElem?_cons_zero, Option.some_inj] at hhead
    refine ⟨rest, by rw [hhead], Nat.succ_injective hlen, ?_⟩
    intro unit hunit
    exact (units_of_mem_ALPHABET (hmem unit (List.mem_cons_of_mem _ hunit))).1

/-- The pattern of secret keys matches the seeds. -/
theorem fits_of_seed (h : IsStrKey 0x90 key) : fits PRIVATE_KEY_PATTERN.classes key = true := by
  obtain ⟨rest, rfl, hlen, hrest⟩ := exists_cons_of_isStrKey h
  have hfits := fits_replicate hrest
  rw [hlen] at hfits
  rw [PRIVATE_KEY_PATTERN, fits_cons, hfits, Bool.and_true]
  decide

/-- It does not match anywhere in an address. -/
theorem fits_of_suffix_address (h : IsAddress key) (hrest : w <:+ key) :
    fits PRIVATE_KEY_PATTERN.classes w = false := by
  rw [← Bool.not_eq_true]
  intro hfits
  have hlong : 56 ≤ w.length := length_le_of_fits hfits
  have hkey : w = key := hrest.eq_of_length_le (h.length.trans_le hlong)
  rw [hkey] at hfits
  rcases h with h | h
  · obtain ⟨rest, rfl, -, -⟩ := exists_cons_of_isStrKey h
    rw [PRIVATE_KEY_PATTERN, fits_cons, Bool.and_eq_true] at hfits
    exact absurd hfits.1 (by decide)
  · obtain ⟨rest, rfl, -, -⟩ := exists_cons_of_isStrKey h
    rw [PRIVATE_KEY_PATTERN, fits_cons, Bool.and_eq_true] at hfits
    exact absurd hfits.1 (by decide)

/-- No key has a place for a bracket. -/
theorem not_mem_of_isStrKey {version : UInt8} (h : IsStrKey version key) :
    key ≠ [] ∧ (0x5b : CodeUnit) ∉ key ∧ (0x5d : CodeUnit) ∉ key := by
  refine ⟨?_, fun hmem => ?_, fun hmem => ?_⟩
  · rintro rfl
    cases length_of_isStrKey h
  · exact absurd (mem_of_isStrKey h hmem) (by decide)
  · exact absurd (mem_of_isStrKey h hmem) (by decide)

/-- A short text reveals nothing. -/
theorem not_occurs_of_length_lt {word : CodeUnit → Bool} {Q : List CodeUnit → Prop}
    (hQ : ∀ key, Q key → key.length = 56) (h : text.length < 56) : ¬ Occurs word Q text := by
  rintro ⟨front, key, tail, rfl, -, -, hkey⟩
  have hlen := hQ key hkey
  rw [List.length_append, List.length_append] at h
  omega

/-- The text that stands for a secret key makes no place for a key. -/
theorem occurs_replace_iff {word : CodeUnit → Bool} {Q : List CodeUnit → Prop}
    (hlen : ∀ key, Q key → key.length = 56)
    (hQ : ∀ key, Q key → key ≠ [] ∧ (0x5b : CodeUnit) ∉ key ∧ (0x5d : CodeUnit) ∉ key)
    (hopen : word 0x5b = false) (hclose : word 0x5d = false) (text : List CodeUnit) :
    Occurs word Q (PRIVATE_KEY_PATTERN.replace isWord (units "[PRIVATE_KEY]") text) ↔
      ∃ piece ∈ PRIVATE_KEY_PATTERN.pieces isWord text, Occurs word Q piece := by
  have hmiddle : ¬ Occurs word Q (units "PRIVATE_KEY") := not_occurs_of_length_lt hlen (by decide)
  have htext : units "[PRIVATE_KEY]" = 0x5b :: (units "PRIVATE_KEY" ++ [0x5d]) := by decide
  rw [FixedPattern.replace_eq, htext]
  exact occurs_intercalate hQ hopen hclose hmiddle (PRIVATE_KEY_PATTERN.piecesFrom_ne_nil _ _ _)

/-- A secret seed is replaced wherever it stands. -/
theorem not_seed_infix_scrubText (text seed : List CodeUnit) (h : IsStrKey 0x90 seed) :
    ¬ seed <:+: scrubText text := by
  intro hinfix
  have hoccurs := occurs_iff_infix.mpr ⟨seed, h, hinfix⟩
  rw [scrubText, occurs_replace_iff (fun _ => length_of_isStrKey) (fun _ => not_mem_of_isStrKey) rfl rfl]
    at hoccurs
  obtain ⟨piece, hpiece, front, key, tail, rfl, -, -, hkey⟩ := hoccurs
  -- the pattern would have matched there
  have hfits := fits_append (fits_of_seed hkey) tail
  have hsuffix : key ++ tail <:+ front ++ key ++ tail := ⟨front, (List.append_assoc ..).symm⟩
  rw [FixedPattern.fits_eq_false_of_mem_piecesFrom rfl hpiece hsuffix] at hfits
  cases hfits

theorem length_replacedWord : (units "[WALLET_ADDRESS]").length = 16 := by decide

/-- What is left of a word is what stands between its secret keys: the pattern of addresses matches only
words that are a unit shorter. -/
theorem occurs_scrubText_word (h : ∀ unit ∈ w, isWord unit = true) :
    Occurs isWord IsAddress (scrubText w) ↔
      ∃ piece ∈ PRIVATE_KEY_PATTERN.pieces isWord w, IsAddress piece := by
  have hlen : ∀ key, IsAddress key → key.length = 56 := fun _ hkey => hkey.length
  have hQ : ∀ key, IsAddress key → key ≠ [] ∧ (0x5b : CodeUnit) ∉ key ∧ (0x5d : CodeUnit) ∉ key :=
    fun _ hkey => hkey.elim not_mem_of_isStrKey not_mem_of_isStrKey
  rw [scrubText, occurs_replace_iff hlen hQ rfl rfl]
  -- a word of 55 characters is replaced whole, any other is kept for the second pattern
  rcases STELLAR_ADDRESS_PATTERN.replace_word (units "[WALLET_ADDRESS]") rfl h with
    hkeep | ⟨hlength, hreplaced⟩
  · rw [hkeep]
    -- inside a word every piece is a word, so only a whole piece can be an address
    have hpiece (piece : List CodeUnit) (hmem : piece ∈ PRIVATE_KEY_PATTERN.pieces isWord w) :
        Occurs isWord IsAddress piece ↔ IsAddress piece :=
      occurs_word fun unit hunit =>
        h unit ((FixedPattern.sublist_of_mem_piecesFrom hmem).subset hunit)
    constructor
    · rintro ⟨piece, hmem, hkey⟩
      exact ⟨piece, hmem, (hpiece piece hmem).mp hkey⟩
    · rintro ⟨piece, hmem, hkey⟩
      exact ⟨piece, hmem, (hpiece piece hmem).mpr hkey⟩
  · rw [hreplaced]
    -- what is left of the replaced word is shorter than an address, and so is a piece of the word
    have hlength : w.length = 55 := hlength
    constructor
    · rintro ⟨piece, hmem, hkey⟩
      have hshort := (FixedPattern.sublist_of_mem_piecesFrom hmem).length_le
      rw [length_replacedWord] at hshort
      exact absurd hkey (not_occurs_of_length_lt hlen (by omega))
    · rintro ⟨piece, hmem, hkey⟩
      have hshort := (FixedPattern.sublist_of_mem_piecesFrom hmem).length_le
      rw [hkey.length, hlength] at hshort
      exact absurd hshort (by decide)

/-- What stands between words does not change how they are scrubbed. -/
theorem scrubText_append_cons (text : List CodeUnit) (unit : CodeUnit) (rest : List CodeUnit)
    (hunit : isWord unit = false) :
    scrubText (text ++ unit :: rest) = scrubText text ++ unit :: scrubText rest := by
  have hkeyUnit : isKeyUnit unit = false := isKeyUnit_of_not_isWord hunit
  -- the unit is no word character, so it is in no class of the two patterns
  have hne (v : CodeUnit) (hv : isWord v = true) : decide (unit = v) = false := by
    rw [decide_eq_false_iff_not]
    rintro rfl
    rw [hv] at hunit
    cases hunit
  have hclasses (c : CodeUnit → Bool) (n : ℕ) (hc : c unit = false) :
      ∀ d ∈ c :: List.replicate n isKeyUnit, d unit = false := by
    rw [List.forall_mem_cons]
    refine ⟨hc, fun d hd => ?_⟩
    rw [List.eq_of_mem_replicate hd, hkeyUnit]
  have haddress : ∀ c ∈ STELLAR_ADDRESS_PATTERN.classes, c unit = false := by
    apply hclasses
    rw [hne 0x47 rfl, hne 0x43 rfl]
    rfl
  have hprivate : ∀ c ∈ PRIVATE_KEY_PATTERN.classes, c unit = false := hclasses _ _ (hne 0x53 rfl)
  rw [scrubText, FixedPattern.replace_append haddress hunit,
    FixedPattern.replace_append hprivate hunit]
  rfl

/-- A text reveals an address if one of its words does, between the secret keys in it. -/
theorem reveals_scrubText_iff (text : List CodeUnit) :
    Reveals (scrubText text) ↔ ∃ w ∈ words isWord text,
      ∃ piece ∈ PRIVATE_KEY_PATTERN.pieces isWord w, IsAddress piece := by
  have hseed : ¬ ∃ seed, IsStrKey 0x90 seed ∧ seed <:+: scrubText text := by
    rintro ⟨seed, hseed, hinfix⟩
    exact not_seed_infix_scrubText text seed hseed hinfix
  have hQ : ∀ key, IsAddress key → key ≠ [] ∧ ∀ unit ∈ key, isWord unit = true := by
    intro key hkey
    exact ⟨(hkey.elim not_mem_of_isStrKey not_mem_of_isStrKey).1,
      fun unit hunit => (units_of_mem_ALPHABET (hkey.mem hunit)).2⟩
  rw [Reveals, or_iff_left hseed, occurs_iff_words hQ scrubText_append_cons]
  apply exists_congr
  intro w
  apply and_congr_right
  intro hw
  exact occurs_scrubText_word fun unit hunit => word_of_mem_words hw hunit

/-! ### What is sent -/

/-- An address is left as it is. -/
theorem reveals_scrubText_address (h : IsAddress key) : Reveals (scrubText key) := by
  have hword : ∀ unit ∈ key, isWord unit = true := fun unit hunit =>
    (units_of_mem_ALPHABET (h.mem hunit)).2
  have hpieces : PRIVATE_KEY_PATTERN.pieces isWord key = [key] :=
    FixedPattern.piecesFrom_eq_singleton (fun _ hrest => fits_of_suffix_address h hrest) false
  rw [reveals_scrubText_iff, words_eq_singleton hword]
  refine ⟨key, List.mem_singleton_self key, key, ?_, h⟩
  rw [hpieces]
  exact List.mem_singleton_self key

variable {context : ErrorContext} {scope : Scope}

theorem mem_entryOf (name : String) (hkey : key ≠ []) :
    (units name, Json.Value.string key) ∈ entryOf name (some key) := by
  simp [entryOf, hkey]

/-- A report about a failed call sends the address of the contract. -/
theorem captureContractError_reveals
    (hscope : scope = captureContractError context ∨ scope = captureTransactionError context)
    (hid : context.contractId = some key) (hkey : IsAddress key)
    (htags : ∀ entry ∈ scope.tags, entry ∈ event.tags.getD []) :
    ∃ text ∈ (scrubSensitiveData event).strings, Reveals text := by
  have hne : key ≠ [] := (hkey.elim not_mem_of_isStrKey not_mem_of_isStrKey).1
  have hentry : (units "contractId", Json.Value.string key) ∈ scope.tags := by
    have hmem := mem_entryOf "contractId" hne
    rw [← hid] at hmem
    rcases hscope with rfl | rfl <;> simp [captureContractError, captureTransactionError, hmem]
  have htop : key ∈ event.topStrings := by
    simp only [ErrorEvent.topStrings, List.mem_append, List.mem_flatMap]
    exact .inl (.inr ⟨_, htags _ hentry, List.mem_singleton_self key⟩)
  exact ⟨_, mem_strings_scrubSensitiveData.mpr (.inl ⟨key, htop, rfl⟩), reveals_scrubText_address hkey⟩

/-- **A report carries no addresses or keys when it is sent exactly if, first, in none of the words of
the message, the exceptions, the tags and the extras an address stands alone or between secret keys, and
second, none is in a key or a nested string.** -/
theorem scrubSensitiveData_iff (event : ErrorEvent) :
    (∀ text ∈ (scrubSensitiveData event).strings, ¬ Reveals text) ↔
      (∀ text ∈ event.topStrings, ∀ w ∈ words isWord text,
        ∀ piece ∈ PRIVATE_KEY_PATTERN.pieces isWord w, ¬ IsAddress piece) ∧
      ∀ text ∈ event.nestedStrings, ¬ Reveals text := by
  -- each of the texts at the top is scrubbed, word by word
  have htop (text : List CodeUnit) : ¬ Reveals (scrubText text) ↔ ∀ w ∈ words isWord text,
      ∀ piece ∈ PRIVATE_KEY_PATTERN.pieces isWord w, ¬ IsAddress piece := by
    simp only [reveals_scrubText_iff, not_exists, not_and]
  constructor
  · intro h
    constructor
    · intro text htext
      rw [← htop]
      exact h _ (mem_strings_scrubSensitiveData.mpr (.inl ⟨text, htext, rfl⟩))
    · intro text htext
      exact h text (mem_strings_scrubSensitiveData.mpr (.inr htext))
  · rintro ⟨hscrubbed, hnested⟩ text htext
    rcases mem_strings_scrubSensitiveData.mp htext with ⟨string, hstring, rfl⟩ | htext
    · exact (htop string).mpr (hscrubbed string hstring)
    · exact hnested text htext

/-- The report about a failed call of the contract with the payload zero. -/
def failedCall : ErrorEvent :=
  let scope := captureContractError
    { contractId := some (strKey 0x10 (List.replicate 32 0)), functionName := some (units "create_token") }
  { message := none, exception := some [some (units "Simulation failed")], tags := some scope.tags,
    extra := some scope.extra }

/-- An address in a message is sent as it is. -/
theorem not_scrubSensitiveData : ¬ ∀ text ∈ (scrubSensitiveData failedCall).strings, ¬ Reveals text := by
  have hkey : IsAddress (strKey 0x10 (List.replicate 32 0)) :=
    .inr ⟨List.replicate 32 0, List.length_replicate, rfl⟩
  obtain ⟨text, htext, hreveals⟩ : ∃ text ∈ (scrubSensitiveData failedCall).strings, Reveals text :=
    captureContractError_reveals (.inl rfl) rfl hkey fun _ hentry => hentry
  intro h
  exact h text htext hreveals

end StellarForge.Frontend.Monitoring
