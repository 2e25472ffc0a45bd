import Mathlib.Data.List.Nodup
import Mathlib.Data.Nat.Find
import StellarForge.Frontend.Forms

/-!
# The text of a rejected simulation

When the simulation of a write call fails, its error text goes through `parseContractError` twice, in
`simulateAndSubmitDetailed` and in `toUserFacingError`.  The words of a wallet, of a balance and of the
network are looked for before the code of the contract, in the text of the host and in the messages of
the table alike.

* `quiet_message`, `contractErrorCodeFromMessage_message`: which messages of the table have such a
  word, and that each is recognised as its code;
* `survives_iff`: **the texts whose code reaches the caller**;
* `not_survives_sampleLog`: a rejection whose event log names a function `balance`.
-/

namespace StellarForge.Frontend

open Submission Text

/-! ### From the simulation to the caller -/

/-- A thrown `Error` with a message. -/
def thrownError (message : String) : Thrown := .object message (.text message) .absent none

/-- What a write call rejects with when its simulation has failed with `error`. -/
def simulationError (error : String) : CallError :=
  .other (parseContractError (thrownError (parseContractError (thrownError error))))

/-- What happened to a write that did not confirm, and whether retrying is safe. -/
structure TransactionFailure where
  kind : TransactionStatus
  message : String
  safeToRetry : Bool
  contractErrorCode : Option ℕ := none
  retryRequirement : Option String := none
  txHash : Option String := none
  deriving DecidableEq, Repr

/-- The failure that a caught error is. -/
def toFailure (err : CallError) : TransactionFailure :=
  match err with
  | .submission error =>
    { kind := err.kind
      message := error.message
      safeToRetry := error.safeToRetry
      contractErrorCode := error.contractErrorCode
      retryRequirement := error.retryRequirement
      txHash := error.txHash }
  | .other message =>
    match (contractErrorCodeFromMessage (some message)).filter isDeterministicContractError with
    | some code =>
      { kind := .error
        message
        safeToRetry := false
        contractErrorCode := some code
        retryRequirement := contractErrorRetryRequirement code }
    | none => { kind := .error, message, safeToRetry := true }

/-! ### The cascade -/

/-- The words that are looked for before a code, and the message that stands for them. -/
def genericRules : List (List String × String) := [
  (["user declined", "user rejected", "rejected by user"],
    "Transaction rejected. You declined the signing request in your wallet."),
  (["insufficient", "op_underfunded", "balance"],
    "Insufficient funds. Your XLM balance is too low to cover this transaction."),
  (["rate limit", "too many requests", "http error 429", "status 429"],
    "The server is currently rate-limiting requests. Please wait a moment and try again. " ++
      "If this persists, consider using a dedicated RPC provider."),
  (["timeout", "timed out", "network"],
    "Network timeout. The Stellar network did not respond in time. Please retry.")]

/-- The text has none of the words. -/
def Quiet (text : String) : Prop :=
  ∀ rule ∈ genericRules, includesAny (toLowerCase text) rule.1 = false

instance {text : String} : Decidable (Quiet text) :=
  inferInstanceAs (Decidable (∀ rule ∈ genericRules, _))

variable {text : String} {code : ℕ}

/-- The cascade as a search through the rules. -/
theorem parseContractError_eq :
    parseContractError (thrownError text) =
      match genericRules.find? fun rule => includesAny (toLowerCase text) rule.1 with
      | some rule => rule.2
      | none =>
        match contractErrorCodeFromMessage (some text) with
        | some code => contractErrorMessage code
        | none => if includes text "simulation" then "Simulation failed: " ++ text else text := by
  unfold parseContractError thrownError Thrown.text genericRules
  rw [List.find?_cons, List.find?_cons, List.find?_cons, List.find?_cons, List.find?_nil]
  dsimp only
  -- the first rule with a word in the text decides
  cases includesAny (toLowerCase text) ["user declined", "user rejected", "rejected by user"] with
  | true => rfl
  | false =>
  cases includesAny (toLowerCase text) ["insufficient", "op_underfunded", "balance"] with
  | true => rfl
  | false =>
  cases includesAny (toLowerCase text)
    ["rate limit", "too many requests", "http error 429", "status 429"] with
  | true => rfl
  | false =>
  cases includesAny (toLowerCase text) ["timeout", "timed out", "network"] with
  | true => rfl
  | false => rfl

/-- A text with one of the words loses everything else. -/
theorem parseContractError_of_not_quiet (h : ¬ Quiet text) :
    parseContractError (thrownError text) ∈ genericRules.map Prod.snd := by
  rw [parseContractError_eq]
  cases hfind : genericRules.find? fun rule => includesAny (toLowerCase text) rule.1 with
  | some rule => exact List.mem_map_of_mem (List.mem_of_find?_eq_some hfind)
  | none =>
    refine absurd (fun rule hrule => ?_) h
    exact eq_false_of_ne_true (List.find?_eq_none.mp hfind rule hrule)

/-- In a text without them the code is looked for. -/
theorem parseContractError_of_quiet (h : Quiet text)
    (hcode : contractErrorCodeFromMessage (some text) = some code) :
    parseContractError (thrownError text) = contractErrorMessage code := by
  have hnone : (genericRules.find? fun rule => includesAny (toLowerCase text) rule.1) = none := by
    rw [List.find?_eq_none]
    intro rule hrule
    rw [h rule hrule]
    exact Bool.false_ne_true
  rw [parseContractError_eq, hnone, hcode]

/-! ### The messages of the table -/

theorem map_toList_entry {α : Type*} {a : α} {s : List Char} {l : List (α × String)}
    {cs : List (List Char)} (h : (l.map Prod.snd).map String.toList = cs) :
    (((a, String.ofList s) :: l).map Prod.snd).map String.toList = s :: cs := by
  rw [List.map_cons]
  exact map_toList_cons h

theorem map_toList_append_entry {α : Type*} {a : α} {s t : List Char} {l : List (α × String)}
    {cs : List (List Char)} (h : (l.map Prod.snd).map String.toList = cs) :
    (((a, String.ofList s ++ String.ofList t) :: l).map Prod.snd).map String.toList =
      (s ++ t) :: cs := by
  rw [List.map_cons, List.map_cons, String.toList_append, String.toList_ofList,
    String.toList_ofList, h]

/-- Whether a text has one of the words, on characters. -/
def mentions (words : List (List Char)) (text : List Char) : Bool :=
  words.any fun word => occurs word (text.map lowerChar)

/-- A text is quiet when it mentions none of the words. -/
theorem quiet_iff {words : List (List Char)}
    (hwords : (genericRules.flatMap Prod.fst).map String.toList = words) :
    Quiet text ↔ mentions words text.toList = false := by
  rw [← hwords, mentions, List.any_map, List.any_eq_false]
  constructor
  · intro h word hword
    obtain ⟨rule, hrule, hin⟩ := List.mem_flatMap.mp hword
    have hnone := List.any_eq_false.mp (h rule hrule) word hin
    rwa [includes_toLowerCase] at hnone
  · intro h rule hrule
    rw [includesAny, List.any_eq_false]
    intro word hword
    rw [includes_toLowerCase]
    exact h word (List.mem_flatMap.mpr ⟨rule, hrule, hword⟩)

/-- What is evaluated on the texts: which messages have one of the words, that no two of them are
the same, that none names a code itself, and that none is a message of another kind. -/
theorem messages_checked :
    ∃ texts words generic pattern unknown,
      (CONTRACT_ERROR_MESSAGES.map Prod.snd).map String.toList = texts ∧
      (genericRules.flatMap Prod.fst).map String.toList = words ∧
      (genericRules.map Prod.snd).map String.toList = generic ∧
      "Error(Contract,".toList = pattern ∧
      "An unexpected contract error occurred (code ".toList = unknown ∧
      (texts.map (mentions words) =
        CONTRACT_ERROR_MESSAGES.map fun entry => decide (entry.1 = 1 ∨ entry.1 = 7)) ∧
      texts.Nodup ∧
      (∀ text ∈ texts, occurs pattern text = false) ∧
      (∀ text ∈ texts, text ∉ generic) ∧
      ∀ text ∈ texts, unknown.isPrefixOf text = false := by
  -- the texts are named once, and the checks below evaluate over the lists of characters
  apply Exists.intro
  apply Exists.intro
  apply Exists.intro
  apply Exists.intro
  apply Exists.intro
  refine And.intro ?_ (And.intro ?_ (And.intro ?_ (And.intro ?_ (And.intro ?_ ?_))))
  · unfold CONTRACT_ERROR_MESSAGES
    repeat apply map_toList_entry
    exact rfl
  · unfold genericRules
    repeat rewrite [List.flatMap_cons]
    rewrite [List.flatMap_nil]
    repeat rewrite [List.cons_append]
    repeat rewrite [List.nil_append]
    repeat apply map_toList_cons
    exact List.map_nil
  · unfold genericRules
    apply map_toList_entry
    apply map_toList_entry
    apply map_toList_append_entry
    apply map_toList_entry
    exact rfl
  · exact String.toList_ofList
  · exact String.toList_ofList
  · -- the five facts about the table
    refine And.intro ?_ (And.intro ?_ (And.intro ?_ (And.intro ?_ ?_)))
    · decide +kernel
    · decide +kernel
    · decide +kernel
    · decide +kernel
    · decide +kernel

section Table

variable {message : String}

theorem mem_of_lookup (h : CONTRACT_ERROR_MESSAGES.lookup code = some message) :
    (code, message) ∈ CONTRACT_ERROR_MESSAGES := by
  obtain ⟨before, after, hsplit, -⟩ := List.lookup_eq_some_iff.mp h
  rw [hsplit]
  exact List.mem_append_right _ List.mem_cons_self

theorem contractErrorMessage_of_lookup (h : CONTRACT_ERROR_MESSAGES.lookup code = some message) :
    contractErrorMessage code = message := by
  rw [contractErrorMessage, h, Option.getD_some]

/-- Only the messages of two codes have a word of a rule. -/
theorem quiet_message (h : (code, message) ∈ CONTRACT_ERROR_MESSAGES) :
    Quiet message ↔ code ≠ 1 ∧ code ≠ 7 := by
  obtain ⟨texts, words, -, -, -, htexts, hwords, -, -, -, hchecked, -⟩ := messages_checked
  rw [quiet_iff hwords]
  rw [← htexts, List.map_map, List.map_map] at hchecked
  have hentry := List.map_inj_left.mp hchecked _ h
  simp only [Function.comp_apply] at hentry
  rw [hentry, decide_eq_false_iff_not, not_or]

/-- No two codes have the same message. -/
theorem messages_nodup : (CONTRACT_ERROR_MESSAGES.map Prod.snd).Nodup := by
  obtain ⟨texts, -, -, -, -, htexts, -, -, -, -, -, hnodup, -⟩ := messages_checked
  rw [← htexts] at hnodup
  exact hnodup.of_map String.toList

theorem code_unique {other : ℕ} (h : (code, message) ∈ CONTRACT_ERROR_MESSAGES)
    (hother : (other, message) ∈ CONTRACT_ERROR_MESSAGES) : other = code :=
  congrArg Prod.fst (List.inj_on_of_nodup_map messages_nodup hother h rfl)

theorem toList_mem {texts : List (List Char)}
    (htexts : (CONTRACT_ERROR_MESSAGES.map Prod.snd).map String.toList = texts)
    (h : (code, message) ∈ CONTRACT_ERROR_MESSAGES) : message.toList ∈ texts := by
  rw [← htexts]
  exact List.mem_map_of_mem (List.mem_map_of_mem h)

/-- A message that has been mapped is recognised as its code. -/
theorem contractErrorCodeFromMessage_message (h : (code, message) ∈ CONTRACT_ERROR_MESSAGES) :
    contractErrorCodeFromMessage (some message) = some code := by
  obtain ⟨texts, -, -, pattern, -, htexts, -, -, hpattern, -, -, -, hplain, -⟩ := messages_checked
  -- a message of the table has no code written in it
  have hnamed : firstMatch contractErrorAt message.toList = none := by
    apply firstMatch_eq_none
    intro rest hrest
    rw [contractErrorAt, afterPrefix, hpattern,
      not_isPrefixOf_of_occurs (hplain _ (toList_mem htexts h)) hrest]
    rfl
  -- but it is the message of one entry only
  have hfind : (CONTRACT_ERROR_MESSAGES.find? fun entry => entry.2 == message) =
      some (code, message) := by
    cases hfound : CONTRACT_ERROR_MESSAGES.find? fun entry => entry.2 == message with
    | none => exact absurd (beq_self_eq_true message) (List.find?_eq_none.mp hfound _ h)
    | some entry =>
      have hmessage : entry.2 = message := by
        have hequal := List.find?_some hfound
        exact eq_of_beq hequal
      have hmem : (entry.1, message) ∈ CONTRACT_ERROR_MESSAGES := by
        rw [← hmessage]
        exact List.mem_of_find?_eq_some hfound
      rw [← code_unique h hmem, ← hmessage]
  simp only [contractErrorCodeFromMessage, Option.bind_eq_bind, Option.bind_some, hnamed,
    Option.none_or, hfind, Option.map_some]

theorem message_not_generic (h : (code, message) ∈ CONTRACT_ERROR_MESSAGES) :
    message ∉ genericRules.map Prod.snd := by
  obtain ⟨texts, -, generic, -, -, htexts, -, hgeneric, -, -, -, -, -, hother, -⟩ :=
    messages_checked
  intro hmem
  refine hother _ (toList_mem htexts h) ?_
  rw [← hgeneric]
  exact List.mem_map_of_mem hmem

/-- A message of the table is what only its own code is mapped to. -/
theorem contractErrorMessage_inj {other : ℕ} (h : (code, message) ∈ CONTRACT_ERROR_MESSAGES)
    (hother : contractErrorMessage other = message) : other = code := by
  obtain ⟨texts, -, -, -, unknown, htexts, -, -, -, hunknown, -, -, -, -, hprefix⟩ :=
    messages_checked
  cases hlookup : CONTRACT_ERROR_MESSAGES.lookup other with
  | some found =>
    rw [contractErrorMessage_of_lookup hlookup] at hother
    subst hother
    exact code_unique h (mem_of_lookup hlookup)
  | none =>
    -- the message of an unknown code starts as none of the table does
    have hstarts := hprefix _ (toList_mem htexts h)
    rw [← hother, contractErrorMessage, hlookup, Option.getD_none, String.toList_append,
      String.toList_append, ← hunknown, List.append_assoc] at hstarts
    rw [List.isPrefixOf_iff_prefix.mpr (List.prefix_append _ _)] at hstarts
    exact absurd hstarts.symm Bool.false_ne_true

end Table

/-! ### What survives -/

/-- At position `i` the text reads `Error(Contract, code)`. -/
def CodeAt (text : String) (i code : ℕ) : Prop := contractErrorAt (text.toList.drop i) = some code

instance {text : String} {i code : ℕ} : Decidable (CodeAt text i code) :=
  inferInstanceAs (Decidable (_ = _))

/-- The rejection of the contract reaches the caller, and a deterministic one is not offered for a
retry. -/
structure Survives (text : String) (code : ℕ) : Prop where
  parsed : parseContractError (thrownError text) = contractErrorMessage code
  idempotent :
    parseContractError (thrownError (parseContractError (thrownError text))) =
      parseContractError (thrownError text)
  caller : simulationError text = .other (contractErrorMessage code)
  withheld : isDeterministicContractError code = true →
    toFailure (simulationError text) =
      { kind := .error
        message := contractErrorMessage code
        safeToRetry := false
        contractErrorCode := some code
        retryRequirement := contractErrorRetryRequirement code }

/-- The code that a text is read as is the first it names. -/
theorem contractErrorCodeFromMessage_of_first {i : ℕ} (hat : CodeAt text i code)
    (hfirst : ∀ j < i, ∀ other, ¬ CodeAt text j other) :
    contractErrorCodeFromMessage (some text) = some code := by
  have hmatch : firstMatch contractErrorAt text.toList = some code :=
    firstMatch_eq_some.mpr
      ⟨i, hat, fun j hj => Option.eq_none_iff_forall_ne_some.mpr (hfirst j hj)⟩
  simp only [contractErrorCodeFromMessage, Option.bind_eq_bind, Option.bind_some, hmatch,
    Option.some_or]

/-- A text with a code has a first one. -/
theorem exists_first (h : ∃ i, CodeAt text i code) :
    ∃ i first, CodeAt text i first ∧ ∀ j < i, ∀ other, ¬ CodeAt text j other := by
  classical
  have hex : ∃ i, ∃ other, CodeAt text i other := by
    obtain ⟨i, hi⟩ := h
    exact ⟨i, code, hi⟩
  obtain ⟨first, hfirst⟩ := Nat.find_spec hex
  refine ⟨Nat.find hex, first, hfirst, ?_⟩
  intro j hj other hother
  exact Nat.find_min hex hj ⟨other, hother⟩

theorem not_survives_of_not_quiet {message : String}
    (hcode : CONTRACT_ERROR_MESSAGES.lookup code = some message) (h : ¬ Quiet text) :
    parseContractError (thrownError text) ≠ contractErrorMessage code := by
  intro hparsed
  rw [contractErrorMessage_of_lookup hcode] at hparsed
  refine message_not_generic (mem_of_lookup hcode) ?_
  rw [← hparsed]
  exact parseContractError_of_not_quiet h

/-- A rejection of the simulation reaches the caller exactly when its text has none of the words,
nor has the message of its code, and the text names no other code first. -/
theorem survives_iff (hcode : (CONTRACT_ERROR_MESSAGES.lookup code).isSome)
    (hnamed : ∃ i, CodeAt text i code) :
    Survives text code ↔
      Quiet text ∧ code ≠ 1 ∧ code ≠ 7 ∧
        ∃ i, CodeAt text i code ∧ ∀ j < i, ∀ other, ¬ CodeAt text j other := by
  obtain ⟨message, hmessage⟩ := Option.isSome_iff_exists.mp hcode
  have hentry := mem_of_lookup hmessage
  have htext := contractErrorMessage_of_lookup hmessage
  constructor
  · intro h
    have hquiet : Quiet text :=
      not_not.mp fun hloud => not_survives_of_not_quiet hmessage hloud h.parsed
    -- the second parse reads the message of the table in place of the text
    have hagain : Quiet message := by
      refine not_not.mp fun hloud => not_survives_of_not_quiet hmessage hloud ?_
      have hidempotent := h.idempotent
      rw [h.parsed] at hidempotent
      rw [← htext]
      exact hidempotent
    obtain ⟨hone, hseven⟩ := (quiet_message hentry).mp hagain
    -- the pattern finds the first code of the text, and messages tell codes apart
    obtain ⟨i, first, hat, hbefore⟩ := exists_first hnamed
    have hparsed :=
      parseContractError_of_quiet hquiet (contractErrorCodeFromMessage_of_first hat hbefore)
    rw [h.parsed] at hparsed
    have hsame : first = code := contractErrorMessage_inj hentry (hparsed.symm.trans htext)
    subst hsame
    exact ⟨hquiet, hone, hseven, i, hat, hbefore⟩
  · -- conversely both parses find the code, and the caller sees its message
    rintro ⟨hquiet, hone, hseven, i, hat, hbefore⟩
    have hparsed :=
      parseContractError_of_quiet hquiet (contractErrorCodeFromMessage_of_first hat hbefore)
    have hagain : parseContractError (thrownError (contractErrorMessage code)) =
        contractErrorMessage code := by
      refine parseContractError_of_quiet ?_ ?_
      · rw [htext]
        exact (quiet_message hentry).mpr ⟨hone, hseven⟩
      · rw [htext]
        exact contractErrorCodeFromMessage_message hentry
    have hcaller : simulationError text = .other (contractErrorMessage code) := by
      rw [simulationError, hparsed, hagain]
    refine ⟨hparsed, ?_, hcaller, ?_⟩
    · rw [hparsed, hagain]
    · intro hdeterministic
      rw [hcaller, toFailure, htext, contractErrorCodeFromMessage_message hentry,
        Option.filter_some, if_pos hdeterministic]

/-- A mint above the cap of the token, as the host renders it. -/
theorem survives_sampleMint :
    ((CONTRACT_ERROR_MESSAGES.lookup 16).isSome ∧ ∃ i, CodeAt "HostError: Error(Contract, 16)" i 16) ∧
      (Survives "HostError: Error(Contract, 16)" 16 ↔
        Quiet "HostError: Error(Contract, 16)" ∧ 16 ≠ 1 ∧ 16 ≠ 7 ∧
          ∃ i, CodeAt "HostError: Error(Contract, 16)" i 16 ∧
            ∀ j < i, ∀ other, ¬ CodeAt "HostError: Error(Contract, 16)" j other) := by
  have hcode : (CONTRACT_ERROR_MESSAGES.lookup 16).isSome := rfl
  have hnamed : ∃ i, CodeAt "HostError: Error(Contract, 16)" i 16 := ⟨11, by decide +kernel⟩
  exact ⟨⟨hcode, hnamed⟩, survives_iff hcode hnamed⟩

/-- The same rejection, with an event log that names a call of `balance`. -/
def sampleLog : String := "HostError: Error(Contract, 16)\n\nEvent log:\n 0: [fn_call, balance]"

/-- A requirement that is lost on the way through two texts. -/
theorem not_survives_sampleLog :
    ¬ ∀ (text : String) (code : ℕ), (CONTRACT_ERROR_MESSAGES.lookup code).isSome →
      (∃ i, CodeAt text i code) → Survives text code := by
  intro h
  have hloud : ¬ Quiet sampleLog := by decide +kernel
  exact not_survives_of_not_quiet rfl hloud (h sampleLog 16 rfl ⟨11, by decide +kernel⟩).parsed

end StellarForge.Frontend
