import StellarForge.Collections.Numerals
import StellarForge.Factory.Properties.Views
import StellarForge.Frontend.ErrorText
import StellarForge.Frontend.TokenReads

/-!
# The identity of a token, by its address

`resolveTokenInfoByAddress` simulates `get_token_info_by_address` and `get_metadata` at a node, and tells an
address that the factory does not know from a factory that cannot be reached by the text of the error.

* `isNotFound_contractErrorMessage`: which messages of the table are read as an unknown address;
* `getTokenInfoByAddressView_of_registered`: a registered token is resolved to what the factory has recorded;
* `resolution_iff`: **what is reported of an address**, in every reachable state of the factory.
-/

namespace StellarForge.Frontend.Tokens

open Soroban Contract Factory Collections Text Submission

/-! ### The service -/

/-- How the simulation of a view ends. -/
inductive Simulation
  | returned (ret : Ret)
  /-- `isSimulationError`, with its text -/
  | failed (error : String)
  | noResult
  /-- What is thrown before there is a reply. -/
  | thrown (message : String)

/-- What a node simulates, view by view. -/
abbrev RpcServer := View → Simulation

/-- `callViewReadonly`; the error is the message. -/
def callViewReadonly (server : RpcServer) (method : String) (view : View) : Except String Ret :=
  match server view with
  | .returned ret => .ok ret
  | .failed error => .error (parseContractError (thrownError error))
  | .noResult => .error ("View call to " ++ method ++ " returned no result")
  | .thrown message => .error message

/-- What the service takes from the SDK: the decoding of values, and `new Address(text)`. -/
structure IdentitySdk extends ViewSdk where
  parseAddress : String → Except String Address

/-- An address that is read back is rendered for itself alone. -/
theorem IdentitySdk.injective_address (sdk : IdentitySdk)
    (hparse : ∀ a, sdk.parseAddress (sdk.address a) = .ok a) : Function.Injective sdk.address := by
  intro a a' heq
  have hsame := (hparse a).symm.trans ((congrArg sdk.parseAddress heq).trans (hparse a'))
  exact Except.ok.inj hsame

/-- `getTokenInfoByAddressView` -/
def getTokenInfoByAddressView (sdk : IdentitySdk) (server : RpcServer) (tokenAddress : String) :
    Except String TokenInfo := do
  let address ← sdk.parseAddress tokenAddress
  match ← callViewReadonly server "get_token_info_by_address" (.getTokenInfoByAddress address) with
  | .info native => return identityOf sdk.toViewSdk native
  | _ => throw "Cannot read properties of undefined"

/-- The URI, or an empty text where none has been set. -/
def getTokenMetadataUri (sdk : IdentitySdk) (server : RpcServer) (tokenAddress : String) :
    Except String String := do
  let address ← sdk.parseAddress tokenAddress
  match ← callViewReadonly server "get_metadata" (.getMetadata address) with
  | .uri uri => return uri.elim "" sdk.text
  | _ => return ""

/-- Why a token could not be resolved. -/
inductive UnresolvedReason
  | notFound
  | rpcError
  deriving DecidableEq, Repr

/-- A token, or why there is none. -/
inductive TokenInfoResult
  | resolved (info : TokenInfo)
  | unresolved (address : String) (reason : UnresolvedReason) (message : String)
  deriving DecidableEq, Repr

/-- `/Error\(Contract,\s*4\)/` at the head of the text -/
def tokenNotFoundAt (text : List Char) : Option (List Char) := do
  let arguments ← afterPrefix "Error(Contract,".toList text
  afterPrefix "4)".toList (arguments.dropWhile isSpace)

/-- The message is read as that of an unknown token.  No character outside ASCII matches a letter when the
case is ignored. -/
def isNotFound (message : String) : Bool :=
  occurs "token not found".toList (message.toList.map Char.toLower) ||
    (firstMatch tokenNotFoundAt message.toList).isSome

/-- The token at an address, with errors told apart. -/
def resolveTokenInfoByAddress (sdk : IdentitySdk) (server : RpcServer) (tokenAddress : String) :
    TokenInfoResult :=
  match getTokenInfoByAddressView sdk server tokenAddress with
  | .ok info =>
    -- the metadata is not critical
    .resolved { info with
      metadataUri := some ((getTokenMetadataUri sdk server tokenAddress).toOption.getD "") }
  | .error message =>
    if isNotFound message then
      .unresolved tokenAddress .notFound
        ("No token is registered at " ++ tokenAddress ++ " with the factory contract.")
    else
      .unresolved tokenAddress .rpcError
        ("Could not resolve token " ++ tokenAddress ++ ": " ++ message)

/-- `getTokenInfoByAddress`, whose rejections are texts -/
def getTokenInfoByAddress (sdk : IdentitySdk) (server : RpcServer) (tokenAddress : String) :
    Except String TokenInfo :=
  match resolveTokenInfoByAddress sdk server tokenAddress with
  | .resolved info => .ok info
  | .unresolved _ .notFound _ => .error ("No token found at address " ++ tokenAddress)
  | .unresolved _ .rpcError message => .error message

/-- The server simulates in the world `w`, and renders the errors of the contract as texts. -/
def Simulates (server : RpcServer) (render : Error → String) (env : Env) (w : World) (view : View) :
    Prop :=
  server view = match view.exec env w with
    | some (.ok ret, _) => .returned ret
    | some (.error err, _) => .failed (render err)
    | none => .failed "HostError"

/-! ### The messages that are read as an unknown address -/

/-- What is evaluated on the texts: which messages of the table speak of an unknown token, and that no
message renders a code of the contract itself. -/
theorem notFound_checked :
    ∃ texts generic needle pattern unknown,
      (CONTRACT_ERROR_MESSAGES.map Prod.snd).map String.toList = texts ∧
      (genericRules.map Prod.snd).map String.toList = generic ∧
      "token not found".toList = needle ∧
      "Error(Contract,".toList = pattern ∧
      "An unexpected contract error occurred (code ".toList = unknown ∧
      (texts.map (fun text => occurs needle (text.map Char.toLower)) =
        CONTRACT_ERROR_MESSAGES.map fun entry => decide (entry.1 = 4)) ∧
      (∀ text ∈ generic, occurs needle (text.map Char.toLower) = false) ∧
      (∀ text ∈ texts, occurs pattern text = false) ∧
      (∀ text ∈ generic, occurs pattern text = false) ∧
      apart needle (unknown.map Char.toLower) = true ∧ apart pattern unknown = true ∧
      'k' ∈ needle ∧ 'C' ∈ pattern := by
  -- one occurrence of each text, so that the checks are about lists of characters
  apply Exists.intro
  apply Exists.intro
  apply Exists.intro
  apply Exists.intro
  apply Exists.intro
  refine And.intro ?_ (And.intro ?_ (And.intro ?_ (And.intro ?_ (And.intro ?_ ?_))))
  · unfold CONTRACT_ERROR_MESSAGES
    repeat apply map_toList_entry
    exact rfl
  · unfold genericRules
    apply map_toList_entry
    apply map_toList_entry
    apply map_toList_append_entry
    apply map_toList_entry
    exact rfl
  · exact String.toList_ofList
  · exact String.toList_ofList
  · exact String.toList_ofList
  · refine ⟨?_, ?_, ?_, ?_, ?_, ?_, ?_, ?_⟩
    · decide +kernel
    · decide +kernel
    · decide +kernel
    · decide +kernel
    · decide +kernel
    · decide +kernel
    · decide +kernel
    · decide +kernel

/-- A text that does not render a code is read by its words alone. -/
theorem isNotFound_of_plain {message : String}
    (h : occurs "Error(Contract,".toList message.toList = false) :
    isNotFound message = occurs "token not found".toList (message.toList.map Char.toLower) := by
  have hnone : firstMatch tokenNotFoundAt message.toList = none := by
    apply firstMatch_eq_none
    intro rest hrest
    rw [tokenNotFoundAt, afterPrefix, not_isPrefixOf_of_occurs h hrest]
    rfl
  rw [isNotFound, hnone]
  exact Bool.or_false _

variable {code : ℕ} {message : String}

/-- One message of the table is read as an unknown address. -/
theorem isNotFound_message (h : (code, message) ∈ CONTRACT_ERROR_MESSAGES) :
    isNotFound message = true ↔ code = 4 := by
  obtain ⟨texts, -, needle, pattern, -, htexts, -, hneedle, hpattern, -, hchecked, -, hplain, -⟩ :=
    notFound_checked
  rw [isNotFound_of_plain (hpattern ▸ hplain _ (toList_mem htexts h)), hneedle]
  rw [← htexts, List.map_map, List.map_map] at hchecked
  have hentry := List.map_inj_left.mp hchecked _ h
  simp only [Function.comp_apply] at hentry
  rw [hentry, decide_eq_true_iff]

theorem not_isNotFound_generic (h : message ∈ genericRules.map Prod.snd) :
    isNotFound message = false := by
  obtain ⟨-, generic, needle, pattern, -, -, hgeneric, hneedle, hpattern, -, -, hwords, -, hplain, -⟩ :=
    notFound_checked
  have hmem : message.toList ∈ generic := hgeneric ▸ List.mem_map_of_mem h
  rw [isNotFound_of_plain (hpattern ▸ hplain _ hmem), hneedle]
  exact hwords _ hmem

/-- The characters of a number. -/
theorem isDigit_of_mem_toString {c : Char} (hc : c ∈ (toString code).toList) : c.isDigit = true := by
  have hchars : (toString code).toList = Nat.toDigits 10 code := String.toList_ofList
  exact isDigit_toDigits (hchars ▸ hc)

/-- A digit has no case. -/
theorem toLower_of_isDigit {c : Char} (hc : c.isDigit = true) : c.toLower = c := by
  simp only [Char.isDigit, Bool.and_eq_true, decide_eq_true_eq, UInt32.le_iff_toNat_le] at hc
  have hlow : c.val.toNat ≤ 57 := hc.2
  apply dif_neg
  rintro ⟨hupper, -⟩
  rw [ge_iff_le, UInt32.le_iff_toNat_le] at hupper
  have hupper : 65 ≤ c.val.toNat := hupper
  omega

/-- **What is said for a code of the contract is read as an unknown address for one code only.** -/
theorem isNotFound_contractErrorMessage : isNotFound (contractErrorMessage code) = true ↔ code = 4 := by
  cases hlookup : CONTRACT_ERROR_MESSAGES.lookup code with
  | some message =>
    rw [contractErrorMessage_of_lookup hlookup]
    exact isNotFound_message (mem_of_lookup hlookup)
  | none =>
    obtain ⟨-, -, needle, pattern, unknown, -, -, hneedle, hpattern, hunknown, -, -, -, -, hapart,
      hapart', hk, hC⟩ := notFound_checked
    have htext : (contractErrorMessage code).toList =
        unknown ++ ((toString code).toList ++ ").".toList) := by
      rw [contractErrorMessage, hlookup, Option.getD_none, String.toList_append, String.toList_append,
        hunknown, List.append_assoc]
    have hother : code ≠ 4 := by
      rintro rfl
      cases hlookup
    refine iff_of_false ?_ hother
    -- neither the words nor a code begin in the text before the number, and the rest has not the letters
    rw [isNotFound_of_plain, hneedle, htext, List.map_append, Bool.not_eq_true]
    · refine occurs_append_of_apart hapart hk fun hmem => ?_
      obtain ⟨c, hc, hlower⟩ := List.mem_map.mp hmem
      rcases List.mem_append.mp hc with hc | hc
      · have hdigit := isDigit_of_mem_toString hc
        rw [toLower_of_isDigit hdigit] at hlower
        rw [hlower] at hdigit
        exact absurd hdigit (by decide)
      · exact absurd (List.mem_map.mpr ⟨c, hc, hlower⟩) (by decide)
    · rw [hpattern, htext]
      refine occurs_append_of_apart hapart' hC fun hmem => ?_
      rcases List.mem_append.mp hmem with hc | hc
      · exact absurd (isDigit_of_mem_toString hc) (by decide)
      · exact absurd hc (by decide)

/-- The code that a text names first. -/
def NamesFirst (text : String) (code : ℕ) : Prop :=
  ∃ i, CodeAt text i code ∧ ∀ j < i, ∀ other, ¬ CodeAt text j other

/-- The texts of a rejected simulation that are read as an unknown address. -/
theorem isNotFound_parseContractError {text : String} (hnamed : ∃ i, CodeAt text i code) :
    isNotFound (parseContractError (thrownError text)) = true ↔ Quiet text ∧ NamesFirst text 4 := by
  by_cases hquiet : Quiet text
  · obtain ⟨i, first, hat, hbefore⟩ := exists_first hnamed
    have hread := contractErrorCodeFromMessage_of_first hat hbefore
    rw [parseContractError_of_quiet hquiet hread, isNotFound_contractErrorMessage,
      and_iff_right hquiet]
    constructor
    · rintro rfl
      exact ⟨i, hat, hbefore⟩
    · rintro ⟨i', hat', hbefore'⟩
      have hread' := contractErrorCodeFromMessage_of_first hat' hbefore'
      exact Option.some.inj (hread.symm.trans hread')
  · refine iff_of_false ?_ fun h => hquiet h.1
    rw [not_isNotFound_generic (parseContractError_of_not_quiet hquiet)]
    exact Bool.false_ne_true

/-! ### What is reported of an address -/

variable {sdk : IdentitySdk} {server : RpcServer} {render : Error → String} {env : Env} {w : World}
  {m : FactoryModel} {tokenAddress : String} {address : Address} {t : Token}
  {args : ConstructorArgs} {h : List Invocation}

theorem Simulates.eq {view : View} (hserver : Simulates server render env w view)
    (hw : Represents w m) (hle : m.tokens.length ≤ U32.MAX) :
    server view = match m.answer view with
      | .ok ret => .returned ret
      | .error err => .failed (render err) := by
  rw [hserver, hw.exec_view hle view]
  cases m.answer view <;> rfl

/-- The identity of a registered token is what the factory has recorded. -/
theorem getTokenInfoByAddressView_of_registered (hparse : sdk.parseAddress tokenAddress = .ok address)
    (hserver : Simulates server render env w (.getTokenInfoByAddress address))
    (hw : Represents w m) (hle : m.tokens.length ≤ U32.MAX)
    (ht : m.tokens.find? address = some t) :
    getTokenInfoByAddressView sdk server tokenAddress =
      .ok (identityOf sdk.toViewSdk t.info) := by
  have hanswer : m.answer (.getTokenInfoByAddress address) = .ok (.info t.info) := by
    rw [FactoryModel.answer, ht]
    rfl
  have hreply := hserver.eq hw hle
  rw [hanswer] at hreply
  rw [getTokenInfoByAddressView, hparse]
  show (callViewReadonly server _ _ >>= _) = _
  rw [callViewReadonly, hreply]
  rfl

/-- That of an unknown address is the message for the error of the contract. -/
theorem getTokenInfoByAddressView_of_unknown (hparse : sdk.parseAddress tokenAddress = .ok address)
    (hserver : Simulates server render env w (.getTokenInfoByAddress address))
    (hw : Represents w m) (hle : m.tokens.length ≤ U32.MAX)
    (ht : m.tokens.find? address = none) :
    getTokenInfoByAddressView sdk server tokenAddress =
      .error (parseContractError (thrownError (render .tokenNotFound))) := by
  have hanswer : m.answer (.getTokenInfoByAddress address) = .error .tokenNotFound := by
    rw [FactoryModel.answer, ht]
    rfl
  have hreply := hserver.eq hw hle
  rw [hanswer] at hreply
  rw [getTokenInfoByAddressView, hparse]
  show (callViewReadonly server _ _ >>= _) = _
  rw [callViewReadonly, hreply]
  rfl

/-- The token as it is shown; the URI is an empty text where it cannot be read. -/
def shownToken (sdk : IdentitySdk) (server : RpcServer) (tokenAddress : String) (t : Token) :
    TokenInfo :=
  { identityOf sdk.toViewSdk t.info with
    metadataUri := some ((getTokenMetadataUri sdk server tokenAddress).toOption.getD "") }

/-- **What is reported of an address**, where the node answers from a reachable state of the factory and
renders the code of an error: exactly a registered token is resolved, to what the factory has recorded of
it, whatever becomes of the metadata; and an unknown address is reported as such exactly when the text of
the error has none of the words that are looked for first, and names the code `4` before any other. -/
theorem resolution_iff (hr : Reaches args h w) (hparse : sdk.parseAddress tokenAddress = .ok address)
    (hserver : Simulates server render env w (.getTokenInfoByAddress address))
    (hnamed : ∃ i, CodeAt (render .tokenNotFound) i 4) :
    ∃ m, Represents w m ∧
      (∀ info, resolveTokenInfoByAddress sdk server tokenAddress = .resolved info ↔
        ∃ t, m.tokens.find? address = some t ∧ shownToken sdk server tokenAddress t = info) ∧
      ((∃ message, resolveTokenInfoByAddress sdk server tokenAddress =
          .unresolved tokenAddress .notFound message) ↔
        m.tokens.find? address = none ∧ Quiet (render .tokenNotFound) ∧
          NamesFirst (render .tokenNotFound) 4) := by
  obtain ⟨m, -, hw, hle⟩ := hr.represents_countable
  refine ⟨m, hw, ?_⟩
  rcases ht : m.tokens.find? address with _ | t
  · -- an unknown token is reported by the text of the contract's error
    have hview := getTokenInfoByAddressView_of_unknown hparse hserver hw hle ht
    have hreported := isNotFound_parseContractError hnamed
    rw [resolveTokenInfoByAddress, hview]
    dsimp only
    split_ifs with hmessage
    · exact ⟨fun info => iff_of_false nofun (by simp),
        iff_of_true ⟨_, rfl⟩ ⟨rfl, hreported.mp hmessage⟩⟩
    · exact ⟨fun info => iff_of_false nofun (by simp),
        iff_of_false (by simp) fun hquiet => hmessage (hreported.mpr hquiet.2)⟩
  · -- a registered one is found, and no error is involved
    have hview := getTokenInfoByAddressView_of_registered hparse hserver hw hle ht
    rw [resolveTokenInfoByAddress, hview]
    refine ⟨fun info => ?_, iff_of_false (by simp) (by simp)⟩
    simp [shownToken]

/-! ### A sample lookup -/

/-- An address is the letter `C` and a number; the texts are in ASCII. -/
def sampleIdentitySdk : IdentitySdk where
  text b := String.ofList (b.map fun unit => Char.ofNat unit.toNat)
  address a := "C" ++ toString a.id
  number n := n
  parseAddress text :=
    match text.toList with
    | 'C' :: digits => .ok ⟨decimal digits⟩
    | _ => .error ("Unsupported address type: " ++ text)

theorem sampleIdentitySdk_parse (a : Address) :
    sampleIdentitySdk.parseAddress (sampleIdentitySdk.address a) = .ok a := by
  have htext : ("C" ++ toString a.id).toList = 'C' :: Nat.toDigits 10 a.id := by
    rw [String.toList_append]
    exact congrArg _ Nat.toList_repr
  show (match ("C" ++ toString a.id).toList with
    | 'C' :: digits => .ok ⟨decimal digits⟩
    | _ => .error _) = (Except.ok a : Except String Address)
  rw [htext]
  show Except.ok (Address.mk (decimal (Nat.toDigits 10 a.id))) = _
  rw [decimal_toDigits]

/-- How the host renders the errors of the contract. -/
def sampleRender : Error → String
  | .tokenNotFound => "HostError: Error(Contract, 4)"
  | _ => "HostError: Error(Contract, 1)"

/-- A node with the state of the sample run. -/
def sampleServer : RpcServer := fun view =>
  match view.exec (permissiveEnv 20 ⟨5⟩) SampleRun.world₂ with
  | some (.ok ret, _) => .returned ret
  | some (.error err, _) => .failed (sampleRender err)
  | none => .failed "HostError"

/-- An address that is not registered is reported as such. -/
theorem resolution_iff_sampleServer :
    ∃ m, Represents SampleRun.world₂ m ∧
      (∀ info, resolveTokenInfoByAddress sampleIdentitySdk sampleServer "C51" = .resolved info ↔
        ∃ t, m.tokens.find? ⟨51⟩ = some t ∧ shownToken sampleIdentitySdk sampleServer "C51" t = info) ∧
      ((∃ message, resolveTokenInfoByAddress sampleIdentitySdk sampleServer "C51" =
          .unresolved "C51" .notFound message) ↔
        m.tokens.find? ⟨51⟩ = none ∧ Quiet (sampleRender .tokenNotFound) ∧
          NamesFirst (sampleRender .tokenNotFound) 4) :=
  have hserver : Simulates sampleServer sampleRender (permissiveEnv 20 ⟨5⟩) SampleRun.world₂
      (.getTokenInfoByAddress ⟨51⟩) := rfl
  resolution_iff SampleRun.reaches (sampleIdentitySdk_parse ⟨51⟩) hserver ⟨11, by decide +kernel⟩

end StellarForge.Frontend.Tokens
