import Mathlib.Data.List.TakeWhile
import StellarForge.Frontend.Addresses
import StellarForge.Frontend.Amounts
import StellarForge.Frontend.TokenForm

/-!
# From the mint and burn forms to the contract

`MintForm` and `BurnForm` check their fields one by one; `mintTokens` and `burnTokens` of the service encode
the strings as they are handed over.  The fields are checked after a trim, as a floating point number or in
any case of letters, and sent as they stand.

* `pos_of_parseFloat`: an amount that `parseFloat` finds above zero is so for `BigInt`, where it has one;
* `wellFormed_iff`: **which of the accepted inputs of the two forms give an invocation that can be encoded,
  with an amount that the contract accepts**;
* `not_wellFormed`: one and a half tokens.
-/

namespace StellarForge.Frontend.SupplyForms

open Factory Encoding Text TokenForm

/-! ### Numbers -/

variable {digits spaces rest : List Char} {negative : Bool} {s : JsString} {n : ℤ}

theorem not_isDigit_of_isSpace {c : Char} (h : isSpace c = true) : c.isDigit = false := by
  by_contra hdigit
  rw [Bool.not_eq_false] at hdigit
  rw [not_isSpace_of_isDigit hdigit] at h
  cases h

/-- The text of a number is cut at the first character that is not a digit. -/
theorem parseUnsigned_cut (hne : digits ≠ []) (hdigits : ∀ c ∈ digits, c.isDigit = true)
    (hrest : ∀ c ∈ rest.head?, c.isDigit = false ∧ c ≠ '.') :
    parseUnsigned negative (digits ++ rest) =
      let q : ℚ := decimal digits * 10 ^ exponent rest
      .ofRat (if negative then -q else q) := by
  have hinfinity : "Infinity".toList.isPrefixOf (digits ++ rest) = false := by
    cases digits with
    | nil => exact absurd rfl hne
    | cons d digits =>
      have hd : d ≠ 'I' := by
        rintro rfl
        exact absurd (hdigits 'I' List.mem_cons_self) (by decide)
      have hword : "Infinity".toList = 'I' :: "nfinity".toList := by decide
      rw [hword, List.cons_append, List.isPrefixOf, beq_false_of_ne hd.symm, Bool.false_and]
  rw [parseUnsigned, hinfinity, if_neg Bool.false_ne_true]
  exact Decimal.literal_digits hne hdigits hrest rfl

/-- A numeral that is read as a number above zero. -/
theorem decimal_pos (hne : digits ≠ []) (hdigits : ∀ c ∈ digits, c.isDigit = true)
    (hrest : ∀ c ∈ rest.head?, c.isDigit = false ∧ c ≠ '.')
    (hpos : (Number.finite 0).lt (parseUnsigned false (digits ++ rest)) = true) :
    0 < decimal digits := by
  rw [parseUnsigned_cut hne hdigits hrest] at hpos
  have hq : (0 : ℚ) < decimal digits * 10 ^ exponent rest := Number.pos_of_lt_ofRat hpos
  rw [Nat.pos_iff_ne_zero]
  intro hzero
  rw [hzero, Nat.cast_zero, zero_mul] at hq
  exact absurd hq (lt_irrefl 0)

theorem not_lt_parseUnsigned_neg (hne : digits ≠ []) (hdigits : ∀ c ∈ digits, c.isDigit = true)
    (hrest : ∀ c ∈ rest.head?, c.isDigit = false ∧ c ≠ '.') :
    (Number.finite 0).lt (parseUnsigned true (digits ++ rest)) = false := by
  rw [parseUnsigned_cut hne hdigits hrest, Bool.eq_false_iff]
  intro hpos
  have hq : (0 : ℚ) < -(decimal digits * 10 ^ exponent rest) := Number.pos_of_lt_ofRat hpos
  have hnonneg : (0 : ℚ) ≤ decimal digits * 10 ^ exponent rest :=
    mul_nonneg (Nat.cast_nonneg _) (zpow_nonneg (by norm_num) _)
  exact absurd hq (not_lt.mpr (neg_nonpos.mpr hnonneg))

/-- What `trim` leaves, and the blanks after it. -/
theorem exists_spaces (l : List Char) : ∃ spaces, (∀ c ∈ spaces, isSpace c = true) ∧
    l = (l.reverse.dropWhile isSpace).reverse ++ spaces := by
  refine ⟨(l.reverse.takeWhile isSpace).reverse, fun c hc => ?_, ?_⟩
  · exact List.mem_takeWhile_imp (List.mem_reverse.mp hc)
  · rw [← List.reverse_append, List.takeWhile_append_dropWhile, List.reverse_reverse]

theorem head?_spaces (h : ∀ c ∈ spaces, isSpace c = true) :
    ∀ c ∈ spaces.head?, c.isDigit = false ∧ c ≠ '.' := by
  intro c hc
  have hspace := h c (List.mem_of_mem_head? hc)
  refine ⟨not_isDigit_of_isSpace hspace, ?_⟩
  rintro rfl
  exact absurd hspace (by decide)

/-- Nothing is read of spaces. -/
theorem parseUnsigned_spaces (h : ∀ c ∈ spaces, isSpace c = true) :
    parseUnsigned negative spaces = .nan := by
  have hinfinity : "Infinity".toList.isPrefixOf spaces = false := by
    cases spaces with
    | nil => rfl
    | cons c spaces =>
      have hword : "Infinity".toList = 'I' :: "nfinity".toList := by decide
      have hI : 'I' ≠ c := by
        rintro rfl
        exact absurd (h 'I' List.mem_cons_self) (by decide)
      rw [hword, List.isPrefixOf, beq_false_of_ne hI, Bool.false_and]
  rw [parseUnsigned, hinfinity, if_neg Bool.false_ne_true]
  exact Decimal.literal_eq_nan (head?_spaces h)

section ParseFloat

variable {l : List Char}

theorem parseFloat_plus (h : (decode s).dropWhile isSpace = '+' :: l) :
    parseFloat s = parseUnsigned false l := by
  rw [parseFloat, h]
  rfl

theorem parseFloat_minus (h : (decode s).dropWhile isSpace = '-' :: l) :
    parseFloat s = parseUnsigned true l := by
  rw [parseFloat, h]
  rfl

theorem parseFloat_unsigned (h : (decode s).dropWhile isSpace = l)
    (hplus : '+' ∉ l.head?) (hminus : '-' ∉ l.head?) : parseFloat s = parseUnsigned false l := by
  rw [parseFloat, h]
  split
  · exact absurd rfl hplus
  · exact absurd rfl hminus
  · rfl

end ParseFloat

/-- A numeral with a prefix of its base is zero for `parseFloat`. -/
theorem not_lt_parseFloat_zero {c : Char} (h : (decode s).dropWhile isSpace = '0' :: c :: rest)
    (hdigit : c.isDigit = false) (hdot : c ≠ '.') : (Number.finite 0).lt (parseFloat s) = false := by
  have hplus : '+' ∉ ('0' :: c :: rest).head? := by simp
  have hminus : '-' ∉ ('0' :: c :: rest).head? := by simp
  rw [parseFloat_unsigned h hplus hminus, Bool.eq_false_iff]
  intro hpos
  have hzero : ∀ d ∈ ['0'], d.isDigit = true := List.forall_mem_singleton.mpr rfl
  have hrest : ∀ d ∈ (c :: rest).head?, d.isDigit = false ∧ d ≠ '.' := by
    rintro d ⟨⟩
    exact ⟨hdigit, hdot⟩
  exact absurd (decimal_pos (List.cons_ne_nil _ _) hzero hrest hpos) (by decide)

/-- **Where `BigInt` reads an amount that `parseFloat` finds above zero, it is above zero.** -/
theorem pos_of_parseFloat (hpos : (Number.finite 0).lt (parseFloat s) = true)
    (hn : toBigInt (text s) = some n) : 0 < n := by
  obtain ⟨spaces, hspaces, hsplit⟩ := exists_spaces ((decode s).dropWhile isSpace)
  have htrim : (Text.trim (text s)).toList =
      (((decode s).dropWhile isSpace).reverse.dropWhile isSpace).reverse := by
    rw [Text.trim, text, String.toList_ofList, String.toList_ofList]
  have hhead := head?_spaces hspaces
  unfold toBigInt at hn
  rw [htrim] at hn
  generalize (((decode s).dropWhile isSpace).reverse.dropWhile isSpace).reverse = core at hn hsplit
  -- none of the numerals in another base is above zero for `parseFloat`
  have hbase : ∀ c rest, core = '0' :: c :: rest → c.isDigit = false → c ≠ '.' → False := by
    rintro c rest rfl hdigit hdot
    rw [not_lt_parseFloat_zero hsplit hdigit hdot] at hpos
    cases hpos
  split at hn
  · -- only blanks
    rw [List.nil_append] at hsplit
    have hsign : ∀ c, isSpace c = false → c ∉ spaces.head? := by
      intro c hc hmem
      rw [hspaces c (List.mem_of_mem_head? hmem)] at hc
      cases hc
    rw [parseFloat_unsigned hsplit (hsign '+' (by decide)) (hsign '-' (by decide)),
      parseUnsigned_spaces hspaces] at hpos
    cases hpos
  · obtain ⟨k, hk, rfl⟩ := Option.map_eq_some_iff.mp hn
    obtain ⟨hne, hdigits, rfl⟩ := decimalNumeral_eq_some hk
    rw [parseFloat_plus hsplit] at hpos
    exact Int.natCast_pos.mpr (decimal_pos hne hdigits hhead hpos)
  · obtain ⟨k, hk, rfl⟩ := Option.map_eq_some_iff.mp hn
    obtain ⟨hne, hdigits, rfl⟩ := decimalNumeral_eq_some hk
    rw [List.cons_append] at hsplit
    rw [parseFloat_minus hsplit, not_lt_parseUnsigned_neg hne hdigits hhead] at hpos
    cases hpos
  · exact (hbase _ _ rfl (by decide) (by decide)).elim
  · exact (hbase _ _ rfl (by decide) (by decide)).elim
  · exact (hbase _ _ rfl (by decide) (by decide)).elim
  · exact (hbase _ _ rfl (by decide) (by decide)).elim
  · exact (hbase _ _ rfl (by decide) (by decide)).elim
  · exact (hbase _ _ rfl (by decide) (by decide)).elim
  · obtain ⟨k, hk, rfl⟩ := Option.map_eq_some_iff.mp hn
    obtain ⟨hne, hdigits, rfl⟩ := decimalNumeral_eq_some hk
    have hsign : ∀ c, c.isDigit = false → c ∉ (core ++ spaces).head? := by
      intro c hc hmem
      rw [List.head?_append_of_ne_nil _ hne] at hmem
      rw [hdigits c (List.mem_of_mem_head? hmem)] at hc
      cases hc
    rw [parseFloat_unsigned hsplit (hsign '+' (by decide)) (hsign '-' (by decide))] at hpos
    exact Int.natCast_pos.mpr (decimal_pos hne hdigits hhead hpos)

/-! ### The fields -/

/-- Select value meaning that a contract address is typed instead. -/
def MANUAL_TOKEN_VALUE : JsString := units "__manual__"

/-- The error of a field that is required; the validator is asked about what has been entered. -/
def fieldError (required : String) (validate : JsString → Option String) (v : JsString) :
    Option String :=
  if v = [] then some required else validate v

/-- A validator that is a check with a message. -/
def check (p : JsString → Bool) (message : String) (v : JsString) : Option String :=
  if p v then none else some message

/-- The check of the selected token. -/
def tokenSelectError : JsString → Option String := fieldError "Select a token" fun _ => none

/-- The field is there only while an address is typed. -/
def tokenManualError (tokenSelect tokenManual : JsString) : Option String :=
  if tokenSelect = MANUAL_TOKEN_VALUE then
    fieldError "Token address is required"
      (check (fun v => isValidContractAddress (TokenForm.trim v)) "Enter a valid Soroban contract address")
      tokenManual
  else none

/-- The address of the token that has been selected or entered. -/
def resolvedTokenAddress (tokenSelect tokenManual : JsString) : JsString :=
  if tokenSelect = MANUAL_TOKEN_VALUE then tokenManual else tokenSelect

/-- The fields of the mint form. -/
structure MintFormData where
  tokenSelect : JsString
  tokenManual : JsString
  recipient : JsString
  amount : JsString

/-- The fields of the burn form. -/
structure BurnFormData where
  tokenSelect : JsString
  tokenManual : JsString
  amount : JsString

/-- The messages of the fields, in the order of the form. -/
def MintFormData.errors (form : MintFormData) : List (Option String) :=
  [tokenSelectError form.tokenSelect,
    tokenManualError form.tokenSelect form.tokenManual,
    fieldError "Recipient address is required"
      (check (fun v => isValidStellarAddress (TokenForm.trim v)) "Enter a valid Stellar account address")
      form.recipient,
    fieldError "Amount is required"
      (check (fun v => (Number.finite 0).lt (parseFloat v)) "Amount must be greater than 0") form.amount]

/-- The validator of the amount to burn. -/
def burnAmountError (v : JsString) : Option String :=
  match toBigInt (text v) with
  | some amount => if 0 < amount then none else some "Amount must be greater than 0"
  | none => some "Enter a valid amount"

/-- The checks of the burn form, field by field. -/
def BurnFormData.errors (form : BurnFormData) : List (Option String) :=
  [tokenSelectError form.tokenSelect,
    tokenManualError form.tokenSelect form.tokenManual,
    fieldError "Amount is required" burnAmountError form.amount]

/-- The form is handed to `onValid`. -/
def Valid (errors : List (Option String)) : Prop := ∀ error ∈ errors, error = none

instance {errors : List (Option String)} : Decidable (Valid errors) := List.decidableBAll _ _

/-! ### The invocations -/

/-- `new Address(text).toScVal()`, which accepts the addresses of the network. -/
structure AddressSdk where
  toScVal : JsString → Option Address
  isSome_toScVal : ∀ s, (toScVal s).isSome ↔ IsStrKey 0x30 s ∨ IsStrKey 0x10 s

/-- A fee as text; the one of the factory's state is an `i128`. -/
abbrev FeeText := {fee : JsString // (encodeI128 fee).isSome}

/-- The fee that is offered while the state of the factory is not known. -/
def BASE_FEE_STROOPS : FeeText := ⟨units "100000", by decide⟩

/-- `mintTokens`, from the connected address; `none` where an encoder throws. -/
def mintTokens (sdk : AddressSdk) (sourceAddress : Address)
    (tokenAddress recipient amount feePayment : JsString) : Option Call := do
  let tokenAddress ← sdk.toScVal tokenAddress
  let recipient ← sdk.toScVal recipient
  let amount ← encodeI128 amount
  let feePayment ← encodeI128 feePayment
  return .mintTokens tokenAddress sourceAddress recipient amount feePayment

/-- The call of `burn` that the service builds, when the arguments can be encoded. -/
def burnTokens (sdk : AddressSdk) (sourceAddress : Address) (tokenAddress amount : JsString) :
    Option Call := do
  let tokenAddress ← sdk.toScVal tokenAddress
  let amount ← encodeI128 amount
  return .burn tokenAddress sourceAddress amount

/-- What the mint form has the service build. -/
def mintBuilder (sdk : AddressSdk) (sourceAddress : Address) (baseFee : Option FeeText)
    (form : MintFormData) : Option Call :=
  mintTokens sdk sourceAddress (resolvedTokenAddress form.tokenSelect form.tokenManual)
    (TokenForm.trim form.recipient) form.amount (baseFee.getD BASE_FEE_STROOPS)

/-- What the burn form has the service build. -/
def burnBuilder (sdk : AddressSdk) (sourceAddress : Address) (form : BurnFormData) : Option Call :=
  burnTokens sdk sourceAddress (resolvedTokenAddress form.tokenSelect form.tokenManual) form.amount

/-- The arguments can be encoded, and the amount is above zero as the contract demands. -/
def WellFormed : Option Call → Prop
  | some (.mintTokens _ _ _ amount _) => 0 < amount
  | some (.burn _ _ amount) => 0 < amount
  | _ => False

/-! ### What is sent as it has been checked -/

variable {sdk : AddressSdk} {sourceAddress : Address} {baseFee : Option FeeText}
  {mint : MintFormData} {burn : BurnFormData} {tokenSelect tokenManual amount : JsString}
  {version : UInt8}

/-- What is typed is sent without a trim and in the case that it has; what is selected is not checked. -/
def TokenAsChecked (tokenSelect tokenManual : JsString) : Prop :=
  if tokenSelect = MANUAL_TOKEN_VALUE then
    TokenForm.trim tokenManual = tokenManual ∧ foldCase tokenManual = tokenManual
  else IsStrKey 0x30 tokenSelect ∨ IsStrKey 0x10 tokenSelect

/-- A numeral of `BigInt`, below the bound of an `i128`. -/
def IsInteger (amount : JsString) : Prop := ∃ n, toBigInt (text amount) = some n ∧ n < 2 ^ 127

theorem fieldError_eq_none {required : String} {validate : JsString → Option String} :
    fieldError required validate s = none ↔ s ≠ [] ∧ validate s = none := by
  unfold fieldError
  split_ifs with hempty
  · exact iff_of_false not_false fun h => h.1 hempty
  · exact ⟨fun h => ⟨hempty, h⟩, fun h => h.2⟩

theorem check_eq_none {p : JsString → Bool} {message : String} :
    check p message s = none ↔ p s = true := by
  unfold check
  split_ifs with hp
  · exact iff_of_true rfl hp
  · exact iff_of_false not_false hp

/-- An address has no spaces to trim. -/
theorem trim_letters (h : ∀ u ∈ s, u ∈ ALPHABET) : TokenForm.trim s = s := by
  have hall : ALPHABET.all (fun u => !isSpace (unitChar u)) = true := by decide
  have hspace : ∀ u ∈ ALPHABET, isSpace (unitChar u) = false := by
    intro u hu
    exact (Bool.not_eq_true' _).mp (List.all_eq_true.mp hall u hu)
  have hkeep : ∀ l : JsString, (∀ u ∈ l, u ∈ ALPHABET) →
      l.dropWhile (fun u => isSpace (unitChar u)) = l := by
    intro l hl
    cases l with
    | nil => rfl
    | cons u l =>
      apply List.dropWhile_cons_of_neg
      rw [hspace u (hl u List.mem_cons_self)]
      decide
  rw [TokenForm.trim, hkeep s h, hkeep s.reverse fun u hu => h u (List.mem_reverse.mp hu),
    List.reverse_reverse]

theorem trim_of_isStrKey (h : IsStrKey version s) : TokenForm.trim s = s := by
  obtain ⟨payload, -, hkey⟩ := h
  rw [hkey]
  exact trim_letters fun u hu => mem_lettersOf hu

/-- An address is in upper case, without blanks. -/
theorem asChecked_of_isSome (h : (sdk.toScVal s).isSome) : TokenForm.trim s = s ∧ foldCase s = s := by
  rcases (sdk.isSome_toScVal s).mp h with hkey | hkey
  · exact ⟨trim_of_isStrKey hkey, foldCase_of_isStrKey hkey⟩
  · exact ⟨trim_of_isStrKey hkey, foldCase_of_isStrKey hkey⟩

/-- The token address that is sent, where no error is shown for what is typed. -/
theorem isSome_token_iff (hmanual : tokenManualError tokenSelect tokenManual = none) :
    (sdk.toScVal (resolvedTokenAddress tokenSelect tokenManual)).isSome ↔
      TokenAsChecked tokenSelect tokenManual := by
  unfold resolvedTokenAddress TokenAsChecked
  unfold tokenManualError at hmanual
  split_ifs with htyped
  · rw [if_pos htyped, fieldError_eq_none, check_eq_none] at hmanual
    refine ⟨asChecked_of_isSome, fun h => ?_⟩
    have hfolds : FoldsToKey 0x43 0x10 tokenManual := by
      rw [← h.1]
      exact checkAddress_iff.mp hmanual.2
    exact (sdk.isSome_toScVal _).mpr (.inr (isStrKey_of_foldsToKey hfolds h.2))
  · exact sdk.isSome_toScVal _

theorem isSome_recipient_iff (h : isValidStellarAddress (TokenForm.trim s) = true) :
    (sdk.toScVal (TokenForm.trim s)).isSome ↔ foldCase (TokenForm.trim s) = TokenForm.trim s := by
  refine ⟨fun hsome => (asChecked_of_isSome hsome).2, fun hfold => ?_⟩
  have hfolds : FoldsToKey 0x47 0x30 (TokenForm.trim s) := checkAddress_iff.mp h
  exact (sdk.isSome_toScVal _).mpr (.inl (isStrKey_of_foldsToKey hfolds hfold))

theorem encodeI128_eq_some : encodeI128 amount = some n ↔
    toBigInt (text amount) = some n ∧ -2 ^ 127 ≤ n ∧ n < 2 ^ 127 := by
  rw [encodeI128, Option.filter_eq_some_iff, decide_eq_true_eq]

/-- The call of a mint, argument by argument. -/
theorem wellFormed_mintTokens {recipient feePayment : JsString}
    (hfee : (encodeI128 feePayment).isSome) :
    WellFormed (mintTokens sdk sourceAddress s recipient amount feePayment) ↔
      (sdk.toScVal s).isSome ∧ (sdk.toScVal recipient).isSome ∧
        ∃ n ∈ encodeI128 amount, 0 < n := by
  obtain ⟨fee, hfee⟩ := Option.isSome_iff_exists.mp hfee
  unfold mintTokens
  rw [hfee]
  cases sdk.toScVal s with
  | none => exact iff_of_false id fun h => Bool.false_ne_true h.1
  | some token =>
    cases sdk.toScVal recipient with
    | none => exact iff_of_false id fun h => Bool.false_ne_true h.2.1
    | some account =>
      cases encodeI128 amount with
      | none => exact iff_of_false id fun ⟨_, _, _, hn, _⟩ => Option.some_ne_none _ hn.symm
      | some x =>
        constructor
        · exact fun hx => ⟨rfl, rfl, x, rfl, hx⟩
        · rintro ⟨-, -, _, ⟨⟩, hx⟩
          exact hx

/-- The call of a burn, argument by argument. -/
theorem wellFormed_burnTokens : WellFormed (burnTokens sdk sourceAddress s amount) ↔
    (sdk.toScVal s).isSome ∧ ∃ n ∈ encodeI128 amount, 0 < n := by
  unfold burnTokens
  cases sdk.toScVal s with
  | none => exact iff_of_false id fun h => Bool.false_ne_true h.1
  | some token =>
    cases encodeI128 amount with
    | none => exact iff_of_false id fun ⟨_, _, hn, _⟩ => Option.some_ne_none _ hn.symm
    | some x =>
      constructor
      · exact fun hx => ⟨rfl, x, rfl, hx⟩
      · rintro ⟨-, _, ⟨⟩, hx⟩
        exact hx

/-- An amount that is above zero where it is read. -/
theorem exists_pos_iff (hpos : ∀ n, toBigInt (text amount) = some n → 0 < n) :
    (∃ n ∈ encodeI128 amount, 0 < n) ↔ IsInteger amount := by
  constructor
  · rintro ⟨n, hn, -⟩
    obtain ⟨hread, -, hlt⟩ := encodeI128_eq_some.mp hn
    exact ⟨n, hread, hlt⟩
  · rintro ⟨n, hread, hlt⟩
    have hn := hpos n hread
    exact ⟨n, encodeI128_eq_some.mpr ⟨hread, by omega, hlt⟩, hn⟩

/-! ### The forms -/

/-- **The mint forms that pass their checks and make a well-formed call.** -/
theorem wellFormed_mint_iff (h : Valid mint.errors) :
    WellFormed (mintBuilder sdk sourceAddress baseFee mint) ↔
      TokenAsChecked mint.tokenSelect mint.tokenManual ∧
        foldCase (TokenForm.trim mint.recipient) = TokenForm.trim mint.recipient ∧
        IsInteger mint.amount := by
  obtain ⟨-, hmanual, hrecipient, hamount⟩ : tokenSelectError mint.tokenSelect = none ∧
      tokenManualError mint.tokenSelect mint.tokenManual = none ∧ _ = none ∧ _ = none := by
    simpa [Valid, MintFormData.errors] using h
  rw [fieldError_eq_none, check_eq_none] at hrecipient hamount
  rw [mintBuilder, wellFormed_mintTokens (baseFee.getD BASE_FEE_STROOPS).2,
    isSome_token_iff hmanual, isSome_recipient_iff hrecipient.2,
    exists_pos_iff fun n hn => pos_of_parseFloat hamount.2 hn]

theorem pos_of_burnAmountError (h : burnAmountError amount = none) (hn : toBigInt (text amount) = some n) :
    0 < n := by
  rw [burnAmountError, hn] at h
  dsimp only at h
  split_ifs at h with hpos
  exact hpos

theorem wellFormed_burn_iff (h : Valid burn.errors) :
    WellFormed (burnBuilder sdk sourceAddress burn) ↔
      TokenAsChecked burn.tokenSelect burn.tokenManual ∧ IsInteger burn.amount := by
  obtain ⟨-, hmanual, hamount⟩ : tokenSelectError burn.tokenSelect = none ∧
      tokenManualError burn.tokenSelect burn.tokenManual = none ∧ _ = none := by
    simpa [Valid, BurnFormData.errors] using h
  rw [fieldError_eq_none] at hamount
  rw [burnBuilder, wellFormed_burnTokens, isSome_token_iff hmanual,
    exists_pos_iff fun n hn => pos_of_burnAmountError hamount.2 hn]

/-- **Which accepted inputs give a well formed invocation.**  A typed token address must be without blanks
around it and in upper case, and a selected one an address; the recipient must be in upper case, and the
amount a numeral of `BigInt` below the bound of an `i128`. -/
theorem wellFormed_iff (sdk : AddressSdk) (sourceAddress : Address) (baseFee : Option FeeText) :
    (∀ form : MintFormData,
      (Valid form.errors → WellFormed (mintBuilder sdk sourceAddress baseFee form)) ↔
        (Valid form.errors → TokenAsChecked form.tokenSelect form.tokenManual ∧
          foldCase (TokenForm.trim form.recipient) = TokenForm.trim form.recipient ∧
          IsInteger form.amount)) ∧
    ∀ form : BurnFormData,
      (Valid form.errors → WellFormed (burnBuilder sdk sourceAddress form)) ↔
        (Valid form.errors → TokenAsChecked form.tokenSelect form.tokenManual ∧ IsInteger form.amount) :=
  ⟨fun _ => imp_congr_right wellFormed_mint_iff, fun _ => imp_congr_right wellFormed_burn_iff⟩

theorem checkAddress_of_isStrKey {first : CodeUnit} (hfirst : letter (version.toNat / 8) = first)
    (h : IsStrKey version s) : checkAddress first version s = true := by
  obtain ⟨payload, hpayload, hkey⟩ := h
  rw [hkey]
  exact checkAddress_iff.mpr (foldsToKey_strKey hfirst hpayload)

/-- An address by the number that its letters stand for. -/
def sampleSdk : AddressSdk where
  toScVal s :=
    if (isValidStellarAddress s || isValidContractAddress s) && decide (foldCase s = s) then
      some ⟨value 32 (s.map symbol)⟩
    else none
  isSome_toScVal s := by
    have hvalid : ((isValidStellarAddress s || isValidContractAddress s) && decide (foldCase s = s)) =
        true ↔ IsStrKey 0x30 s ∨ IsStrKey 0x10 s := by
      rw [Bool.and_eq_true, Bool.or_eq_true, decide_eq_true_eq]
      constructor
      · rintro ⟨hchecked | hchecked, hfold⟩
        · exact .inl (isStrKey_of_foldsToKey (checkAddress_iff.mp hchecked) hfold)
        · exact .inr (isStrKey_of_foldsToKey (checkAddress_iff.mp hchecked) hfold)
      · rintro (hkey | hkey)
        · exact ⟨.inl (checkAddress_of_isStrKey (by decide) hkey), foldCase_of_isStrKey hkey⟩
        · exact ⟨.inr (checkAddress_of_isStrKey (by decide) hkey), foldCase_of_isStrKey hkey⟩
    split_ifs with h
    · exact iff_of_true rfl (hvalid.mp h)
    · exact iff_of_false Bool.false_ne_true (mt hvalid.mpr h)

/-- One and a half tokens of a selected address. -/
def halves (tokenSelect recipient : JsString) : MintFormData :=
  ⟨tokenSelect, [], recipient, units "1.5"⟩

theorem isStrKey_ne {l : JsString} (h : IsStrKey version s) (hl : l.length ≠ 56) : s ≠ l := by
  obtain ⟨payload, -, hkey⟩ := h
  rintro rfl
  rw [hkey] at hl
  exact hl (length_lettersOf _)

theorem valid_halves {recipient : JsString} (htoken : IsStrKey 0x10 s)
    (hrecipient : IsStrKey 0x30 recipient) : Valid (halves s recipient).errors := by
  have hselect : tokenSelectError s = none :=
    fieldError_eq_none.mpr ⟨isStrKey_ne htoken (by decide), rfl⟩
  have hmanual : tokenManualError s [] = none := if_neg (isStrKey_ne htoken (by decide))
  have hvalid : isValidStellarAddress (TokenForm.trim recipient) = true := by
    rw [trim_of_isStrKey hrecipient]
    exact checkAddress_of_isStrKey (by decide) hrecipient
  have hamount : (Number.finite 0).lt (parseFloat (units "1.5")) = true := by decide +kernel
  have hne : units "1.5" ≠ [] := by decide
  intro error herror
  simp only [halves, MintFormData.errors, List.mem_cons, List.not_mem_nil, or_false] at herror
  rcases herror with rfl | rfl | rfl | rfl
  · exact hselect
  · exact hmanual
  · exact fieldError_eq_none.mpr ⟨isStrKey_ne hrecipient (by decide), check_eq_none.mpr hvalid⟩
  · exact fieldError_eq_none.mpr ⟨hne, check_eq_none.mpr hamount⟩

/-- They are accepted, and `BigInt` throws. -/
theorem not_wellFormed : ¬ ∀ sdk sourceAddress baseFee,
    (∀ form : MintFormData,
      Valid form.errors → WellFormed (mintBuilder sdk sourceAddress baseFee form)) ∧
    ∀ form : BurnFormData, Valid form.errors → WellFormed (burnBuilder sdk sourceAddress form) := by
  intro h
  obtain ⟨token, htoken⟩ : ∃ token, IsStrKey 0x10 token :=
    ⟨_, List.replicate 32 0, List.length_replicate, rfl⟩
  obtain ⟨recipient, hrecipient⟩ : ∃ recipient, IsStrKey 0x30 recipient :=
    ⟨_, List.replicate 32 0, List.length_replicate, rfl⟩
  have hvalid := valid_halves htoken hrecipient
  have hwell := (h sampleSdk ⟨5⟩ none).1 (halves token recipient) hvalid
  obtain ⟨n, hn, -⟩ := ((wellFormed_mint_iff hvalid).mp hwell).2.2
  have hnone : toBigInt (text (units "1.5")) = none := by decide
  rw [halves, hnone] at hn
  cases hn

end StellarForge.Frontend.SupplyForms
