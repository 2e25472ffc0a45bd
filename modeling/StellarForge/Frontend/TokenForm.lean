import StellarForge.Collections.Numerals
import StellarForge.Encoding.Decimal
import StellarForge.Encoding.Radix
import StellarForge.Encoding.Utf16
import StellarForge.Factory.Entrypoint
import StellarForge.Factory.Refinement.Registration

/-!
# From the token form to `create_token`

The form is checked by `validateTokenParams` of the frontend, `CreateToken` adds a salt of two random
numbers in base 36, and `deployToken` encodes the arguments of `create_token`.

* `accepted_iff`: with a salt of 64 hexadecimal digits, what the contract accepts of a valid form;
* `accepts_iff`: **the salts of `CreateToken` have no such form, so that no valid form is accepted**.
-/

namespace StellarForge.Frontend.TokenForm

open Soroban Contract Encoding Text Factory

/-! ### Strings -/

/-- A string of JavaScript. -/
abbrev JsString := List CodeUnit

/-- The text with other characters for the surrogates that have lost their other half. -/
def text (s : JsString) : String := String.ofList (decode s)

/-- `s.trim()` -/
def trim (s : JsString) : JsString :=
  ((s.dropWhile fun u => isSpace (unitChar u)).reverse.dropWhile
    fun u => isSpace (unitChar u)).reverse

/-- The exponent at the head of a text, zero where there is none. -/
def exponent (s : List Char) : ℤ :=
  (Decimal.exponentPart (fun digits => some (decimal (digits.takeWhile Char.isDigit))) s).getD 0

/-- The longest decimal literal without a sign at the head of a text. -/
def parseUnsigned (negative : Bool) (s : List Char) : Number :=
  if "Infinity".toList.isPrefixOf s then .infinite negative
  else Decimal.literal negative (fun rest => some (exponent rest)) s

/-- `parseFloat(s)` -/
def parseFloat (s : JsString) : Number :=
  match (decode s).dropWhile isSpace with
  | '+' :: rest => parseUnsigned false rest
  | '-' :: rest => parseUnsigned true rest
  | rest => parseUnsigned false rest

/-! ### Validation -/

/-- The bounds of a name, in bytes. -/
def TOKEN_NAME_MIN_LENGTH : ℕ := 1
def TOKEN_NAME_MAX_LENGTH : ℕ := 32

/-- The bounds of a symbol, in bytes. -/
def TOKEN_SYMBOL_MIN_LENGTH : ℕ := 1
def TOKEN_SYMBOL_MAX_LENGTH : ℕ := 12

/-- The bounds of the decimals. -/
def TOKEN_DECIMALS_MIN : ℕ := 0
def TOKEN_DECIMALS_MAX : ℕ := 18

/-- `DANGEROUS_CHARS`, of one code unit. -/
def isDangerous (u : CodeUnit) : Bool :=
  u ≤ 0x08 || u == 0x0b || u == 0x0c || (0x0e ≤ u && u ≤ 0x1f) || (0x7f ≤ u && u ≤ 0x9f) ||
    (0x200b ≤ u && u ≤ 0x200f) || (0x2028 ≤ u && u ≤ 0x202f) || (0x2060 ≤ u && u ≤ 0x2069) ||
    u == 0xfeff

/-- The class of `TOKEN_SYMBOL_PATTERN`. -/
def isSymbolUnit (u : CodeUnit) : Bool :=
  (0x41 ≤ u && u ≤ 0x5a) || (0x61 ≤ u && u ≤ 0x7a) || (0x30 ≤ u && u ≤ 0x39) || u == 0x2d

/-- The bytes of a text. -/
def utf8ByteLength (s : JsString) : ℕ := (encodeUtf8 s).length

/-- The name is neither empty nor too long. -/
def isTokenNameLengthValid (trimmedName : JsString) : Bool :=
  TOKEN_NAME_MIN_LENGTH ≤ utf8ByteLength trimmedName &&
    utf8ByteLength trimmedName ≤ TOKEN_NAME_MAX_LENGTH

/-- No character of the name is one that the form refuses. -/
def isTokenNameCharValid (trimmedName : JsString) : Bool :=
  !trimmedName.any isDangerous && !hasUnpairedSurrogate trimmedName

/-- The symbol is neither empty nor too long. -/
def isTokenSymbolLengthValid (trimmedSymbol : JsString) : Bool :=
  TOKEN_SYMBOL_MIN_LENGTH ≤ utf8ByteLength trimmedSymbol &&
    utf8ByteLength trimmedSymbol ≤ TOKEN_SYMBOL_MAX_LENGTH

/-- The symbol consists of the characters that the form lets through. -/
def isTokenSymbolPatternValid (trimmedSymbol : JsString) : Bool :=
  !trimmedSymbol.isEmpty && trimmedSymbol.all isSymbolUnit

/-- The decimals are within their bounds. -/
def isValidDecimalsValue (decimals : Number) : Bool :=
  (Number.finite TOKEN_DECIMALS_MIN).le decimals && decimals.le (.finite TOKEN_DECIMALS_MAX)

/-- What is checked. -/
structure TokenParams where
  name : Option JsString
  symbol : Option JsString
  decimals : Option Number
  initialSupply : Option JsString
  maxSupply : Option JsString

/-- The message for each field that has an error. -/
structure Errors where
  name : Option String
  symbol : Option String
  decimals : Option String
  initialSupply : Option String
  maxSupply : Option String
  deriving DecidableEq, Repr

/-- The check of the optional cap. -/
def maxSupplyError (initialSupply maxSupply : Option JsString) : Option String :=
  let maxSupply := (maxSupply.map trim).getD []
  if maxSupply = [] then none
  else
    let cap := parseFloat maxSupply
    if !cap.isFinite || cap.le (.finite 0) then some "Max supply must be greater than 0"
    else match initialSupply with
      | none | some [] => none
      | some initialSupply =>
        if cap.lt (parseFloat initialSupply) then
          some "Max supply must be greater than or equal to the initial supply"
        else none

/-- The errors of a form, field by field. -/
def validateTokenParams (params : TokenParams) : Errors :=
  -- both texts are trimmed before they are checked, but not before they are sent
  let trimmedName := (params.name.map trim).getD []
  let trimmedSymbol := (params.symbol.map trim).getD []
  { name :=
      if !isTokenNameLengthValid trimmedName then
        some s!"Token name must be {TOKEN_NAME_MIN_LENGTH}-{TOKEN_NAME_MAX_LENGTH} bytes"
      else if !isTokenNameCharValid trimmedName then
        some "Token name contains unsupported control characters"
      else none
    symbol :=
      if !isTokenSymbolLengthValid trimmedSymbol then
        some s!"Token symbol must be {TOKEN_SYMBOL_MIN_LENGTH}-{TOKEN_SYMBOL_MAX_LENGTH} bytes"
      else if !isTokenSymbolPatternValid trimmedSymbol then
        some "Token symbol can only contain alphanumeric characters and hyphens"
      else none
    decimals :=
      if !params.decimals.any isValidDecimalsValue then
        some s!"Decimals must be {TOKEN_DECIMALS_MIN}-{TOKEN_DECIMALS_MAX}"
      else none
    -- an empty supply is refused as a missing one; other texts are read as numbers
    initialSupply :=
      match params.initialSupply with
      | none | some [] => some "Initial supply must be greater than 0"
      | some initialSupply =>
        if (parseFloat initialSupply).le (.finite 0) then
          some "Initial supply must be greater than 0"
        else none
    maxSupply := maxSupplyError params.initialSupply params.maxSupply }

/-- `valid`: there are no errors. -/
def Errors.valid (errors : Errors) : Bool := errors = ⟨none, none, none, none, none⟩

/-! ### Encoding the arguments -/

/-- A hexadecimal digit, of either case. -/
def isHexUnit (u : CodeUnit) : Bool :=
  (0x30 ≤ u && u ≤ 0x39) || (0x61 ≤ u && u ≤ 0x66) || (0x41 ≤ u && u ≤ 0x46)

/-- `parseInt(s, 16)` of two hexadecimal digits. -/
def hexByte (s : JsString) : UInt8 := ((numeral 16 (decode s)).getD 0).toUInt8

/-- `hexToBytes`, which throws unless the text is 64 hexadecimal digits. -/
def hexToBytes (hex : JsString) : Option (List UInt8) :=
  if hex.length = 64 ∧ hex.all isHexUnit = true then
    some ((List.range 32).map fun i => hexByte ((hex.drop (i * 2)).take 2))
  else none

/-- `nativeToScVal(val, { type: 'u32' })` -/
def encodeU32 : Number → Option ℕ
  | .finite q => if q.isInt ∧ 0 ≤ q.num ∧ q.num < 2 ^ 32 then some q.num.toNat else none
  | _ => none

/-- `nativeToScVal(BigInt(s), { type: 'i128' })` -/
def encodeI128 (s : JsString) : Option ℤ :=
  (toBigInt (text s)).filter fun n => -2 ^ 127 ≤ n ∧ n < 2 ^ 127

/-- `optionI128`: an empty text is no value, `none` where the encoder throws. -/
def optionI128 : Option JsString → Option (Option ℤ)
  | none | some [] => some none
  | some value => (encodeI128 value).map some

/-- The 32 bytes as the contract has them. -/
def toBytesN32 (bytes : List UInt8) : BytesN32 :=
  BitVec.ofNat 256 (value 256 (bytes.map UInt8.toNat))

/-- What `deployToken` is given. -/
structure DeployParams where
  name : JsString
  symbol : JsString
  decimals : Number
  initialSupply : JsString
  maxSupply : Option JsString
  salt : JsString
  feePayment : JsString

/-- The invocation that `deployToken` builds, unless an encoder throws. -/
def deployToken (sourceAddress : Address) (params : DeployParams) : Option Call := do
  let salt ← hexToBytes params.salt
  let decimals ← encodeU32 params.decimals
  let initialSupply ← encodeI128 params.initialSupply
  let maxSupply ← optionI128 params.maxSupply
  let feePayment ← encodeI128 params.feePayment
  return .createToken sourceAddress
    { salt := toBytesN32 salt
      name := encodeUtf8 params.name
      symbol := encodeUtf8 params.symbol
      decimals, initialSupply, maxSupply } feePayment

/-! ### The form -/

/-- `formData` of `TokenForm`, as it is handed to `onSubmit`. -/
structure FormData where
  name : JsString
  symbol : JsString
  decimals : Number
  initialSupply : JsString
  maxSupply : Option JsString

/-- What is checked of a form. -/
def FormData.params (form : FormData) : TokenParams where
  name := some form.name
  symbol := some form.symbol
  decimals := some form.decimals
  initialSupply := some form.initialSupply
  maxSupply := form.maxSupply

/-- `s.substring(2, 15)` -/
def substring (s : JsString) : JsString := (s.drop 2).take 13

/-- The salt; the texts are those of two random numbers in base 36. -/
def createSalt (random random' : JsString) : JsString := substring random ++ substring random'

/-- What `txBuilder` of `CreateToken` asks for; `baseFee` is that of the factory's state, once it has been
read. -/
def txBuilder (form : FormData) (random random' : JsString) (baseFee : Option JsString) :
    DeployParams where
  name := form.name
  symbol := form.symbol
  decimals := form.decimals
  initialSupply := form.initialSupply
  maxSupply := form.maxSupply
  salt := createSalt random random'
  feePayment := baseFee.getD (units "100000")

/-- The arguments can be encoded, and the contract accepts the parameters of the token. -/
def Accepted (invocation : Option Call) : Prop :=
  ∃ creator p feePayment, invocation = some (.createToken creator p feePayment) ∧
    ∀ env w, (Factory.validateTokenParams p).Returns env w () w

/-- A form that is valid gives an invocation that is accepted. -/
def Accepts (sourceAddress : Address) (form : FormData) (random random' : JsString)
    (baseFee : Option JsString) : Prop :=
  (validateTokenParams form.params).valid = true →
    Accepted (deployToken sourceAddress (txBuilder form random random' baseFee))

variable {sourceAddress : Address} {params : DeployParams} {form : FormData}
  {random random' : JsString} {baseFee : Option JsString}

/-! ### Valid forms -/

theorem encodeUtf8_ne_nil {s : JsString} (h : s ≠ []) : encodeUtf8 s ≠ [] := by
  have hchar (c : Char) (cs : List Char) : (c :: cs).flatMap String.utf8EncodeChar ≠ [] := by
    intro hnil
    have hlength := congrArg List.length (List.append_eq_nil_iff.mp hnil).1
    rw [String.length_utf8EncodeChar, List.length_nil] at hlength
    exact absurd hlength (Nat.ne_of_gt (Char.utf8Size_pos c))
  unfold encodeUtf8
  match s, h with
  | [u], _ => exact hchar _ _
  | u :: v :: rest, _ =>
    rw [decode]
    split_ifs
    · exact hchar _ _
    · exact hchar _ _

/-- A text whose trimmed text has bytes has bytes. -/
theorem utf8ByteLength_pos {s : JsString} (h : 1 ≤ utf8ByteLength (trim s)) :
    0 < utf8ByteLength s := by
  apply List.length_pos_of_ne_nil
  apply encodeUtf8_ne_nil
  rintro rfl
  exact absurd h (by decide)

/-- What a valid form promises of the texts and of the decimals. -/
structure Validated (form : FormData) : Prop where
  name : 0 < utf8ByteLength form.name
  symbol : 0 < utf8ByteLength form.symbol
  decimals : isValidDecimalsValue form.decimals = true

/-- A check that gives no error has succeeded. -/
theorem eq_true_of_no_error {check : Bool} {message : String} {other : Option String}
    (h : (if !check then some message else other) = none) : check = true := by
  cases check with
  | true => rfl
  | false => cases h

/-- What a form without errors has. -/
theorem validated_of_valid (h : (validateTokenParams form.params).valid = true) :
    Validated form := by
  have herrors := of_decide_eq_true h
  simp only [validateTokenParams, Errors.mk.injEq] at herrors
  obtain ⟨hname, hsymbol, hdecimals, -, -⟩ := herrors
  have hname : isTokenNameLengthValid (trim form.name) = true := eq_true_of_no_error hname
  have hsymbol : isTokenSymbolLengthValid (trim form.symbol) = true := eq_true_of_no_error hsymbol
  have hdecimals : isValidDecimalsValue form.decimals = true := eq_true_of_no_error hdecimals
  rw [isTokenNameLengthValid, Bool.and_eq_true, decide_eq_true_eq] at hname
  rw [isTokenSymbolLengthValid, Bool.and_eq_true, decide_eq_true_eq] at hsymbol
  exact ⟨utf8ByteLength_pos hname.1, utf8ByteLength_pos hsymbol.1, hdecimals⟩

/-- The decimals that can be encoded are the natural numbers below `2 ^ 32`. -/
theorem encodeU32_eq_some {x : Number} {d : ℕ} :
    encodeU32 x = some d ↔ x = .finite d ∧ d < 2 ^ 32 := by
  cases x with
  | nan => simp [encodeU32]
  | infinite negative => simp [encodeU32]
  | finite q =>
    rw [encodeU32, Number.finite.injEq, Option.ite_none_right_eq_some, Option.some.injEq]
    constructor
    · rintro ⟨⟨hint, hnonneg, hlt⟩, hd⟩
      have hq : q = (q.num : ℚ) := Rat.eq_num_of_isInt hint
      have hnum : q.num = (d : ℤ) := by omega
      rw [hnum] at hq
      exact ⟨hq, by omega⟩
    · rintro ⟨rfl, hlt⟩
      have hnum : (d : ℚ).num = d := Rat.num_natCast d
      refine ⟨⟨?_, by omega, by omega⟩, by omega⟩
      rw [Rat.isInt, Rat.den_natCast]
      rfl

/-- Valid decimals are at most eighteen. -/
theorem le_of_isValidDecimalsValue {d : ℕ} (h : isValidDecimalsValue (.finite d) = true) :
    d ≤ 18 := by
  rw [isValidDecimalsValue, Bool.and_eq_true] at h
  have hle : (d : ℚ) ≤ (18 : ℕ) := of_decide_eq_true h.2
  exact_mod_cast hle

/-- What an invocation is made of. -/
theorem deployToken_eq_some {call : Call} : deployToken sourceAddress params = some call ↔
    ∃ salt decimals supply cap? fee, hexToBytes params.salt = some salt ∧
      encodeU32 params.decimals = some decimals ∧ encodeI128 params.initialSupply = some supply ∧
      optionI128 params.maxSupply = some cap? ∧ encodeI128 params.feePayment = some fee ∧
      call = .createToken sourceAddress ⟨toBytesN32 salt, encodeUtf8 params.name,
        encodeUtf8 params.symbol, decimals, supply, cap?⟩ fee := by
  simp only [deployToken, Option.bind_eq_bind, Option.bind_eq_some_iff, Option.pure_def,
    Option.some.injEq]
  constructor
  · rintro ⟨salt, hsalt, d, hd, supply, hsupply, cap?, hcap, fee, hfee, rfl⟩
    exact ⟨salt, d, supply, cap?, fee, hsalt, hd, hsupply, hcap, hfee, rfl⟩
  · rintro ⟨salt, d, supply, cap?, fee, hsalt, hd, hsupply, hcap, hfee, rfl⟩
    exact ⟨salt, hsalt, d, hd, supply, hsupply, cap?, hcap, fee, hfee, rfl⟩

/-- **With a salt of 64 hexadecimal digits, a valid form is accepted if and only if** its texts are short
enough as they are sent, its decimals are an integer, and its supplies are numerals of `BigInt` that
the contract accepts. -/
theorem accepted_iff (hvalid : (validateTokenParams form.params).valid = true) {salt : JsString}
    (hsalt : salt.length = 64 ∧ salt.all isHexUnit = true) :
    Accepted (deployToken sourceAddress
        { txBuilder form random random' baseFee with salt := salt }) ↔
      utf8ByteLength form.name ≤ 32 ∧ utf8ByteLength form.symbol ≤ 12 ∧
      (∃ d : ℕ, form.decimals = .finite d) ∧
      (∃ supply cap?, encodeI128 form.initialSupply = some supply ∧ 0 ≤ supply ∧
        optionI128 form.maxSupply = some cap? ∧ ∀ cap ∈ cap?, 0 < cap ∧ supply ≤ cap) ∧
      ∃ fee, encodeI128 (baseFee.getD (units "100000")) = some fee := by
  have hform := validated_of_valid hvalid
  constructor
  · -- what the contract asks of the parameters gives each condition back
    rintro ⟨creator, p, feePayment, hinvocation, haccepts⟩
    obtain ⟨_, d, supply, cap?, fee, -, hd, hsupply, hcap, hfee, hcall⟩ :=
      deployToken_eq_some.mp hinvocation
    obtain ⟨-, rfl, -⟩ := Call.createToken.inj hcall
    have hp := (returns_validateTokenParams.mp (haccepts (permissiveEnv 0 ⟨0⟩) World.genesis)).1
    refine ⟨hp.name.2, hp.symbol.2, ⟨d, (encodeU32_eq_some.mp hd).1⟩, ?_, fee, hfee⟩
    exact ⟨supply, cap?, hsupply, hp.initialSupply, hcap, hp.maxSupply⟩
  · rintro ⟨hname, hsymbol, ⟨d, hd⟩, ⟨supply, cap?, hsupply, hnonneg, hcap, hfits⟩, fee, hfee⟩
    -- the validator has bounded the decimals already
    have hle : d ≤ 18 := by
      apply le_of_isValidDecimalsValue
      rw [← hd]
      exact hform.decimals
    have hdecimals : encodeU32 form.decimals = some d := encodeU32_eq_some.mpr ⟨hd, by omega⟩
    obtain ⟨bytes, hbytes⟩ : ∃ bytes, hexToBytes salt = some bytes := ⟨_, if_pos hsalt⟩
    refine ⟨sourceAddress, ⟨toBytesN32 bytes, encodeUtf8 form.name, encodeUtf8 form.symbol, d, supply,
      cap?⟩, fee, ?_, fun env w => ?_⟩
    · rw [deployToken_eq_some]
      exact ⟨bytes, d, supply, cap?, fee, hbytes, hdecimals, hsupply, hcap, hfee, rfl⟩
    exact returns_validateTokenParams.mpr
      ⟨⟨⟨hform.name, hname⟩, ⟨hform.symbol, hsymbol⟩, hle, hnonneg, hfits⟩, rfl⟩

/-! ### Salts -/

/-- Two pieces of at most thirteen characters. -/
theorem length_createSalt (random random' : JsString) :
    (createSalt random random').length ≤ 26 := by
  have hpiece (s : JsString) : (substring s).length ≤ 13 := List.length_take_le ..
  have h := hpiece random
  have h' := hpiece random'
  rw [createSalt, List.length_append]
  omega

theorem hexToBytes_createSalt : hexToBytes (createSalt random random') = none := by
  have hle := length_createSalt random random'
  rw [hexToBytes, if_neg]
  rintro ⟨hlength, -⟩
  omega

/-- No argument list can be encoded with such a salt. -/
theorem deployToken_txBuilder :
    deployToken sourceAddress (txBuilder form random random' baseFee) = none := by
  have hsalt : hexToBytes (txBuilder form random random' baseFee).salt = none :=
    hexToBytes_createSalt
  rw [deployToken, hsalt]
  rfl

/-- **The contract is reached by no valid form.** -/
theorem accepts_iff : Accepts sourceAddress form random random' baseFee ↔
    ¬ (validateTokenParams form.params).valid = true := by
  refine imp_congr_right fun _ => iff_false_intro ?_
  rintro ⟨creator, p, feePayment, hinvocation, -⟩
  rw [deployToken_txBuilder] at hinvocation
  cases hinvocation

/-- One token of a thousand units, without a cap. -/
def sampleForm : FormData where
  name := units "Token"
  symbol := units "TKN"
  decimals := .finite 7
  initialSupply := units "1000"
  maxSupply := none

theorem valid_sampleForm : (validateTokenParams sampleForm.params).valid = true := by
  decide +kernel

/-- The claim fails on any valid form. -/
theorem not_accepts_sampleForm : ¬ ∀ sourceAddress form random random' baseFee,
    Accepts sourceAddress form random random' baseFee := by
  intro h
  have hsample := h ⟨0⟩ sampleForm (units "0.4fzyo82mvyr") (units "0.cbsvgtkr1lr") none
  obtain ⟨creator, p, feePayment, hinvocation, -⟩ := hsample valid_sampleForm
  rw [deployToken_txBuilder] at hinvocation
  cases hinvocation

end StellarForge.Frontend.TokenForm
