import Mathlib.Order.Basic
import Mathlib.Tactic.IntervalCases
import StellarForge.Encoding.Utf16

/-!
# JSON

`JSON.stringify` and `JSON.parse` over strings of code units.  A number is kept as its text, and the
fields of an object stand in the order of JavaScript: the array indices first, by their value, then
the other keys in the order of their first occurrence.

* `parseString_quoteUnits`: **a string is read back as it was quoted**, also a lone surrogate;
* `Reads.object`: so is an object whose values are;
* `hasUnpairedSurrogate_stringify_object`: what is written goes through UTF-8.
-/

namespace StellarForge.Encoding.Json

/-- A value of JSON. -/
inductive Value
  | null
  | bool (b : Bool)
  | number (text : List CodeUnit)
  | string (text : List CodeUnit)
  | array (items : List Value)
  | object (fields : List (List CodeUnit × Value))

/-! ### Writing -/

/-- A hexadecimal digit. -/
def hexDigit (n : ℕ) : CodeUnit :=
  if n < 10 then UInt16.ofNat (0x30 + n) else UInt16.ofNat (0x57 + n)

/-- `\u` and the four digits of a unit. -/
def unicodeEscape (u : CodeUnit) : List CodeUnit :=
  [0x5c, 0x75, hexDigit (u.toNat / 4096), hexDigit (u.toNat / 256 % 16),
    hexDigit (u.toNat / 16 % 16), hexDigit (u.toNat % 16)]

/-- A unit between quotes, when it is no half of a surrogate pair. -/
def quoteUnit (u : CodeUnit) : List CodeUnit :=
  if u = 0x08 then [0x5c, 0x62]
  else if u = 0x09 then [0x5c, 0x74]
  else if u = 0x0a then [0x5c, 0x6e]
  else if u = 0x0c then [0x5c, 0x66]
  else if u = 0x0d then [0x5c, 0x72]
  else if u = 0x22 ∨ u = 0x5c then [0x5c, u]
  else if u < 0x20 ∨ isHighSurrogate u ∨ isLowSurrogate u then unicodeEscape u
  else [u]

/-- What stands between the quotes. -/
def quoteUnits : List CodeUnit → List CodeUnit
  | [] => []
  | [u] => quoteUnit u
  | u :: v :: rest =>
    if isHighSurrogate u && isLowSurrogate v then u :: v :: quoteUnits rest
    else quoteUnit u ++ quoteUnits (v :: rest)

/-- A string literal. -/
def quote (text : List CodeUnit) : List CodeUnit := 0x22 :: (quoteUnits text ++ [0x22])

mutual

/-- `JSON.stringify` -/
def stringify : Value → List CodeUnit
  | .null => units "null"
  | .bool b => units (if b then "true" else "false")
  | .number text => text
  | .string text => quote text
  | .array items => 0x5b :: (List.intercalate [0x2c] (stringifyItems items) ++ [0x5d])
  | .object fields => 0x7b :: (List.intercalate [0x2c] (stringifyFields fields) ++ [0x7d])

/-- The items of an array. -/
def stringifyItems : List Value → List (List CodeUnit)
  | [] => []
  | item :: items => stringify item :: stringifyItems items

/-- The members of an object. -/
def stringifyFields : List (List CodeUnit × Value) → List (List CodeUnit)
  | [] => []
  | (key, value) :: fields => (quote key ++ 0x3a :: stringify value) :: stringifyFields fields

end

/-! ### Objects -/

/-- The value of an array index: the decimal digits of a number below `2^32 - 1`. -/
def arrayIndex (key : List CodeUnit) : Option ℕ :=
  if key ≠ [] ∧ key.all (fun u => 0x30 ≤ u && u ≤ 0x39) ∧
      (key.head? = some 0x30 → key = [0x30]) then
    let n := key.foldl (fun n u => n * 10 + (u.toNat - 0x30)) 0
    if n < 4294967295 then some n else none
  else none

/-- An assignment to a property. -/
def setField (fields : List (List CodeUnit × Value)) (key : List CodeUnit) (value : Value) :
    List (List CodeUnit × Value) :=
  if fields.any fun field => field.1 = key then
    fields.map fun field => if field.1 = key then (key, value) else field
  else
    match arrayIndex key with
    | none => fields ++ [(key, value)]
    | some i =>
      let before := fields.takeWhile fun field => (arrayIndex field.1).any (· < i)
      before ++ (key, value) :: fields.drop before.length

/-- The object that the members of a text make, of which the last counts for each key. -/
def ofMembers (members : List (List CodeUnit × Value)) : Value :=
  .object (members.foldl (fun fields member => setField fields member.1 member.2) [])

/-- `value[key]` -/
def Value.field (value : Value) (key : List CodeUnit) : Option Value :=
  match value with
  | .object fields => (fields.find? fun field => field.1 = key).map Prod.snd
  | _ => none

/-! ### Reading -/

/-- The whitespace of JSON. -/
def isWhitespace (u : CodeUnit) : Bool := u == 0x20 || u == 0x09 || u == 0x0a || u == 0x0d

/-- A decimal digit. -/
def isDigit (u : CodeUnit) : Bool := 0x30 ≤ u && u ≤ 0x39

/-- What follows the whitespace at the head of a text. -/
def skipWhitespace (text : List CodeUnit) : List CodeUnit := text.dropWhile isWhitespace

/-- The value of a hexadecimal digit, of either case. -/
def hexValue (u : CodeUnit) : Option ℕ :=
  if 0x30 ≤ u ∧ u ≤ 0x39 then some (u.toNat - 0x30)
  else if 0x61 ≤ u ∧ u ≤ 0x66 then some (u.toNat - 0x57)
  else if 0x41 ≤ u ∧ u ≤ 0x46 then some (u.toNat - 0x37)
  else none

/-- The unit that four hexadecimal digits name. -/
def hexUnit (a b c d : CodeUnit) : Option CodeUnit := do
  let a ← hexValue a
  let b ← hexValue b
  let c ← hexValue c
  let d ← hexValue d
  return UInt16.ofNat (((a * 16 + b) * 16 + c) * 16 + d)

/-- The unit that an escape of one character stands for. -/
def unescape (u : CodeUnit) : Option CodeUnit :=
  if u = 0x22 ∨ u = 0x5c ∨ u = 0x2f then some u
  else if u = 0x62 then some 0x08
  else if u = 0x66 then some 0x0c
  else if u = 0x6e then some 0x0a
  else if u = 0x72 then some 0x0d
  else if u = 0x74 then some 0x09
  else none

/-- One more unit in front of a string that has been read. -/
def prepend (u : CodeUnit) (read : List CodeUnit × List CodeUnit) : List CodeUnit × List CodeUnit :=
  (u :: read.1, read.2)

/-- The string behind a quote, and what follows its other quote. -/
def parseString : List CodeUnit → Option (List CodeUnit × List CodeUnit)
  | [] => none
  | u :: rest =>
    if u = 0x22 then some ([], rest)
    else if u < 0x20 then none
    else if u ≠ 0x5c then (parseString rest).map (prepend u)
    else
      match rest with
      | [] => none
      | escape :: rest =>
        if escape = 0x75 then
          match rest with
          | a :: b :: c :: d :: rest =>
            (hexUnit a b c d).bind fun unit => (parseString rest).map (prepend unit)
          | _ => none
        else (unescape escape).bind fun unit => (parseString rest).map (prepend unit)

/-- The digits at the head of a text, of which there has to be one. -/
def digits (text : List CodeUnit) : Option (List CodeUnit × List CodeUnit) :=
  let whole := text.takeWhile isDigit
  if whole = [] then none else some (whole, text.dropWhile isDigit)

/-- The integer at the head of a text, without superfluous zeros. -/
def integer (text : List CodeUnit) : Option (List CodeUnit × List CodeUnit) :=
  match text with
  | 0x30 :: rest => some ([0x30], rest)
  | _ => digits text

/-- The fraction at the head of a text, which may be missing. -/
def fraction (text : List CodeUnit) : Option (List CodeUnit × List CodeUnit) :=
  match text with
  | 0x2e :: rest => (digits rest).map (prepend 0x2e)
  | _ => some ([], text)

/-- The exponent at the head of a text, which may be missing. -/
def exponent (text : List CodeUnit) : Option (List CodeUnit × List CodeUnit) :=
  match text with
  | e :: rest =>
    if e = 0x65 ∨ e = 0x45 then
      match rest with
      | sign :: rest' =>
        if sign = 0x2b ∨ sign = 0x2d then
          (digits rest').map fun read => prepend e (prepend sign read)
        else (digits rest).map (prepend e)
      | [] => none
    else some ([], text)
  | [] => some ([], [])

/-- The number without a sign at the head of a text. -/
def unsigned (text : List CodeUnit) : Option (List CodeUnit × List CodeUnit) := do
  let (whole, rest) ← integer text
  let (frac, rest) ← fraction rest
  let (exp, rest) ← exponent rest
  return (whole ++ frac ++ exp, rest)

/-- The number at the head of a text. -/
def parseNumber (text : List CodeUnit) : Option (List CodeUnit × List CodeUnit) :=
  match text with
  | 0x2d :: rest => (unsigned rest).map (prepend 0x2d)
  | _ => unsigned text

/-- A literal, at the head of a text. -/
def literal (word : String) (value : Value) (text : List CodeUnit) :
    Option (Value × List CodeUnit) :=
  if (units word).isPrefixOf text then some (value, text.drop (units word).length) else none

mutual

/-- The value at the head of a text, and what follows it.  Every call has read a unit before it
makes another one, so that the length of the text is fuel enough. -/
def parseValue : ℕ → List CodeUnit → Option (Value × List CodeUnit)
  | 0, _ => none
  | fuel + 1, text =>
    match skipWhitespace text with
    | [] => none
    | u :: rest =>
      if u = 0x22 then (parseString rest).map fun (s, rest) => (.string s, rest)
      else if u = 0x7b then
        match skipWhitespace rest with
        | 0x7d :: rest => some (ofMembers [], rest)
        | rest => (parseMembers fuel rest).map fun (members, rest) => (ofMembers members, rest)
      else if u = 0x5b then
        match skipWhitespace rest with
        | 0x5d :: rest => some (.array [], rest)
        | rest => (parseItems fuel rest).map fun (items, rest) => (.array items, rest)
      else
        (literal "null" .null (u :: rest)).or <|
        (literal "true" (.bool true) (u :: rest)).or <|
        (literal "false" (.bool false) (u :: rest)).or <|
        (parseNumber (u :: rest)).map fun (n, rest) => (.number n, rest)

/-- The members of an object, up to the brace that ends it. -/
def parseMembers : ℕ → List CodeUnit → Option (List (List CodeUnit × Value) × List CodeUnit)
  | 0, _ => none
  | fuel + 1, text =>
    match skipWhitespace text with
    | 0x22 :: rest =>
      (parseString rest).bind fun (key, rest) =>
        match skipWhitespace rest with
        | 0x3a :: rest =>
          (parseValue fuel rest).bind fun (value, rest) =>
            match skipWhitespace rest with
            | 0x2c :: rest =>
              (parseMembers fuel rest).map fun (members, rest) => ((key, value) :: members, rest)
            | 0x7d :: rest => some ([(key, value)], rest)
            | _ => none
        | _ => none
    | _ => none

/-- The items of an array, up to the bracket that ends it. -/
def parseItems : ℕ → List CodeUnit → Option (List Value × List CodeUnit)
  | 0, _ => none
  | fuel + 1, text =>
    (parseValue fuel text).bind fun (item, rest) =>
      match skipWhitespace rest with
      | 0x2c :: rest => (parseItems fuel rest).map fun (items, rest) => (item :: items, rest)
      | 0x5d :: rest => some ([item], rest)
      | _ => none

end

/-- `JSON.parse`; `none` where it throws. -/
def parse (text : List CodeUnit) : Option Value :=
  match parseValue (text.length + 1) text with
  | some (value, rest) => if skipWhitespace rest = [] then some value else none
  | none => none

/-! ### Strings are read back -/

variable {u : CodeUnit} {rest : List CodeUnit}

theorem parseString_end : parseString (0x22 :: rest) = some ([], rest) := by
  rw [parseString.eq_def]
  exact if_pos rfl

/-- A unit that needs no escape. -/
theorem parseString_plain (hlow : 0x20 ≤ u.toNat) (hquote : u.toNat ≠ 0x22)
    (hbackslash : u.toNat ≠ 0x5c) :
    parseString (u :: rest) = (parseString rest).map (prepend u) := by
  have h₁ : u ≠ 0x22 := fun h => hquote (by rw [h]; rfl)
  have h₂ : ¬ u < 0x20 := by
    rw [UInt16.lt_iff_toNat_lt]
    exact Nat.not_lt.mpr hlow
  have h₃ : u ≠ 0x5c := fun h => hbackslash (by rw [h]; rfl)
  rw [parseString.eq_def]
  dsimp only
  rw [if_neg h₁, if_neg h₂, if_pos h₃]

theorem hexValue_hexDigit {n : ℕ} (hn : n < 16) : hexValue (hexDigit n) = some n := by
  interval_cases n <;> rfl

/-- The four digits of a unit name it. -/
theorem hexUnit_hexDigit (u : CodeUnit) :
    hexUnit (hexDigit (u.toNat / 4096)) (hexDigit (u.toNat / 256 % 16))
      (hexDigit (u.toNat / 16 % 16)) (hexDigit (u.toNat % 16)) = some u := by
  have hu : u.toNat < 65536 := u.toNat_lt
  unfold hexUnit
  rw [hexValue_hexDigit (by omega), hexValue_hexDigit (by omega), hexValue_hexDigit (by omega),
    hexValue_hexDigit (by omega)]
  have hvalue : ((u.toNat / 4096 * 16 + u.toNat / 256 % 16) * 16 + u.toNat / 16 % 16) * 16 +
      u.toNat % 16 = u.toNat := by omega
  simp only [Option.bind_eq_bind, Option.bind_some, hvalue, Option.pure_def]
  rw [UInt16.ofNat_toNat]

theorem parseString_unicodeEscape :
    parseString (unicodeEscape u ++ rest) = (parseString rest).map (prepend u) := by
  show parseString (0x5c :: 0x75 :: _ :: _ :: _ :: _ :: rest) = _
  rw [parseString.eq_def]
  dsimp only
  rw [if_neg (by decide), if_neg (by decide), if_neg (by decide), if_pos rfl, hexUnit_hexDigit,
    Option.bind_some]

/-- An escape of one character. -/
theorem parseString_escape {escape : CodeUnit} (hescape : escape ≠ 0x75)
    (hu : unescape escape = some u) :
    parseString (0x5c :: escape :: rest) = (parseString rest).map (prepend u) := by
  rw [parseString.eq_def]
  dsimp only
  rw [if_neg (by decide), if_neg (by decide), if_neg (by decide), if_neg hescape, hu,
    Option.bind_some]

/-- A unit is read back, escaped or not. -/
theorem parseString_quoteUnit :
    parseString (quoteUnit u ++ rest) = (parseString rest).map (prepend u) := by
  unfold quoteUnit
  split_ifs with h₈ h₉ ha hc hd hquote hescaped
  · rw [h₈]; exact parseString_escape (by decide) rfl
  · rw [h₉]; exact parseString_escape (by decide) rfl
  · rw [ha]; exact parseString_escape (by decide) rfl
  · rw [hc]; exact parseString_escape (by decide) rfl
  · rw [hd]; exact parseString_escape (by decide) rfl
  · rcases hquote with rfl | rfl
    · exact parseString_escape (by decide) rfl
    · exact parseString_escape (by decide) rfl
  · exact parseString_unicodeEscape
  · -- a unit that stands for itself
    rw [not_or] at hquote hescaped
    refine parseString_plain ?_ ?_ ?_
    · have hlow := hescaped.1
      rw [UInt16.lt_iff_toNat_lt] at hlow
      exact Nat.le_of_not_lt hlow
    · exact fun h => hquote.1 (UInt16.toNat_inj.mp h)
    · exact fun h => hquote.2 (UInt16.toNat_inj.mp h)

/-- A unit that stands for itself. -/
theorem quoteUnit_plain (hlow : 0x20 ≤ u.toNat) (hhigh : u.toNat < 0xd800) (hquote : u.toNat ≠ 0x22)
    (hbackslash : u.toNat ≠ 0x5c) : quoteUnit u = [u] := by
  have hcontrol : ∀ c : CodeUnit, c.toNat < 0x20 → u ≠ c := by
    intro c hc h
    rw [h] at hlow
    omega
  have hpunctuation : ¬ (u = 0x22 ∨ u = 0x5c) := by
    rintro (h | h)
    · exact hquote (by rw [h]; rfl)
    · exact hbackslash (by rw [h]; rfl)
  have hsurrogate : ¬ (u < 0x20 ∨ isHighSurrogate u = true ∨ isLowSurrogate u = true) := by
    rw [UInt16.lt_iff_toNat_lt, isHighSurrogate_iff, isLowSurrogate_iff]
    have hspace : (0x20 : CodeUnit).toNat = 0x20 := rfl
    omega
  rw [quoteUnit, if_neg (hcontrol _ (by decide)), if_neg (hcontrol _ (by decide)),
    if_neg (hcontrol _ (by decide)), if_neg (hcontrol _ (by decide)),
    if_neg (hcontrol _ (by decide)), if_neg hpunctuation, if_neg hsurrogate]

/-- A text that needs no escapes is quoted as it is. -/
theorem quoteUnits_plain {text : List CodeUnit} (h : ∀ u ∈ text, quoteUnit u = [u]) :
    quoteUnits text = text := by
  fun_induction quoteUnits text with
  | case1 => rfl
  | case2 u => exact h u List.mem_cons_self
  | case3 u v text hpair ih =>
    have htail := ih fun w hw => h w (List.mem_cons_of_mem _ (List.mem_cons_of_mem _ hw))
    rw [htail]
  | case4 u v text hpair ih =>
    have htail := ih fun w hw => h w (List.mem_cons_of_mem _ hw)
    rw [htail, h u List.mem_cons_self]
    rfl

theorem toNat_surrogate (h : isHighSurrogate u = true ∨ isLowSurrogate u = true) :
    0xd800 ≤ u.toNat ∧ u.toNat ≤ 0xdfff := by
  rw [isHighSurrogate_iff, isLowSurrogate_iff] at h
  omega

/-- **A string is read back.** -/
theorem parseString_quoteUnits (text rest : List CodeUnit) :
    parseString (quoteUnits text ++ 0x22 :: rest) = some (text, rest) := by
  fun_induction quoteUnits text with
  | case1 => exact parseString_end
  | case2 u =>
    rw [parseString_quoteUnit, parseString_end]
    rfl
  | case3 u v text hpair ih =>
    rw [Bool.and_eq_true] at hpair
    have hu := toNat_surrogate (.inl hpair.1)
    have hv := toNat_surrogate (.inr hpair.2)
    rw [List.cons_append, List.cons_append, parseString_plain (by omega) (by omega) (by omega),
      parseString_plain (by omega) (by omega) (by omega), ih]
    rfl
  | case4 u v text hpair ih =>
    rw [List.append_assoc, parseString_quoteUnit, ih]
    rfl

/-! ### Values are read back -/

theorem skipWhitespace_cons (hu : isWhitespace u = false) :
    skipWhitespace (u :: rest) = u :: rest := by
  rw [skipWhitespace, List.dropWhile_cons, hu]
  rfl

/-- The text is read as the value, whatever follows it. -/
def Reads (value : Value) (text : List CodeUnit) : Prop :=
  ∀ fuel rest, text.length ≤ fuel → parseValue fuel (text ++ rest) = some (value, rest)

/-- A string is read back. -/
theorem Reads.string (s : List CodeUnit) : Reads (.string s) (stringify (.string s)) := by
  intro fuel rest hfuel
  rw [stringify] at hfuel ⊢
  match fuel with
  | 0 => exact absurd hfuel (Nat.not_succ_le_zero _)
  | fuel + 1 =>
    show parseValue (fuel + 1) (0x22 :: (quoteUnits s ++ [0x22] ++ rest)) = _
    rw [parseValue, skipWhitespace_cons rfl]
    dsimp only
    rw [if_pos rfl, List.append_assoc, List.singleton_append, parseString_quoteUnits]
    rfl

/-- A member whose value is read, and what stands behind it. -/
theorem parseMembers_member {key : List CodeUnit} {value : Value} {text : List CodeUnit}
    (hvalue : Reads value text) {fuel : ℕ} (hfuel : text.length ≤ fuel) :
    (parseMembers (fuel + 1) (quote key ++ 0x3a :: (text ++ 0x7d :: rest)) =
      some ([(key, value)], rest)) ∧
    ∀ more members, parseMembers fuel more = some (members, rest) →
      parseMembers (fuel + 1) (quote key ++ 0x3a :: (text ++ 0x2c :: more)) =
        some ((key, value) :: members, rest) := by
  -- a key in quotes, as the parser sees it after the opening quote
  have hkey : ∀ after, quote key ++ 0x3a :: after =
      0x22 :: (quoteUnits key ++ 0x22 :: 0x3a :: after) := by
    intro after
    rw [quote, List.cons_append, List.append_assoc, List.singleton_append]
  constructor
  · rw [hkey, parseMembers, skipWhitespace_cons rfl]
    show (parseString (quoteUnits key ++ 0x22 :: _)).bind _ = _
    rw [parseString_quoteUnits, Option.bind_some]
    show (parseValue fuel (text ++ _)).bind _ = _
    rw [hvalue fuel _ hfuel, Option.bind_some]
    rfl
  · -- a comma: the members behind it are parsed with the fuel that is left
    intro more members hmembers
    rw [hkey, parseMembers, skipWhitespace_cons rfl]
    show (parseString (quoteUnits key ++ 0x22 :: _)).bind _ = _
    rw [parseString_quoteUnits, Option.bind_some]
    show (parseValue fuel (text ++ _)).bind _ = _
    rw [hvalue fuel _ hfuel, Option.bind_some]
    show (parseMembers fuel more).map _ = _
    rw [hmembers, Option.map_some]

/-- The members of an object whose values are read. -/
theorem parseMembers_intercalate {fields : List (List CodeUnit × Value)}
    (hreads : ∀ field ∈ fields, Reads field.2 (stringify field.2)) (hne : fields ≠ [])
    (fuel : ℕ) (hfuel : (List.intercalate [0x2c] (stringifyFields fields)).length ≤ fuel)
    (rest : List CodeUnit) :
    parseMembers fuel (List.intercalate [0x2c] (stringifyFields fields) ++ 0x7d :: rest) =
      some (fields, rest) := by
  induction fields generalizing fuel with
  | nil => exact absurd rfl hne
  | cons field fields ih =>
    obtain ⟨key, value⟩ := field
    have hvalue : Reads value (stringify value) := hreads _ List.mem_cons_self
    -- the last member ends with the brace, every other with a comma
    cases fields with
    | nil =>
      rw [stringifyFields, stringifyFields, List.intercalate_singleton] at hfuel ⊢
      rw [List.length_append, List.length_cons] at hfuel
      rw [List.append_assoc, List.cons_append]
      cases fuel with
      | zero => omega
      | succ fuel => exact (parseMembers_member hvalue (by omega)).1
    | cons next fields =>
      have htail : ∀ field ∈ next :: fields, Reads field.2 (stringify field.2) :=
        fun field h => hreads field (List.mem_cons_of_mem _ h)
      rw [stringifyFields] at hfuel ⊢
      have hne' : stringifyFields (next :: fields) ≠ [] := by
        rw [stringifyFields]
        exact List.cons_ne_nil _ _
      rw [List.intercalate_cons_of_ne_nil hne'] at hfuel ⊢
      rw [List.length_append, List.length_append, List.length_append, List.length_cons] at hfuel
      rw [List.append_assoc, List.append_assoc, List.append_assoc, List.cons_append,
        List.singleton_append]
      cases fuel with
      | zero => omega
      | succ fuel =>
        have hmembers := ih htail (List.cons_ne_nil _ _) fuel (by omega)
        exact (parseMembers_member hvalue (by omega)).2 _ _ hmembers

/-- **An object is read back**, when its values are and its keys stand in their order. -/
theorem Reads.object {fields : List (List CodeUnit × Value)}
    (hreads : ∀ field ∈ fields, Reads field.2 (stringify field.2))
    (hfields : ofMembers fields = .object fields) :
    Reads (.object fields) (stringify (.object fields)) := by
  intro fuel rest hfuel
  rw [stringify] at hfuel ⊢
  rw [List.length_cons, List.length_append] at hfuel
  match fuel with
  | 0 => exact absurd hfuel (Nat.not_succ_le_zero _)
  | fuel + 1 =>
    rw [List.cons_append, List.append_assoc, List.singleton_append, parseValue,
      skipWhitespace_cons rfl]
    dsimp only
    rw [if_neg (by decide), if_pos rfl]
    cases fields with
    | nil => rfl
    | cons field fields =>
      have hmembers := parseMembers_intercalate hreads (List.cons_ne_nil _ _) fuel
        (by omega) rest
      -- behind the brace stands the quote of the first key
      obtain ⟨text, htext⟩ : ∃ text,
          List.intercalate [0x2c] (stringifyFields (field :: fields)) = 0x22 :: text := by
        rw [stringifyFields, quote]
        cases stringifyFields fields with
        | nil => exact ⟨_, List.intercalate_singleton⟩
        | cons next texts => exact ⟨_, List.intercalate_cons_cons⟩
      rw [htext, List.cons_append] at hmembers ⊢
      rw [skipWhitespace_cons rfl]
      show (parseMembers fuel (0x22 :: _)).map _ = _
      rw [hmembers, Option.map_some, hfields]

theorem parse_of_reads {value : Value} {text : List CodeUnit} (h : Reads value text) :
    parse text = some value := by
  have hvalue := h (text.length + 1) [] (Nat.le_succ _)
  rw [List.append_nil] at hvalue
  rw [parse, hvalue]
  exact if_pos rfl

/-! ### The units that go through UTF-8 -/

/-- A half of a pair is escaped when it stands alone. -/
theorem hasUnpairedSurrogate_quoteUnit : hasUnpairedSurrogate (quoteUnit u) = false := by
  have hhex : ∀ n < 16,
      isHighSurrogate (hexDigit n) = false ∧ isLowSurrogate (hexDigit n) = false := by decide
  -- a unit is below 2 ^ 16, so four hexadecimal digits write it
  have hu : u.toNat < 65536 := u.toNat_lt
  unfold quoteUnit
  split_ifs with h₈ h₉ ha hc hd hquote hescaped
  iterate 5 rfl
  · rcases hquote with rfl | rfl
    · rfl
    · rfl
  · -- an escape is made of ASCII units only
    apply hasUnpairedSurrogate_eq_false
    intro v hv
    simp only [unicodeEscape, List.mem_cons, List.not_mem_nil, or_false] at hv
    rcases hv with rfl | rfl | rfl | rfl | rfl | rfl
    · decide
    · decide
    · exact hhex _ (by omega)
    · exact hhex _ (by omega)
    · exact hhex _ (by omega)
    · exact hhex _ (by omega)
  · -- what is written as it is was no surrogate
    rw [not_or, not_or, Bool.not_eq_true, Bool.not_eq_true] at hescaped
    rw [hasUnpairedSurrogate, hescaped.2.1, hescaped.2.2]
    rfl

/-- What stands between the quotes has no unpaired surrogate. -/
theorem hasUnpairedSurrogate_quoteUnits (text : List CodeUnit) :
    hasUnpairedSurrogate (quoteUnits text) = false := by
  fun_induction quoteUnits text with
  | case1 => rfl
  | case2 u => exact hasUnpairedSurrogate_quoteUnit
  | case3 u v text hpair ih =>
    rw [Bool.and_eq_true] at hpair
    rw [hasUnpairedSurrogate, if_pos hpair.1, if_pos hpair.2]
    exact ih
  | case4 u v text hpair ih => exact hasUnpairedSurrogate_append hasUnpairedSurrogate_quoteUnit ih

/-- Between two units outside of the surrogates. -/
theorem hasUnpairedSurrogate_between {opening closing : CodeUnit} {text : List CodeUnit}
    (hopening : isHighSurrogate opening = false ∧ isLowSurrogate opening = false)
    (hclosing : isHighSurrogate closing = false ∧ isLowSurrogate closing = false)
    (h : hasUnpairedSurrogate text = false) :
    hasUnpairedSurrogate (opening :: (text ++ [closing])) = false := by
  have hsingle : ∀ u, isHighSurrogate u = false ∧ isLowSurrogate u = false →
      hasUnpairedSurrogate [u] = false := by
    intro u hu
    rw [hasUnpairedSurrogate, hu.1, hu.2]
    rfl
  have htext := hasUnpairedSurrogate_append h (hsingle closing hclosing)
  exact hasUnpairedSurrogate_append (hsingle opening hopening) htext

theorem hasUnpairedSurrogate_quote (text : List CodeUnit) :
    hasUnpairedSurrogate (quote text) = false :=
  hasUnpairedSurrogate_between (by decide) (by decide) (hasUnpairedSurrogate_quoteUnits text)

theorem hasUnpairedSurrogate_stringify_string (text : List CodeUnit) :
    hasUnpairedSurrogate (stringify (.string text)) = false := by
  rw [stringify]
  exact hasUnpairedSurrogate_quote text

/-- What is written of an object has no unpaired surrogate. -/
theorem hasUnpairedSurrogate_stringify_object {fields : List (List CodeUnit × Value)}
    (h : ∀ field ∈ fields, hasUnpairedSurrogate (stringify field.2) = false) :
    hasUnpairedSurrogate (stringify (.object fields)) = false := by
  rw [stringify]
  apply hasUnpairedSurrogate_between (by decide) (by decide)
  -- between the braces, member by member
  induction fields with
  | nil => rfl
  | cons field fields ih =>
    have hmember : hasUnpairedSurrogate (quote field.1 ++ 0x3a :: stringify field.2) = false := by
      apply hasUnpairedSurrogate_append (hasUnpairedSurrogate_quote _)
      exact hasUnpairedSurrogate_append (s := [0x3a]) rfl (h field List.mem_cons_self)
    have htail := ih fun next hnext => h next (List.mem_cons_of_mem _ hnext)
    rw [stringifyFields]
    cases hfields : stringifyFields fields with
    | nil =>
      rw [List.intercalate_singleton]
      exact hmember
    | cons next texts =>
      rw [hfields] at htail
      rw [List.intercalate_cons_cons, List.append_assoc]
      apply hasUnpairedSurrogate_append hmember
      exact hasUnpairedSurrogate_append (s := [0x2c]) rfl htail


end StellarForge.Encoding.Json
