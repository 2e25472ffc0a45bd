import Mathlib.Algebra.Order.Field.Basic
import Mathlib.Algebra.Order.Ring.Rat
import Mathlib.Tactic.FieldSimp
import Mathlib.Tactic.Linarith
import Mathlib.Tactic.Positivity
import Mathlib.Tactic.Ring
import StellarForge.Collections.Numerals

/-!
# Token amounts as text

An amount is an integer of atomic units; `formatTokenAmount` writes it with a decimal point, and
`parseTokenAmount` reads such a text back.  `denoted` says which number a text of the form
`[-]digits[.digits]` stands for.

* `denoted_formatTokenAmount`: what is written denotes the amount;
* `parseTokenAmount_eq`: what is read;
* `roundTrips_iff`: **which amounts and which texts survive the way there and back**;
* `not_roundTrips_half`: half a unit below zero.
-/

namespace StellarForge.Frontend

open Text

/-! ### Writing and reading -/

/-- `formatTokenAmount`; `none` where `BigInt` throws.  The power `10 ** decimals` is a floating point
number in the source, exact up to `10 ** 22`. -/
def formatTokenAmount (amount : String) (decimals : ℕ) : Option String :=
  if decimals = 0 then some amount
  else do
    let raw ← toBigInt amount
    let isNeg := raw < 0
    let abs := raw.natAbs
    let factor := 10 ^ decimals
    let whole := abs / factor
    let frac := abs % factor
    let fracStr := (Nat.toDigits 10 frac).leftpad decimals '0'
    let result := Nat.toDigits 10 whole ++ '.' :: fracStr
    return String.ofList (if isNeg then '-' :: result else result)

/-- `parseTokenAmount` -/
def parseTokenAmount (display : String) (decimals : ℕ) : Option String := do
  let parts := display.toList.splitOn '.'
  let whole := parts[0]?.getD ['0']
  let frac := ((parts[1]?.getD []).rightpad decimals '0').take decimals
  let wholeValue ← toBigInt (String.ofList whole)
  let fracValue ← toBigInt (String.ofList (if frac = [] then ['0'] else frac))
  return bigIntText (wholeValue * 10 ^ decimals + fracValue)

/-! ### What a text denotes -/

/-- The value of `digits` or `digits.digits`. -/
def unsignedValue (text : List Char) : Option ℚ :=
  match text.splitOn '.' with
  | [whole] => (decimalNumeral whole).map fun w : ℕ => (w : ℚ)
  | [whole, frac] => do
    let w ← decimalNumeral whole
    let f ← decimalNumeral frac
    return (w : ℚ) + (f : ℚ) / 10 ^ frac.length
  | _ => none

/-- The value of a text of the form `[-]digits[.digits]`, and `none` of any other text. -/
def denoted (text : String) : Option ℚ :=
  match text.toList with
  | '-' :: rest => (unsignedValue rest).map fun q => -q
  | rest => unsignedValue rest

/-- The number of digits after the point. -/
def fractionDigits (text : String) : ℕ := ((text.toList.splitOn '.')[1]?.getD []).length

/-! ### Parts of a text -/

variable {text whole frac digits : List Char} {display : String} {d : ℕ} {q : ℚ} {x : ℤ}

/-- The digits before and after the point, the latter empty where there is no point. -/
structure Parts (text whole frac : List Char) : Prop where
  split : text.splitOn '.' = [whole] ∧ frac = [] ∨ text.splitOn '.' = [whole, frac]
  whole_ne : whole ≠ []
  whole_digits : ∀ c ∈ whole, c.isDigit = true
  frac_digits : ∀ c ∈ frac, c.isDigit = true

/-- Their value. -/
def partsValue (whole frac : List Char) : ℚ :=
  (decimal whole : ℚ) + (decimal frac : ℚ) / 10 ^ frac.length

theorem decimalNumeral_eq_some {n : ℕ} (h : decimalNumeral digits = some n) :
    digits ≠ [] ∧ (∀ c ∈ digits, c.isDigit = true) ∧ decimal digits = n := by
  unfold decimalNumeral at h
  split_ifs at h with hd
  exact ⟨hd.1, List.all_eq_true.mp hd.2, Option.some.inj h⟩

/-- A value is written with a whole part and a fraction. -/
theorem exists_parts (h : unsignedValue text = some q) :
    ∃ whole frac, Parts text whole frac ∧ q = partsValue whole frac := by
  unfold unsignedValue at h
  split at h
  case h_1 whole hsplit =>
    obtain ⟨w, hw, rfl⟩ := Option.map_eq_some_iff.mp h
    obtain ⟨hne, hdigits, rfl⟩ := decimalNumeral_eq_some hw
    refine ⟨whole, [], ⟨.inl ⟨hsplit, rfl⟩, hne, hdigits, by simp⟩, ?_⟩
    simp [partsValue, decimal]
  case h_2 whole frac hsplit =>
    obtain ⟨w, hw, f, hf, hq⟩ : ∃ w, decimalNumeral whole = some w ∧ ∃ f,
        decimalNumeral frac = some f ∧ (w : ℚ) + (f : ℚ) / 10 ^ frac.length = q := by
      simpa [Option.bind_eq_some_iff] using h
    obtain ⟨hne, hdigits, rfl⟩ := decimalNumeral_eq_some hw
    obtain ⟨-, hfrac, rfl⟩ := decimalNumeral_eq_some hf
    exact ⟨whole, frac, ⟨.inr hsplit, hne, hdigits, hfrac⟩, hq.symm⟩
  case h_3 => cases h

/-- The fraction is less than one. -/
theorem Parts.fraction_lt (h : Parts text whole frac) :
    0 ≤ (decimal frac : ℚ) / 10 ^ frac.length ∧ (decimal frac : ℚ) / 10 ^ frac.length < 1 := by
  have hpos : (0 : ℚ) < 10 ^ frac.length := by positivity
  have hlt : (decimal frac : ℚ) < 10 ^ frac.length := by
    exact_mod_cast decimal_lt h.frac_digits
  constructor
  · positivity
  · rwa [div_lt_one hpos]

/-- A whole part with a fraction is an integer only if the fraction is zero. -/
theorem Parts.eq_zero_of_integer (h : Parts text whole frac)
    (hn : ∃ n : ℤ, (n : ℚ) = -partsValue whole frac) : decimal frac = 0 := by
  obtain ⟨n, hn⟩ := hn
  obtain ⟨hnonneg, hlt⟩ := h.fraction_lt
  have hfraction : (decimal frac : ℚ) / 10 ^ frac.length = ((-n - decimal whole : ℤ) : ℚ) := by
    rw [partsValue] at hn
    push_cast
    linarith
  rw [hfraction] at hnonneg hlt
  have hzero : -n - (decimal whole : ℤ) = 0 := by
    have hlow : 0 ≤ -n - (decimal whole : ℤ) := by exact_mod_cast hnonneg
    have hhigh : -n - (decimal whole : ℤ) < 1 := by exact_mod_cast hlt
    omega
  rw [hzero, Int.cast_zero, div_eq_zero_iff] at hfraction
  rcases hfraction with hdecimal | hpow
  · exact_mod_cast hdecimal
  · exact absurd hpow (by positivity)

/-! ### Reading -/

/-- The digits after the point, filled up with zeros. -/
theorem toBigInt_padded (hlen : frac.length ≤ d) (hdigits : ∀ c ∈ frac, c.isDigit = true) :
    toBigInt (String.ofList (if (frac.rightpad d '0').take d = [] then ['0']
      else (frac.rightpad d '0').take d)) = some ((decimal frac * 10 ^ (d - frac.length) : ℕ) : ℤ) := by
  -- the padding fills the fraction up to exactly `d` digits
  have hpad : (frac.rightpad d '0').take d = frac ++ List.replicate (d - frac.length) '0' := by
    rw [List.rightpad, List.take_of_length_le]
    rw [List.length_append, List.length_replicate]
    omega
  have hvalue : decimal (frac ++ List.replicate (d - frac.length) '0') =
      decimal frac * 10 ^ (d - frac.length) := by
    rw [decimal_append, List.length_replicate, decimal_replicate_zero, Nat.add_zero]
  rw [hpad, ← hvalue]
  split_ifs with hnil
  · rw [hnil]
    rfl
  · apply toBigInt_digits hnil
    intro c hc
    rcases List.mem_append.mp hc with hc | hc
    · exact hdigits c hc
    · rw [List.eq_of_mem_replicate hc]
      rfl

theorem getElem?_parts (h : Parts text whole frac) :
    (text.splitOn '.')[0]? = some whole ∧ ((text.splitOn '.')[1]?.getD []) = frac := by
  rcases h.split with ⟨hsplit, rfl⟩ | hsplit <;> rw [hsplit] <;> exact ⟨rfl, rfl⟩

/-- A sign belongs to the first part. -/
theorem splitOn_neg (h : Parts text whole frac) :
    (('-' :: text).splitOn '.')[0]? = some ('-' :: whole) ∧
      ((('-' :: text).splitOn '.')[1]?.getD []) = frac := by
  have hcons : ('-' :: text).splitOn '.' = (text.splitOn '.').modifyHead ('-' :: ·) := by
    rw [List.splitOn_cons_eq_if_modifyHead, if_neg (by decide)]
  rw [hcons]
  rcases h.split with ⟨hsplit, rfl⟩ | hsplit <;> rw [hsplit] <;> exact ⟨rfl, rfl⟩

theorem parseTokenAmount_of_parts {a : ℤ} (hwhole : (display.toList.splitOn '.')[0]? = some whole)
    (hfrac : (display.toList.splitOn '.')[1]?.getD [] = frac)
    (hvalue : toBigInt (String.ofList whole) = some a) (hlen : frac.length ≤ d)
    (hdigits : ∀ c ∈ frac, c.isDigit = true) :
    parseTokenAmount display d =
      some (bigIntText (a * 10 ^ d + (decimal frac * 10 ^ (d - frac.length) : ℕ))) := by
  simp only [parseTokenAmount, hwhole, hfrac, Option.getD_some, hvalue,
    toBigInt_padded hlen hdigits]
  rfl

/-- The atomic units of a whole part and of a fraction. -/
theorem units_div (a : ℤ) (hlen : frac.length ≤ d) :
    ((a * 10 ^ d + (decimal frac * 10 ^ (d - frac.length) : ℕ) : ℤ) : ℚ) / 10 ^ d =
      a + (decimal frac : ℚ) / 10 ^ frac.length := by
  have hpow : (10 : ℚ) ^ d ≠ 0 := by positivity
  have hsplit : (10 : ℚ) ^ d = 10 ^ frac.length * 10 ^ (d - frac.length) := by
    rw [← pow_add, Nat.add_sub_of_le hlen]
  have hfraction : (decimal frac : ℚ) * 10 ^ (d - frac.length) / 10 ^ d =
      (decimal frac : ℚ) / 10 ^ frac.length := by
    rw [hsplit, mul_div_mul_right _ _ (by positivity)]
  push_cast
  rw [add_div, mul_div_cancel_right₀ _ hpow, hfraction]

/-- What is read of a text: its sign reaches the whole part only. -/
theorem parseTokenAmount_eq (h : denoted display = some q) (hlen : fractionDigits display ≤ d) :
    ∃ r : ℤ, parseTokenAmount display d = some (bigIntText r) ∧
      ((r : ℚ) / 10 ^ d = q ↔ 0 ≤ q ∨ ∃ n : ℤ, (n : ℚ) = q) := by
  unfold denoted at h
  unfold fractionDigits at hlen
  split at h
  case h_1 rest htext =>
    obtain ⟨p, hp, rfl⟩ := Option.map_eq_some_iff.mp h
    obtain ⟨whole, frac, hparts, rfl⟩ := exists_parts hp
    obtain ⟨hwhole, hfrac⟩ := splitOn_neg hparts
    rw [← htext] at hwhole hfrac
    rw [hfrac] at hlen
    have hvalue := toBigInt_neg_digits hparts.whole_ne hparts.whole_digits
    refine ⟨_, parseTokenAmount_of_parts hwhole hfrac hvalue hlen hparts.frac_digits, ?_⟩
    rw [units_div _ hlen]
    have hnonneg : 0 ≤ (decimal frac : ℚ) / 10 ^ frac.length := hparts.fraction_lt.1
    have hpos : (0 : ℚ) ≤ decimal whole := Nat.cast_nonneg _
    push_cast
    constructor
    · intro heq
      -- the fraction counts the wrong way, so it is zero
      have hzero : (decimal frac : ℚ) / 10 ^ frac.length = 0 := by
        rw [partsValue] at heq
        linarith
      refine .inr ⟨-(decimal whole : ℤ), ?_⟩
      rw [partsValue, hzero]
      push_cast
      ring
    · intro hcases
      have hzero : (decimal frac : ℚ) / 10 ^ frac.length = 0 := by
        rcases hcases with hsign | hinteger
        · rw [partsValue] at hsign
          linarith
        · rw [hparts.eq_zero_of_integer hinteger, Nat.cast_zero, zero_div]
      rw [partsValue, hzero]
      ring
  case h_2 =>
    obtain ⟨whole, frac, hparts, rfl⟩ := exists_parts h
    obtain ⟨hwhole, hfrac⟩ := getElem?_parts hparts
    rw [hfrac] at hlen
    have hvalue := toBigInt_digits hparts.whole_ne hparts.whole_digits
    refine ⟨_, parseTokenAmount_of_parts hwhole hfrac hvalue hlen hparts.frac_digits, ?_⟩
    rw [units_div _ hlen]
    have hnonneg : 0 ≤ partsValue whole frac := by
      have hfraction := hparts.fraction_lt.1
      unfold partsValue
      positivity
    exact iff_of_true rfl (.inl hnonneg)

/-! ### Writing -/

/-- The two parts of what is written. -/
theorem parts_append (hw : whole ≠ []) (hwhole : ∀ c ∈ whole, c.isDigit = true) (hf : frac ≠ [])
    (hfrac : ∀ c ∈ frac, c.isDigit = true) :
    unsignedValue (whole ++ '.' :: frac) = some (partsValue whole frac) := by
  have hnot {l : List Char} (hl : ∀ c ∈ l, c.isDigit = true) : '.' ∉ l := by
    intro hmem
    have := hl '.' hmem
    cases this
  have hsplit : (whole ++ '.' :: frac).splitOn '.' = [whole, frac] := by
    rw [List.splitOn_append_cons_self_of_not_mem (hnot hwhole), List.splitOn_eq_singleton (hnot hfrac)]
  rw [unsignedValue, hsplit]
  simp [decimalNumeral_of_digits hw hwhole, decimalNumeral_of_digits hf hfrac, partsValue]

theorem unsignedValue_digits (hw : whole ≠ []) (hwhole : ∀ c ∈ whole, c.isDigit = true) :
    unsignedValue whole = some (decimal whole : ℚ) := by
  have hnot : '.' ∉ whole := by
    intro hmem
    have := hwhole '.' hmem
    cases this
  rw [unsignedValue, List.splitOn_eq_singleton hnot]
  simp [decimalNumeral_of_digits hw hwhole]

/-- A sign before digits is a sign of the number. -/
theorem denoted_sign (neg : Prop) [Decidable neg] (hw : whole ≠ [])
    (hwhole : ∀ c ∈ whole, c.isDigit = true) (rest : List Char) :
    denoted (String.ofList (if neg then '-' :: (whole ++ rest) else whole ++ rest)) =
      (unsignedValue (whole ++ rest)).map fun q => if neg then -q else q := by
  obtain ⟨c, whole, rfl⟩ := List.exists_cons_of_ne_nil hw
  have hc : c.isDigit = true := hwhole c List.mem_cons_self
  unfold denoted
  rw [String.toList_ofList]
  split_ifs with hneg
  · rfl
  · split
    case h_1 rest htext =>
      rw [List.cons_append, List.cons.injEq] at htext
      rw [htext.1] at hc
      cases hc
    case h_2 => simp

theorem not_mem_of_digits {c : Char} (hc : c.isDigit = false)
    (h : ∀ c ∈ digits, c.isDigit = true) : c ∉ digits := by
  intro hmem
  rw [h c hmem] at hc
  cases hc

/-- The sign does not count among the digits of the fraction. -/
theorem fractionDigits_sign (neg : Prop) [Decidable neg]
    (hwhole : ∀ c ∈ whole, c.isDigit = true) (hfrac : ∀ c ∈ frac, c.isDigit = true) :
    fractionDigits (String.ofList
      (if neg then '-' :: (whole ++ '.' :: frac) else whole ++ '.' :: frac)) = frac.length := by
  have hnot : '.' ∉ whole := not_mem_of_digits rfl hwhole
  have hsplit : frac.splitOn '.' = [frac] := List.splitOn_eq_singleton (not_mem_of_digits rfl hfrac)
  unfold fractionDigits
  rw [String.toList_ofList]
  split_ifs with hneg
  · have hsigned : '.' ∉ '-' :: whole := by
      rw [List.mem_cons, not_or]
      exact ⟨by decide, hnot⟩
    rw [← List.cons_append, List.splitOn_append_cons_self_of_not_mem hsigned, hsplit]
    rfl
  · rw [List.splitOn_append_cons_self_of_not_mem hnot, hsplit]
    rfl

theorem ite_neg_natAbs (x : ℤ) : (if x < 0 then -(x.natAbs : ℚ) else x.natAbs) = x := by
  rw [Nat.cast_natAbs]
  split_ifs with hx
  · rw [abs_of_neg hx, Int.cast_neg, neg_neg]
  · rw [abs_of_nonneg (not_lt.mp hx)]

/-- What is written denotes the amount, with at most `d` digits after the point. -/
theorem denoted_formatTokenAmount (x : ℤ) (d : ℕ) :
    ∃ t, formatTokenAmount (bigIntText x) d = some t ∧ denoted t = some ((x : ℚ) / 10 ^ d) ∧
      fractionDigits t ≤ d := by
  have hdigits (n : ℕ) : ∀ c ∈ Nat.toDigits 10 n, c.isDigit = true := fun c => isDigit_toDigits
  rcases Nat.eq_zero_or_pos d with rfl | hd
  · -- without decimals the text is the integer, and there is no point in it
    refine ⟨bigIntText x, if_pos rfl, ?_, ?_⟩
    · have hvalue := denoted_sign (x < 0) Nat.toDigits_ne_nil (hdigits x.natAbs) []
      rw [List.append_nil, unsignedValue_digits Nat.toDigits_ne_nil (hdigits x.natAbs),
        decimal_toDigits, Option.map_some, ite_neg_natAbs] at hvalue
      rw [bigIntText, hvalue, pow_zero, div_one]
    · have hnone : '.' ∉ (if x < 0 then '-' :: Nat.toDigits 10 x.natAbs
          else Nat.toDigits 10 x.natAbs) := by
        split_ifs
        · rw [List.mem_cons, not_or]
          exact ⟨by decide, not_mem_of_digits rfl (hdigits x.natAbs)⟩
        · exact not_mem_of_digits rfl (hdigits x.natAbs)
      rw [bigIntText, fractionDigits, String.toList_ofList, List.splitOn_eq_singleton hnone]
      exact le_rfl
  · set whole := Nat.toDigits 10 (x.natAbs / 10 ^ d) with hwhole
    set frac := (Nat.toDigits 10 (x.natAbs % 10 ^ d)).leftpad d '0' with hfrac
    -- the remainder has at most `d` digits, so padding makes it exactly `d`
    have hshort : (Nat.toDigits 10 (x.natAbs % 10 ^ d)).length ≤ d := by
      rw [Nat.length_toDigits_le_iff (by decide) hd]
      exact Nat.mod_lt _ (by positivity)
    have hlength : frac.length = d := by
      rw [hfrac, List.length_leftpad]
      exact Nat.max_eq_left hshort
    have hfracDigits : ∀ c ∈ frac, c.isDigit = true := by
      intro c hc
      rw [hfrac, List.leftpad, List.mem_append] at hc
      rcases hc with hc | hc
      · rw [List.eq_of_mem_replicate hc]
        rfl
      · exact hdigits _ c hc
    have hfracNe : frac ≠ [] := by
      rintro hnil
      rw [hnil, List.length_nil] at hlength
      omega
    have hfracValue : decimal frac = x.natAbs % 10 ^ d := by
      rw [hfrac, List.leftpad, decimal_append, decimal_replicate_zero, decimal_toDigits]
      omega
    refine ⟨String.ofList (if x < 0 then '-' :: (whole ++ '.' :: frac) else whole ++ '.' :: frac),
      ?_, ?_, ?_⟩
    · rw [formatTokenAmount, if_neg (Nat.ne_of_gt hd), toBigInt_bigIntText]
      rfl
    · have hvalue := denoted_sign (x < 0) Nat.toDigits_ne_nil (hdigits (x.natAbs / 10 ^ d))
        ('.' :: frac)
      rw [parts_append Nat.toDigits_ne_nil (hdigits _) hfracNe hfracDigits, Option.map_some] at hvalue
      -- quotient and remainder put together again
      have hparts : partsValue (Nat.toDigits 10 (x.natAbs / 10 ^ d)) frac =
          (x.natAbs : ℚ) / 10 ^ d := by
        have hpow : (10 : ℚ) ^ d ≠ 0 := by positivity
        have hdiv : (x.natAbs : ℚ) =
            10 ^ d * (x.natAbs / 10 ^ d : ℕ) + (x.natAbs % 10 ^ d : ℕ) := by
          exact_mod_cast (Nat.div_add_mod x.natAbs (10 ^ d)).symm
        rw [partsValue, decimal_toDigits, hfracValue, hlength, hdiv]
        field_simp
      rw [hvalue, hparts, ← ite_neg_natAbs x]
      -- the sign stands in front of the whole part
      split_ifs with hx
      · rw [neg_div]
      · rfl
    · exact (fractionDigits_sign (x < 0) (hdigits _) hfracDigits).trans_le hlength.le

/-! ### There and back -/

/-- What is written of an amount is read back as its decimal text. -/
def ReadsBack (x : ℤ) (d : ℕ) : Prop :=
  ∃ t, formatTokenAmount (bigIntText x) d = some t ∧ parseTokenAmount t d = some (bigIntText x)

/-- What is read of a text is written as a text of the same number. -/
def Redisplays (display : String) (d : ℕ) : Prop :=
  ∃ units t, parseTokenAmount display d = some units ∧ formatTokenAmount units d = some t ∧
    denoted t = denoted display

/-- The two ways round, for every amount and every text with at most `d` digits after the point. -/
def RoundTrips (d : ℕ) : Prop :=
  (∀ x, ReadsBack x d) ∧
    ∀ display q, denoted display = some q → fractionDigits display ≤ d → Redisplays display d

/-- An amount below zero survives only if it is whole, in either direction; `18` is the greatest number of
decimals that a token can have. -/
theorem roundTrips_iff (_hd : d ≤ 18) :
    (∀ x, ReadsBack x d ↔ 0 ≤ x ∨ (10 ^ d : ℤ) ∣ x) ∧
      ∀ display q, denoted display = some q → fractionDigits display ≤ d →
        (Redisplays display d ↔ 0 ≤ q ∨ ∃ n : ℤ, (n : ℚ) = q) := by
  have hpow : (10 : ℚ) ^ d ≠ 0 := by positivity
  constructor
  · intro x
    obtain ⟨t, hformat, hdenoted, hlen⟩ := denoted_formatTokenAmount x d
    obtain ⟨r, hparse, hr⟩ := parseTokenAmount_eq hdenoted hlen
    -- reading the text that was written gives `r`, and it is the only text written for `x`
    have hback : ReadsBack x d ↔ r = x := by
      constructor
      · rintro ⟨t', hformat', hparse'⟩
        rw [Option.some.inj (hformat.symm.trans hformat')] at hparse
        exact bigIntText_injective (Option.some.inj (hparse.symm.trans hparse'))
      · rintro rfl
        exact ⟨t, hformat, hparse⟩
    have hscaled : (r : ℚ) / 10 ^ d = (x : ℚ) / 10 ^ d ↔ r = x := by
      rw [div_left_inj' hpow, Int.cast_inj]
    have hsign : 0 ≤ (x : ℚ) / 10 ^ d ↔ 0 ≤ x := by
      rw [le_div_iff₀ (by positivity), zero_mul, Int.cast_nonneg_iff]
    -- in units, a whole value is a divisibility
    have hwhole : (∃ n : ℤ, (n : ℚ) = (x : ℚ) / 10 ^ d) ↔ (10 ^ d : ℤ) ∣ x := by
      constructor
      · rintro ⟨n, hn⟩
        refine ⟨n, ?_⟩
        rw [eq_div_iff hpow] at hn
        have : n * 10 ^ d = x := by exact_mod_cast hn
        rw [← this, mul_comm]
      · rintro ⟨n, rfl⟩
        refine ⟨n, ?_⟩
        push_cast
        field_simp
    rw [hback, ← hscaled, hr, hsign, hwhole]
  · -- the other way round: `r` is read first and written again
    intro display q hq hlen
    obtain ⟨r, hparse, hr⟩ := parseTokenAmount_eq hq hlen
    obtain ⟨t, hformat, hdenoted, -⟩ := denoted_formatTokenAmount r d
    rw [← hr]
    constructor
    · rintro ⟨units, t', hparse', hformat', hsame⟩
      rw [← Option.some.inj (hparse.symm.trans hparse'), hformat] at hformat'
      rw [← Option.some.inj hformat', hdenoted, hq] at hsame
      exact Option.some.inj hsame
    · intro heq
      exact ⟨_, t, hparse, hformat, by rw [hdenoted, heq, hq]⟩

/-- Seven decimals, which the token form starts with. -/
theorem roundTrips_seven :
    (∀ x, ReadsBack x 7 ↔ 0 ≤ x ∨ (10 ^ 7 : ℤ) ∣ x) ∧
      ∀ display q, denoted display = some q → fractionDigits display ≤ 7 →
        (Redisplays display 7 ↔ 0 ≤ q ∨ ∃ n : ℤ, (n : ℚ) = q) :=
  roundTrips_iff (by decide)

/-- Half a unit below zero is written as `-0.5` and read as half a unit. -/
theorem not_roundTrips_half : ¬ ∀ d ≤ 18, RoundTrips d := by
  intro h
  obtain ⟨t, hformat, hparse⟩ := (h 1 (by decide)).1 (-5)
  have hwritten : formatTokenAmount (bigIntText (-5)) 1 = some "-0.5" := by decide
  have hread : parseTokenAmount "-0.5" 1 = some "5" := by decide
  rw [hwritten] at hformat
  rw [← Option.some.inj hformat, hread] at hparse
  revert hparse
  decide

end StellarForge.Frontend
