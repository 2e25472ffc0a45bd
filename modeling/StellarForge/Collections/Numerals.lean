import Mathlib.Algebra.Order.Ring.Nat
import StellarForge.Collections.Text

/-!
# Integers as text

`toBigInt` reads an integer the way `BigInt(text)` does: blanks around it are left out, nothing is zero,
and a text that is no numeral is an error.  `bigIntText` is the decimal text of an integer.

* `decimal_append`, `decimal_lt`: the value of a list of digits;
* `toBigInt_bigIntText`: reading the decimal text of an integer gives it back.
-/

namespace StellarForge.Text

/-! ### Digits -/

variable {digits : List Char} {n : ℕ} {x : ℤ}

theorem decimal_append (ds es : List Char) :
    decimal (ds ++ es) = decimal ds * 10 ^ es.length + decimal es := by
  show Nat.ofDigitChars 10 (ds ++ es) 0 = Nat.ofDigitChars 10 ds 0 * _ + Nat.ofDigitChars 10 es 0
  rw [Nat.ofDigitChars_append, Nat.ofDigitChars_eq_ofDigitChars_zero, Nat.mul_comm]

theorem decimal_replicate_zero (n : ℕ) : decimal (List.replicate n '0') = 0 := by
  show Nat.ofDigitChars 10 (List.replicate n '0') 0 = 0
  rw [Nat.ofDigitChars_replicate_zero, Nat.mul_zero]

theorem digit_lt {c : Char} (hc : c.isDigit = true) : c.toNat - '0'.toNat < 10 := by
  have hle : c.toNat ≤ '9'.toNat := by
    simp only [Char.isDigit, Bool.and_eq_true, decide_eq_true_eq] at hc
    exact hc.2
  have h9 : '9'.toNat = 57 := rfl
  have h0 : '0'.toNat = 48 := rfl
  omega

/-- So many digits stay below that power of ten. -/
theorem decimal_lt (h : ∀ c ∈ digits, c.isDigit = true) : decimal digits < 10 ^ digits.length := by
  induction digits using List.reverseRecOn with
  | nil => decide
  | append_singleton ds c ih =>
    have hds : decimal ds < 10 ^ ds.length := ih fun d hd => h d (List.mem_append_left _ hd)
    have hc : c.toNat - '0'.toNat < 10 := digit_lt (h c (by simp))
    have hlast : decimal [c] = c.toNat - '0'.toNat := by
      show 10 * 0 + (c.toNat - '0'.toNat) = _
      omega
    rw [decimal_append, hlast, List.length_append, List.length_singleton, pow_succ]
    omega

/-- The value of one digit in a base, capital letters included. -/
def digitValue (c : Char) : Option ℕ :=
  if '0' ≤ c ∧ c ≤ '9' then some (c.toNat - '0'.toNat)
  else if 'a' ≤ c ∧ c ≤ 'z' then some (c.toNat - 'a'.toNat + 10)
  else if 'A' ≤ c ∧ c ≤ 'Z' then some (c.toNat - 'A'.toNat + 10)
  else none

/-- A numeral without a sign in the given base: at least one digit, and only digits. -/
def numeral (base : ℕ) (text : List Char) : Option ℕ :=
  if text = [] then none
  else text.foldlM (fun n c => (digitValue c).bind fun d =>
    if d < base then some (base * n + d) else none) 0

/-- A decimal numeral without a sign. -/
def decimalNumeral (text : List Char) : Option ℕ :=
  if text ≠ [] ∧ text.all Char.isDigit = true then some (decimal text) else none

/-- `StringToBigInt`: the mathematical value of `BigInt(text)`, and `none` for its `SyntaxError`.  A
sign stands only before a decimal numeral. -/
def toBigInt (text : String) : Option ℤ :=
  match (trim text).toList with
  | [] => some 0
  | '+' :: rest => (decimalNumeral rest).map fun n : ℕ => (n : ℤ)
  | '-' :: rest => (decimalNumeral rest).map fun n : ℕ => -(n : ℤ)
  | '0' :: 'x' :: rest | '0' :: 'X' :: rest => (numeral 16 rest).map fun n : ℕ => (n : ℤ)
  | '0' :: 'o' :: rest | '0' :: 'O' :: rest => (numeral 8 rest).map fun n : ℕ => (n : ℤ)
  | '0' :: 'b' :: rest | '0' :: 'B' :: rest => (numeral 2 rest).map fun n : ℕ => (n : ℤ)
  | rest => (decimalNumeral rest).map fun n : ℕ => (n : ℤ)

/-- `x.toString()` of a `bigint`. -/
def bigIntText (x : ℤ) : String :=
  String.ofList (if x < 0 then '-' :: Nat.toDigits 10 x.natAbs else Nat.toDigits 10 x.natAbs)

/-- The text of a number is the one that Lean writes. -/
theorem bigIntText_eq (x : ℤ) : bigIntText x = toString x := by
  cases x with
  | ofNat n => rfl
  | negSucc n =>
    have hneg : Int.negSucc n < 0 := Int.negSucc_lt_zero n
    rw [bigIntText, if_pos hneg]
    show String.ofList ('-' :: Nat.toDigits 10 (n + 1)) =
      "-" ++ String.ofList (Nat.toDigits 10 (n + 1))
    rw [← String.toList_inj]
    simp

/-! ### Reading -/

theorem isDigit_toDigits {c : Char} (hc : c ∈ Nat.toDigits 10 n) : c.isDigit = true :=
  Nat.isDigit_of_mem_toDigits (by decide) (by decide) hc

theorem decimalNumeral_of_digits (hne : digits ≠ []) (h : ∀ c ∈ digits, c.isDigit = true) :
    decimalNumeral digits = some (decimal digits) := if_pos ⟨hne, List.all_eq_true.mpr h⟩

theorem not_isSpace_of_isDigit {c : Char} (hc : c.isDigit = true) : isSpace c = false := by
  have hlow : 48 ≤ c.val.toNat ∧ c.val.toNat ≤ 57 := by
    simp only [Char.isDigit, Bool.and_eq_true, decide_eq_true_eq] at hc
    exact hc
  have hne (v : UInt32) (hv : v.toNat < 48 ∨ 57 < v.toNat) : c.val ≠ v := by
    rintro rfl
    omega
  simp only [isSpace, List.mem_cons, List.not_mem_nil, or_false, Bool.or_eq_false_iff,
    decide_eq_false_iff_not, not_or, Bool.and_eq_false_iff, UInt32.le_iff_toNat_le]
  refine ⟨?_, Or.inl ?_⟩
  · refine ⟨?_, ?_, ?_, ?_, ?_, ?_, ?_, ?_, ?_, ?_, ?_, ?_, ?_, ?_⟩ <;> exact hne _ (by decide)
  · have : (0x2000 : UInt32).toNat = 8192 := rfl
    omega

/-- A text that begins and ends without a blank is its own trimmed text. -/
theorem trim_ofList {text : List Char} (h : ∀ c ∈ text, isSpace c = false) :
    trim (String.ofList text) = String.ofList text := by
  have hdrop {l : List Char} (hl : ∀ c ∈ l, isSpace c = false) : l.dropWhile isSpace = l := by
    cases l with
    | nil => rfl
    | cons c l =>
      rw [List.dropWhile_cons_of_neg]
      rw [hl c List.mem_cons_self]
      exact Bool.false_ne_true
  rw [trim, String.toList_ofList, hdrop h, hdrop, List.reverse_reverse]
  intro c hc
  exact h c (List.mem_reverse.mp hc)

/-- Reading an optional sign and digits. -/
theorem toBigInt_digits (hne : digits ≠ []) (h : ∀ c ∈ digits, c.isDigit = true) :
    toBigInt (String.ofList digits) = some (decimal digits : ℤ) := by
  have hletter {c : Char} (hc : c ∈ digits) (hnot : c.isDigit = false) : False := by
    rw [h c hc] at hnot
    cases hnot
  rw [toBigInt, trim_ofList fun c hc => not_isSpace_of_isDigit (h c hc), String.toList_ofList]
  split
  · exact absurd rfl hne
  · exact (hletter (c := '+') (by simp) rfl).elim
  · exact (hletter (c := '-') (by simp) rfl).elim
  · exact (hletter (c := 'x') (by simp) rfl).elim
  · exact (hletter (c := 'X') (by simp) rfl).elim
  · exact (hletter (c := 'o') (by simp) rfl).elim
  · exact (hletter (c := 'O') (by simp) rfl).elim
  · exact (hletter (c := 'b') (by simp) rfl).elim
  · exact (hletter (c := 'B') (by simp) rfl).elim
  · rw [decimalNumeral_of_digits hne h, Option.map_some]

/-- A sign in front of digits. -/
theorem toBigInt_neg_digits (hne : digits ≠ []) (h : ∀ c ∈ digits, c.isDigit = true) :
    toBigInt (String.ofList ('-' :: digits)) = some (-(decimal digits : ℤ)) := by
  rw [toBigInt, trim_ofList, String.toList_ofList]
  · show (decimalNumeral digits).map _ = _
    rw [decimalNumeral_of_digits hne h, Option.map_some]
  · intro c hc
    rcases List.mem_cons.mp hc with rfl | hc
    · rfl
    · exact not_isSpace_of_isDigit (h c hc)

/-- **Reading the decimal text of an integer gives it back.** -/
theorem toBigInt_bigIntText (x : ℤ) : toBigInt (bigIntText x) = some x := by
  have hdigits : ∀ c ∈ Nat.toDigits 10 x.natAbs, c.isDigit = true := fun c => isDigit_toDigits
  rw [bigIntText]
  split_ifs with hx
  · rw [toBigInt_neg_digits Nat.toDigits_ne_nil hdigits, decimal_toDigits]
    congr 1
    omega
  · rw [toBigInt_digits Nat.toDigits_ne_nil hdigits, decimal_toDigits]
    congr 1
    omega

theorem bigIntText_injective {x y : ℤ} (h : bigIntText x = bigIntText y) : x = y := by
  have hread := congrArg toBigInt h
  rw [toBigInt_bigIntText, toBigInt_bigIntText] at hread
  exact Option.some.inj hread

end StellarForge.Text
