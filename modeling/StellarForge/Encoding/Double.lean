import Mathlib.Data.Rat.Floor
import Mathlib.Tactic.Common

/-!
# Numbers of JavaScript

A number is a double: a rational, an infinity or `NaN`.  `Number.ofRat` rounds to the nearest double, and
to the one with an even significand of two.  The two zeros are not told apart.
-/

namespace StellarForge.Encoding

/-- A number of JavaScript, with its finite values as rationals. -/
inductive Number
  | nan
  | infinite (negative : Bool)
  | finite (q : ℚ)
  deriving DecidableEq, Repr

/-! ### Rounding -/

/-- The nearest integer, and the even one of two. -/
def roundHalfEven (q : ℚ) : ℤ :=
  let rest := q - ⌊q⌋
  if rest < 1 / 2 ∨ rest = 1 / 2 ∧ ⌊q⌋ % 2 = 0 then ⌊q⌋ else ⌊q⌋ + 1

/-- The exponent of the greatest power of two that is at most `q`, for `q` above zero. -/
def binaryExponent (q : ℚ) : ℤ :=
  let e : ℤ := Nat.log2 q.num.natAbs - Nat.log2 q.den
  if (2 : ℚ) ^ e ≤ q then e else e - 1

namespace Number

/-- The nearest double: a significand of 53 bits, and an exponent from -1022 to 1023. -/
def ofRat (q : ℚ) : Number :=
  if q = 0 then finite 0
  else
    let unit : ℚ := 2 ^ (max (binaryExponent |q|) (-1022) - 52)
    let rounded := roundHalfEven (q / unit) * unit
    if 2 ^ 1024 ≤ |rounded| then infinite (decide (q < 0)) else finite rounded

/-- `x < y` -/
def lt : Number → Number → Bool
  | finite x, finite y => decide (x < y)
  | finite _, infinite negative => !negative
  | infinite negative, finite _ => negative
  | infinite negative, infinite negative' => negative && !negative'
  | _, _ => false

/-- `x <= y` -/
def le : Number → Number → Bool
  | finite x, finite y => decide (x ≤ y)
  | finite _, infinite negative => !negative
  | infinite negative, finite _ => negative
  | infinite negative, infinite negative' => negative || !negative'
  | _, _ => false

/-- `Number.isFinite(x)` -/
def isFinite : Number → Bool
  | finite _ => true
  | _ => false

/-- `x * y` -/
def mul : Number → Number → Number
  | finite x, finite y => ofRat (x * y)
  | finite x, infinite negative => if x = 0 then nan else infinite (decide (x < 0) ^^ negative)
  | infinite negative, finite y => if y = 0 then nan else infinite (negative ^^ decide (y < 0))
  | infinite negative, infinite negative' => infinite (negative ^^ negative')
  | _, _ => nan

end Number

/-! ### Texts -/

/-- The fewest digits that are read back as `n`, and how many zeros follow them; of two numerals of one
length the nearer one. -/
def shortestDigits (n : ℕ) : ℕ × ℕ :=
  let readBack (zeros : ℕ) : Option (ℕ × ℕ) :=
    let lower := n / 10 ^ zeros
    let nearest :=
      if 2 * (n % 10 ^ zeros) ≤ 10 ^ zeros then [lower, lower + 1] else [lower + 1, lower]
    (nearest.find? fun s : ℕ => Number.ofRat (s * 10 ^ zeros : ℕ) = .finite n).map (·, zeros)
  ((List.range (Nat.toDigits 10 n).length).reverse.findSome? readBack).getD (n, 0)

/-- `String(n)` of a double from `10 ^ 21` on, which is an integer: one digit, the others after a point,
and the exponent. -/
def exponentialText (n : ℕ) : String :=
  let (s, zeros) := shortestDigits n
  let digits := Nat.toDigits 10 s
  let exponent := toString (zeros + digits.length - 1)
  match (digits.reverse.dropWhile (· = '0')).reverse with
  | [] => "0"
  | [digit] => String.singleton digit ++ "e+" ++ exponent
  | digit :: rest => String.singleton digit ++ "." ++ String.ofList rest ++ "e+" ++ exponent

/-- `x.toFixed(1)`: the nearest tenth to the double itself, and the greater one of two. -/
def Number.toFixed1 : Number → String
  | nan => "NaN"
  | infinite negative => if negative then "-Infinity" else "Infinity"
  | finite q =>
    let tenths := ⌊|q| * 10 + 1 / 2⌋.toNat
    (if q < 0 then "-" else "") ++
      if 10 ^ 21 ≤ |q| then exponentialText ⌊|q|⌋.toNat
      else toString (tenths / 10) ++ "." ++ toString (tenths % 10)

-- 23 of 80, as a percentage, is a little less than 28.75
example : (Number.mul (.ofRat (23 / 80)) (.ofRat 100)).toFixed1 = "28.7" := by decide +kernel

example : (Number.ofRat (-12 * 10 ^ 22)).toFixed1 = "-1.2e+23" := by decide +kernel

/-! ### Signs -/

variable {q : ℚ}

theorem roundHalfEven_nonpos (h : q < 0) : roundHalfEven q ≤ 0 := by
  have hfloor : ⌊q⌋ < 0 := Int.floor_lt.mpr (by rwa [Int.cast_zero])
  unfold roundHalfEven
  dsimp only
  split_ifs <;> omega

/-- A number that rounds to one above zero is above zero. -/
theorem Number.pos_of_lt_ofRat (h : (finite 0).lt (ofRat q) = true) : 0 < q := by
  by_contra hneg
  rcases (not_lt.mp hneg).eq_or_lt with rfl | hlt
  · rw [ofRat, if_pos rfl] at h
    exact absurd h (by decide)
  · rw [ofRat, if_neg hlt.ne] at h
    dsimp only at h
    set unit : ℚ := 2 ^ (max (binaryExponent |q|) (-1022) - 52) with hunit
    have hpos : 0 < unit := zpow_pos (by norm_num) _
    have hround : (roundHalfEven (q / unit) : ℚ) * unit ≤ 0 := by
      have hle : (roundHalfEven (q / unit) : ℚ) ≤ 0 := by
        exact_mod_cast roundHalfEven_nonpos (div_neg_of_neg_of_pos hlt hpos)
      exact mul_nonpos_of_nonpos_of_nonneg hle hpos.le
    split_ifs at h
    · rw [lt, decide_eq_true hlt] at h
      exact absurd h (by decide)
    · rw [lt, decide_eq_true_eq] at h
      exact absurd h (not_lt.mpr hround)

example : Number.ofRat (2 ^ 53 + 1) = .finite (2 ^ 53) := by decide +kernel

end StellarForge.Encoding
