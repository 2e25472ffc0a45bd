import StellarForge.Collections.Numerals
import StellarForge.Encoding.Double

/-!
# Decimal literals

The literals that `Number` and `parseFloat` read.  They differ in what may follow the digits, which
`literal` leaves to a function that reads the exponent.

* `literal_digits`: a text that begins with digits;
* `literal_eq_nan`: and one that does not.
-/

namespace StellarForge.Encoding.Decimal

open Text

/-- The exponent part of a literal; `read` reads its digits. -/
def exponentPart (read : List Char → Option ℕ) : List Char → Option ℤ
  | [] => some 0
  | c :: rest =>
    if c = 'e' ∨ c = 'E' then
      match rest with
      | '+' :: digits => (read digits).map fun n : ℕ => (n : ℤ)
      | '-' :: digits => (read digits).map fun n : ℕ => -(n : ℤ)
      | digits => (read digits).map fun n : ℕ => (n : ℤ)
    else none

/-- A literal without its sign, rounded to a double: digits, a point and digits, and what `exponent` reads
behind them. -/
def literal (negative : Bool) (exponent : List Char → Option ℤ) (s : List Char) : Number :=
  let whole := s.takeWhile Char.isDigit
  let (frac, rest) := match s.dropWhile Char.isDigit with
    | '.' :: rest => (rest.takeWhile Char.isDigit, rest.dropWhile Char.isDigit)
    | rest => ([], rest)
  if whole ++ frac = [] then .nan
  else
    match exponent rest with
    | none => .nan
    | some e =>
      let q : ℚ := decimal (whole ++ frac) * 10 ^ (e - frac.length)
      .ofRat (if negative then -q else q)

variable {negative : Bool} {exponent : List Char → Option ℤ} {digits rest : List Char} {e : ℤ}

/-- The text is cut at the first character that is not a digit. -/
theorem literal_digits (hne : digits ≠ []) (hdigits : ∀ c ∈ digits, c.isDigit = true)
    (hrest : ∀ c ∈ rest.head?, c.isDigit = false ∧ c ≠ '.') (he : exponent rest = some e) :
    literal negative exponent (digits ++ rest) =
      let q : ℚ := decimal digits * 10 ^ e
      .ofRat (if negative then -q else q) := by
  -- what follows begins with no digit, so that the digits are those of the literal
  have htake : (digits ++ rest).takeWhile Char.isDigit = digits := by
    rw [List.takeWhile_append_of_pos hdigits]
    cases rest with
    | nil => rw [List.takeWhile_nil, List.append_nil]
    | cons c rest =>
      rw [List.takeWhile_cons_of_neg (by rw [(hrest c rfl).1]; decide), List.append_nil]
  have hdrop : (digits ++ rest).dropWhile Char.isDigit = rest := by
    rw [List.dropWhile_append_of_pos hdigits]
    cases rest with
    | nil => rfl
    | cons c rest => exact List.dropWhile_cons_of_neg (by rw [(hrest c rfl).1]; decide)
  unfold literal
  rw [htake, hdrop]
  dsimp only
  split
  · exact absurd rfl (hrest '.' rfl).2
  · rw [List.append_nil, if_neg hne, he, List.length_nil, Nat.cast_zero]
    dsimp only
    rw [sub_zero]

/-- Neither a digit nor a point is at the head of the text. -/
theorem literal_eq_nan (h : ∀ c ∈ rest.head?, c.isDigit = false ∧ c ≠ '.') :
    literal negative exponent rest = .nan := by
  cases rest with
  | nil => rfl
  | cons c rest =>
    obtain ⟨hdigit, hdot⟩ := h c rfl
    have hneg : ¬ c.isDigit = true := by rw [hdigit]; decide
    unfold literal
    rw [List.takeWhile_cons_of_neg hneg, List.dropWhile_cons_of_neg hneg]
    dsimp only
    split
    · next hcons => exact absurd (List.cons.inj hcons).1 hdot
    · rfl

end StellarForge.Encoding.Decimal
