import Mathlib.Data.List.Infix

/-!
# Text as a list of characters

The string functions that the modelled TypeScript uses: `includes`, `toLowerCase`, and the two
steps of matching a pattern by hand, `afterPrefix` and `firstMatch`.
-/

namespace StellarForge.Text

/-- `text.includes(pattern)`. -/
def includes (text pattern : String) : Bool :=
  text.toList.tails.any fun rest => pattern.toList.isPrefixOf rest

/-- `toLowerCase` of one character.  The Kelvin sign is the only character outside ASCII whose
lower case is an ASCII letter by itself; the others stay outside ASCII, and every pattern that a
lower-cased text is searched for is ASCII. -/
def lowerChar (c : Char) : Char :=
  if c = '\u212a' then 'k' else c.toLower

/-- `text.toLowerCase()`, for a text that is only searched for ASCII patterns. -/
def toLowerCase (text : String) : String :=
  String.ofList (text.toList.map lowerChar)

/-- Whether `text` includes one of the patterns. -/
def includesAny (text : String) (patterns : List String) : Bool :=
  patterns.any (includes text)

/-- `\s` of a regular expression. -/
def isSpace (c : Char) : Bool :=
  c.val ∈ [0x9, 0xA, 0xB, 0xC, 0xD, 0x20, 0xA0, 0x1680, 0x2028, 0x2029, 0x202F, 0x205F, 0x3000,
    0xFEFF] || (0x2000 ≤ c.val && c.val ≤ 0x200A)

/-- `text.trim()` -/
def trim (text : String) : String :=
  String.ofList ((text.toList.dropWhile isSpace).reverse.dropWhile isSpace).reverse

/-- The value of a list of decimal digits. -/
def decimal (digits : List Char) : ℕ :=
  digits.foldl (fun n c => 10 * n + (c.toNat - '0'.toNat)) 0

/-- Reading the digits of a number gives the number back. -/
theorem decimal_toDigits (n : ℕ) : decimal (Nat.toDigits 10 n) = n := by
  show Nat.ofDigitChars 10 (Nat.toDigits 10 n) 0 = n
  rw [Nat.ofDigitChars_ten_toDigits]

theorem toString_nat_inj {n k : ℕ} (h : toString n = toString k) : n = k := by
  have hread (m : ℕ) : decimal (toString m).toList = m := by
    show decimal (Nat.repr m).toList = m
    rw [Nat.toList_repr, decimal_toDigits]
  rw [← hread n, h, hread]

/-- What follows `pattern` at the head of `text`. -/
def afterPrefix (pattern text : List Char) : Option (List Char) :=
  if pattern.isPrefixOf text then some (text.drop pattern.length) else none

/-- The leftmost match: the first suffix of the text on which `p` succeeds. -/
def firstMatch {α : Type*} (p : List Char → Option α) : List Char → Option α
  | [] => p []
  | c :: text => (p (c :: text)).or (firstMatch p text)

section FirstMatch

variable {α : Type*} {p : List Char → Option α}

/-- The match is at the first position where there is one. -/
theorem firstMatch_eq_some {a : α} : ∀ {text : List Char},
    firstMatch p text = some a ↔
      ∃ i, p (text.drop i) = some a ∧ ∀ j < i, p (text.drop j) = none
  | [] => by
    simp only [firstMatch, List.drop_nil]
    constructor
    · intro h
      exact ⟨0, h, fun j hj => absurd hj j.not_lt_zero⟩
    · rintro ⟨i, h, -⟩
      exact h
  | c :: text => by
    rw [firstMatch, Option.or_eq_some_iff, firstMatch_eq_some]
    constructor
    · -- a match at the front, or one further on with none before it
      rintro (h | ⟨hnone, i, h, hbefore⟩)
      · exact ⟨0, h, fun j hj => absurd hj j.not_lt_zero⟩
      · refine ⟨i + 1, h, ?_⟩
        rintro (_ | j) hj
        · exact hnone
        · exact hbefore j (by omega)
    · rintro ⟨_ | i, h, hbefore⟩
      · exact Or.inl h
      · exact Or.inr ⟨hbefore 0 i.succ_pos, i, h, fun j hj => hbefore (j + 1) (by omega)⟩

theorem firstMatch_eq_none {text : List Char} (h : ∀ rest, rest <:+ text → p rest = none) :
    firstMatch p text = none := by
  induction text with
  | nil => exact h [] List.suffix_rfl
  | cons c text ih =>
    rw [firstMatch, h _ List.suffix_rfl, Option.none_or]
    exact ih fun rest hrest => h rest (hrest.trans (List.suffix_cons c text))

end FirstMatch

/-! ### Literals

A string literal is `String.ofList` of its characters by definition, but evaluating `toList` of one
is slow. -/

/-- A pattern occurs in a text. -/
def occurs (pattern text : List Char) : Bool := text.tails.any fun rest => pattern.isPrefixOf rest

theorem includes_eq_occurs {text pattern : String} :
    includes text pattern = occurs pattern.toList text.toList := rfl

theorem not_isPrefixOf_of_occurs {pattern text rest : List Char} (h : occurs pattern text = false)
    (hrest : rest <:+ text) : pattern.isPrefixOf rest = false := by
  rw [occurs, List.any_eq_false] at h
  exact eq_false_of_ne_true (h rest ((List.mem_tails _ _).mpr hrest))

theorem includes_toLowerCase {text pattern : String} :
    includes (toLowerCase text) pattern = occurs pattern.toList (text.toList.map lowerChar) := by
  rw [includes_eq_occurs, toLowerCase, String.toList_ofList]

/-- No occurrence of the pattern begins in the text, whatever follows it. -/
def apart (pattern text : List Char) : Bool :=
  text.tails.all fun rest => rest.isEmpty || !(pattern.isPrefixOf rest || rest.isPrefixOf pattern)

/-- Such a pattern has to occur in what follows. -/
theorem occurs_append_of_apart {pattern text more : List Char} (h : apart pattern text = true)
    {c : Char} (hc : c ∈ pattern) (hmore : c ∉ more) : occurs pattern (text ++ more) = false := by
  rw [occurs, List.any_eq_false]
  intro rest hrest hbegin
  have hbegin : pattern <+: rest := List.isPrefixOf_iff_prefix.mp hbegin
  obtain ⟨front, hfront⟩ := (List.mem_tails _ _).mp hrest
  rcases List.append_eq_append_iff.mp hfront with ⟨start, htext, rfl⟩ | ⟨gap, -, hgap⟩
  · rcases eq_or_ne start [] with rfl | hne
    · exact hmore (hbegin.subset hc)
    · have hstart : start ∈ text.tails := (List.mem_tails _ _).mpr ⟨front, htext.symm⟩
      have hclear := List.all_eq_true.mp h start hstart
      rw [Bool.or_eq_true, List.isEmpty_iff, Bool.not_eq_true', Bool.or_eq_false_iff] at hclear
      obtain ⟨hpattern, hrest⟩ := hclear.resolve_left hne
      rcases List.prefix_or_prefix_of_prefix hbegin (List.prefix_append start more) with h' | h'
      · rw [List.isPrefixOf_iff_prefix.mpr h'] at hpattern
        cases hpattern
      · rw [List.isPrefixOf_iff_prefix.mpr h'] at hrest
        cases hrest
  · -- the occurrence begins after the text
    refine hmore ?_
    rw [hgap]
    exact List.mem_append_right _ (hbegin.subset hc)

theorem map_toList_cons {s : List Char} {l : List String} {cs : List (List Char)}
    (h : l.map String.toList = cs) : (String.ofList s :: l).map String.toList = s :: cs := by
  rw [List.map_cons, String.toList_ofList, h]

end StellarForge.Text
