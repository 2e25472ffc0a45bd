import Mathlib.Data.List.Basic
import Mathlib.Order.Basic

/-!
# Strings as code units

A string of JavaScript is a list of UTF-16 code units, which may hold surrogates without their other
half.  `units` are the code units of a text, and `decode` are the characters of a list of units.

* `flatMap_charUnits_decode`: **the characters of a string without unpaired surrogates have its units**;
* `decode_flatMap_append`: the units of a text are read as its characters;
* `exists_of_decode_append`: what has been read has those units, unless it was replaced.
-/

namespace StellarForge.Encoding

/-- A code unit of UTF-16. -/
abbrev CodeUnit := UInt16

/-- The code units of a character. -/
def charUnits (c : Char) : List CodeUnit :=
  if c.val < 0x10000 then [c.val.toUInt16]
  else [(0xd800 : UInt16) + ((c.val - 0x10000) >>> 10).toUInt16,
    (0xdc00 : UInt16) + ((c.val - 0x10000) &&& 0x3ff).toUInt16]

/-- The code units of a text. -/
def units (text : String) : List CodeUnit := text.toList.flatMap charUnits

/-- The first half of a pair. -/
def isHighSurrogate (u : CodeUnit) : Bool := 0xd800 ≤ u && u ≤ 0xdbff

/-- The second half of a pair. -/
def isLowSurrogate (u : CodeUnit) : Bool := 0xdc00 ≤ u && u ≤ 0xdfff

/-- The character of a unit that is not one half of a pair; a surrogate is replaced. -/
def unitChar (u : CodeUnit) : Char :=
  if isHighSurrogate u || isLowSurrogate u then '\ufffd' else Char.ofNat u.toNat

/-- The character of a pair. -/
def pairChar (high low : CodeUnit) : Char :=
  Char.ofNat (0x10000 + (high.toNat - 0xd800) * 0x400 + (low.toNat - 0xdc00))

/-- The characters, with U+FFFD for every surrogate without its other half. -/
def decode : List CodeUnit → List Char
  | [] => []
  | [u] => [unitChar u]
  | u :: v :: rest =>
    if isHighSurrogate u && isLowSurrogate v then pairChar u v :: decode rest
    else unitChar u :: decode (v :: rest)

/-- `new TextEncoder().encode(text)` -/
def encodeUtf8 (text : List CodeUnit) : List UInt8 := (decode text).flatMap String.utf8EncodeChar

/-- A surrogate occurs without its other half. -/
def hasUnpairedSurrogate : List CodeUnit → Bool
  | [] => false
  | [u] => isHighSurrogate u || isLowSurrogate u
  | u :: v :: rest =>
    if isHighSurrogate u then if isLowSurrogate v then hasUnpairedSurrogate rest else true
    else if isLowSurrogate u then true
    else hasUnpairedSurrogate (v :: rest)

/-! ### There and back -/

variable {u v : CodeUnit} {s t : List CodeUnit}

theorem isHighSurrogate_iff : isHighSurrogate u = true ↔ 0xd800 ≤ u.toNat ∧ u.toNat ≤ 0xdbff := by
  rw [isHighSurrogate, Bool.and_eq_true, decide_eq_true_eq, decide_eq_true_eq,
    UInt16.le_iff_toNat_le, UInt16.le_iff_toNat_le]
  rfl

theorem isLowSurrogate_iff : isLowSurrogate u = true ↔ 0xdc00 ≤ u.toNat ∧ u.toNat ≤ 0xdfff := by
  rw [isLowSurrogate, Bool.and_eq_true, decide_eq_true_eq, decide_eq_true_eq,
    UInt16.le_iff_toNat_le, UInt16.le_iff_toNat_le]
  rfl

/-- A valid code point is that of its character. -/
theorem toNat_ofNat {n : ℕ} (h : n.isValidChar) : (Char.ofNat n).val.toNat = n := by
  unfold Char.ofNat
  rw [dif_pos h]
  rfl

/-- The code point of a unit that is no surrogate. -/
theorem toNat_unitChar (hhigh : isHighSurrogate u = false) (hlow : isLowSurrogate u = false) :
    (unitChar u).val.toNat = u.toNat := by
  have hu : u.toNat < 65536 := u.toNat_lt
  rw [unitChar, hhigh, hlow, if_neg (by decide)]
  rw [← Bool.not_eq_true, isHighSurrogate_iff] at hhigh
  rw [← Bool.not_eq_true, isLowSurrogate_iff] at hlow
  apply toNat_ofNat
  unfold Nat.isValidChar
  omega

/-- The code point of a pair is beyond those of one unit. -/
theorem toNat_pairChar (hhigh : isHighSurrogate u = true) (hlow : isLowSurrogate v = true) :
    (pairChar u v).val.toNat = 0x10000 + (u.toNat - 0xd800) * 0x400 + (v.toNat - 0xdc00) := by
  rw [isHighSurrogate_iff] at hhigh
  rw [isLowSurrogate_iff] at hlow
  apply toNat_ofNat
  unfold Nat.isValidChar
  omega

/-- The character of a unit has that unit. -/
theorem charUnits_unitChar (hhigh : isHighSurrogate u = false) (hlow : isLowSurrogate u = false) :
    charUnits (unitChar u) = [u] := by
  have hu : u.toNat < 65536 := u.toNat_lt
  have hval := toNat_unitChar hhigh hlow
  rw [charUnits, if_pos]
  · congr 1
    rw [← UInt16.toNat_inj, UInt32.toNat_toUInt16, hval, Nat.mod_eq_of_lt hu]
  · rw [UInt32.lt_iff_toNat_lt, hval]
    exact hu

/-- The character of a pair has its two units. -/
theorem charUnits_pairChar (hhigh : isHighSurrogate u = true) (hlow : isLowSurrogate v = true) :
    charUnits (pairChar u v) = [u, v] := by
  have hval := toNat_pairChar hhigh hlow
  rw [isHighSurrogate_iff] at hhigh
  rw [isLowSurrogate_iff] at hlow
  set n := 0x10000 + (u.toNat - 0xd800) * 0x400 + (v.toNat - 0xdc00) with hn
  have hbase : (0x10000 : UInt32).toNat = 0x10000 := rfl
  have hsub : ((pairChar u v).val - 0x10000).toNat = n - 0x10000 := by
    rw [UInt32.toNat_sub_of_le, hval, hbase]
    rw [UInt32.le_iff_toNat_le, hval, hbase]
    omega
  have hhighUnit : (0xd800 : UInt16) + (((pairChar u v).val - 0x10000) >>> 10).toUInt16 = u := by
    have hbase : (0xd800 : UInt16).toNat = 0xd800 := rfl
    have hshift : (10 : UInt32).toNat % 32 = 10 := rfl
    rw [← UInt16.toNat_inj, UInt16.toNat_add, UInt32.toNat_toUInt16, UInt32.toNat_shiftRight, hsub,
      hbase, hshift, Nat.shiftRight_eq_div_pow]
    omega
  have hlowUnit :
      (0xdc00 : UInt16) + (((pairChar u v).val - 0x10000) &&& 0x3ff).toUInt16 = v := by
    have hbase : (0xdc00 : UInt16).toNat = 0xdc00 := rfl
    have hmask : (0x3ff : UInt32).toNat = 2 ^ 10 - 1 := rfl
    rw [← UInt16.toNat_inj, UInt16.toNat_add, UInt32.toNat_toUInt16, UInt32.toNat_and, hsub, hbase,
      hmask, Nat.and_two_pow_sub_one_eq_mod]
    omega
  have hlarge : ¬ (pairChar u v).val < 0x10000 := by
    rw [UInt32.lt_iff_toNat_lt, hval, hbase]
    omega
  rw [charUnits, if_neg hlarge, hhighUnit, hlowUnit]

/-- **A text without unpaired surrogates is the units of its characters.** -/
theorem flatMap_charUnits_decode (h : hasUnpairedSurrogate s = false) :
    (decode s).flatMap charUnits = s := by
  fun_induction decode s with
  | case1 => rfl
  | case2 u =>
    rw [hasUnpairedSurrogate, Bool.or_eq_false_iff] at h
    rw [List.flatMap_singleton, charUnits_unitChar h.1 h.2]
  | case3 u v rest hpair ih =>
    rw [Bool.and_eq_true] at hpair
    rw [hasUnpairedSurrogate, if_pos hpair.1, if_pos hpair.2] at h
    rw [List.flatMap_cons, charUnits_pairChar hpair.1 hpair.2, ih h]
    rfl
  | case4 u v rest hpair ih =>
    rw [hasUnpairedSurrogate] at h
    split_ifs at h with hhigh hlow hlow
    · exact absurd (Bool.and_eq_true _ _ ▸ ⟨hhigh, hlow⟩) hpair
    · rw [List.flatMap_cons, ih h, charUnits_unitChar (Bool.not_eq_true _ ▸ hhigh)
        (Bool.not_eq_true _ ▸ hlow)]
      rfl

/-- A unit that does not begin a pair is read by itself. -/
theorem decode_cons (h : ∀ v ∈ s.head?, (isHighSurrogate u && isLowSurrogate v) = false) :
    decode (u :: s) = unitChar u :: decode s := by
  cases s with
  | nil => rfl
  | cons v s =>
    have hpair := h v rfl
    rw [decode, if_neg (by rw [hpair]; exact Bool.false_ne_true)]

theorem decode_pair (hhigh : isHighSurrogate u = true) (hlow : isLowSurrogate v = true) :
    decode (u :: v :: s) = pairChar u v :: decode s := by
  have hpair : (isHighSurrogate u && isLowSurrogate v) = true := by
    rw [hhigh, hlow]
    rfl
  rw [decode, if_pos hpair]

theorem decode_eq_nil (h : decode s = []) : s = [] := by
  fun_cases decode s with
  | case1 => rfl
  | case2 u => cases h
  | case3 u v rest hpair =>
    rw [decode, if_pos hpair] at h
    cases h
  | case4 u v rest hpair =>
    rw [decode, if_neg hpair] at h
    cases h

/-- The units of a character are read as that character, whatever follows them. -/
theorem decode_charUnits_append (c : Char) : decode (charUnits c ++ s) = c :: decode s := by
  have hvalid : c.val.toNat < 0xd800 ∨ 0xdfff < c.val.toNat ∧ c.val.toNat < 0x110000 := c.valid
  have hbase : (0x10000 : UInt32).toNat = 0x10000 := rfl
  unfold charUnits
  split_ifs with hsmall
  · -- one unit, which is no surrogate since the character is none
    rw [UInt32.lt_iff_toNat_lt, hbase] at hsmall
    have hunit : c.val.toUInt16.toNat = c.val.toNat := by
      rw [UInt32.toNat_toUInt16, Nat.mod_eq_of_lt hsmall]
    have hhigh : isHighSurrogate c.val.toUInt16 = false := by
      rw [← Bool.not_eq_true, isHighSurrogate_iff, hunit]
      omega
    have hlow : isLowSurrogate c.val.toUInt16 = false := by
      rw [← Bool.not_eq_true, isLowSurrogate_iff, hunit]
      omega
    rw [List.singleton_append, decode_cons fun v _ => by rw [hhigh, Bool.false_and], unitChar, hhigh,
      hlow, if_neg (by decide), hunit]
    exact congrArg (· :: decode s) (Char.ofNat_toNat c)
  · -- two units: ten bits of the code point each
    rw [UInt32.lt_iff_toNat_lt, hbase] at hsmall
    have hsub : (c.val - 0x10000).toNat = c.val.toNat - 0x10000 := by
      rw [UInt32.toNat_sub_of_le, hbase]
      rw [UInt32.le_iff_toNat_le, hbase]
      omega
    have hhigh : ((0xd800 : UInt16) + ((c.val - 0x10000) >>> 10).toUInt16).toNat =
        0xd800 + (c.val.toNat - 0x10000) / 0x400 := by
      have hbase : (0xd800 : UInt16).toNat = 0xd800 := rfl
      have hshift : (10 : UInt32).toNat % 32 = 10 := rfl
      rw [UInt16.toNat_add, UInt32.toNat_toUInt16, UInt32.toNat_shiftRight, hsub, hbase, hshift,
        Nat.shiftRight_eq_div_pow]
      omega
    have hlow : ((0xdc00 : UInt16) + ((c.val - 0x10000) &&& 0x3ff).toUInt16).toNat =
        0xdc00 + (c.val.toNat - 0x10000) % 0x400 := by
      have hbase : (0xdc00 : UInt16).toNat = 0xdc00 := rfl
      have hmask : (0x3ff : UInt32).toNat = 2 ^ 10 - 1 := rfl
      rw [UInt16.toNat_add, UInt32.toNat_toUInt16, UInt32.toNat_and, hsub, hbase, hmask,
        Nat.and_two_pow_sub_one_eq_mod]
      omega
    rw [List.cons_append, List.singleton_append, decode_pair]
    · rw [pairChar, hhigh, hlow]
      have hvalue : 0x10000 + (0xd800 + (c.val.toNat - 0x10000) / 0x400 - 0xd800) * 0x400 +
          (0xdc00 + (c.val.toNat - 0x10000) % 0x400 - 0xdc00) = c.val.toNat := by
        omega
      rw [hvalue]
      exact congrArg (· :: decode s) (Char.ofNat_toNat c)
    · rw [isHighSurrogate_iff, hhigh]
      omega
    · rw [isLowSurrogate_iff, hlow]
      omega

/-- **The units of a text are read as its characters.** -/
theorem decode_flatMap_append (chars : List Char) :
    decode (chars.flatMap charUnits ++ s) = chars ++ decode s := by
  induction chars with
  | nil => rfl
  | cons c chars ih =>
    rw [List.flatMap_cons, List.append_assoc, decode_charUnits_append, ih, List.cons_append]

theorem decode_units (text : String) : decode (units text) = text.toList := by
  have h := decode_flatMap_append (s := []) text.toList
  rwa [List.append_nil, show decode [] = [] from rfl, List.append_nil] at h

/-- A character that stands for no lost surrogate has been read from its own units. -/
theorem exists_of_decode_cons {c : Char} {chars : List Char} (hc : c ≠ '\ufffd')
    (h : decode s = c :: chars) : ∃ rest, s = charUnits c ++ rest ∧ decode rest = chars := by
  have hplain {u : CodeUnit} (hu : unitChar u = c) : charUnits c = [u] := by
    rw [← hu]
    rw [← hu, unitChar] at hc
    split_ifs at hc with hsurrogate
    · exact absurd rfl hc
    · rw [Bool.not_eq_true, Bool.or_eq_false_iff] at hsurrogate
      exact charUnits_unitChar hsurrogate.1 hsurrogate.2
  fun_cases decode s with
  | case1 => cases h
  | case2 u =>
    obtain ⟨hhead, rfl⟩ := List.cons.inj h
    exact ⟨[], by rw [hplain hhead]; rfl, rfl⟩
  | case3 u v rest hpair =>
    rw [Bool.and_eq_true] at hpair
    rw [decode_pair hpair.1 hpair.2] at h
    obtain ⟨rfl, htail⟩ := List.cons.inj h
    exact ⟨rest, by rw [charUnits_pairChar hpair.1 hpair.2]; rfl, htail⟩
  | case4 u v rest hpair =>
    rw [decode, if_neg hpair] at h
    obtain ⟨hhead, htail⟩ := List.cons.inj h
    exact ⟨v :: rest, by rw [hplain hhead]; rfl, htail⟩

/-- The same of a text at the head of what has been read. -/
theorem exists_of_decode_append {chars more : List Char} (hchars : '\ufffd' ∉ chars)
    (h : decode s = chars ++ more) :
    ∃ rest, s = chars.flatMap charUnits ++ rest ∧ decode rest = more := by
  induction chars generalizing s with
  | nil => exact ⟨s, rfl, h⟩
  | cons c chars ih =>
    rw [List.mem_cons, not_or] at hchars
    obtain ⟨rest, rfl, hrest⟩ := exists_of_decode_cons (Ne.symm hchars.1) h
    obtain ⟨rest, rfl, hmore⟩ := ih hchars.2 hrest
    exact ⟨rest, by rw [List.flatMap_cons, List.append_assoc], hmore⟩

/-- Two texts without unpaired surrogates make one. -/
theorem hasUnpairedSurrogate_append (hs : hasUnpairedSurrogate s = false)
    (ht : hasUnpairedSurrogate t = false) : hasUnpairedSurrogate (s ++ t) = false := by
  fun_induction hasUnpairedSurrogate s with
  | case1 => exact ht
  | case2 u =>
    rw [Bool.or_eq_false_iff] at hs
    cases t with
    | nil =>
      rw [List.append_nil, hasUnpairedSurrogate, hs.1, hs.2]
      rfl
    | cons v t =>
      rw [List.singleton_append, hasUnpairedSurrogate, hs.1, hs.2]
      exact ht
  | case3 u v rest hhigh hlow ih =>
    rw [List.cons_append, List.cons_append, hasUnpairedSurrogate, if_pos hhigh, if_pos hlow]
    exact ih hs
  | case4 => cases hs
  | case5 => cases hs
  | case6 u v rest hhigh hlow ih =>
    rw [List.cons_append, List.cons_append, hasUnpairedSurrogate, if_neg hhigh, if_neg hlow]
    exact ih hs

/-- A text without surrogates has no unpaired one. -/
theorem hasUnpairedSurrogate_eq_false
    (h : ∀ u ∈ s, isHighSurrogate u = false ∧ isLowSurrogate u = false) :
    hasUnpairedSurrogate s = false := by
  induction s with
  | nil => rfl
  | cons u s ih =>
    have hu := h u List.mem_cons_self
    have hhead : hasUnpairedSurrogate [u] = false := by
      rw [hasUnpairedSurrogate, hu.1, hu.2]
      rfl
    exact hasUnpairedSurrogate_append hhead (ih fun v hv => h v (List.mem_cons_of_mem _ hv))

/-! ### Upper case -/

/-- The upper case of one code unit, as far as it is ASCII: the small letters, and the characters outside
of ASCII of which it consists of ASCII letters.  The upper case of any other character outside of ASCII
has a character outside of ASCII, and the unit stands for it. -/
def upperUnit (u : CodeUnit) : List CodeUnit :=
  if 0x61 ≤ u ∧ u ≤ 0x7a then [u - 0x20]
  -- sharp s, dotless i and long s
  else if u = 0xdf then units "SS"
  else if u = 0x131 then units "I"
  else if u = 0x17f then units "S"
  -- the Latin ligatures
  else if u = 0xfb00 then units "FF"
  else if u = 0xfb01 then units "FI"
  else if u = 0xfb02 then units "FL"
  else if u = 0xfb03 then units "FFI"
  else if u = 0xfb04 then units "FFL"
  else if u = 0xfb05 ∨ u = 0xfb06 then units "ST"
  else [u]

/-- `text.toUpperCase()`, for a text of which only the ASCII characters are told apart. -/
def toUpperCase (text : List CodeUnit) : List CodeUnit := text.flatMap upperUnit

end StellarForge.Encoding
