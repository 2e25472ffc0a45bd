import StellarForge.Encoding.Crc16
import StellarForge.Encoding.Radix
import StellarForge.Encoding.Utf16

/-!
# Address validators

`isValidStellarAddress` and `isValidContractAddress` decode a string as base32 and compare the
checksum.  `strKey` is the address of a payload as the network writes it.

* `base32Decode_spec`: the decoder regroups the bits of the letters;
* `crc16_eq`: the unrolled checksum is CRC-16/XMODEM;
* `checkAddress_iff`: what the validators accept;
* `validators_iff`: **the strings about which they agree with the network**;
* `not_validators_lowerCase`: an address in small letters.
-/

namespace StellarForge.Frontend

open Encoding

/-! ### The validators -/

/-- The alphabet of base 32. -/
def ALPHABET : List CodeUnit := units "ABCDEFGHIJKLMNOPQRSTUVWXYZ234567"

/-- `input.toUpperCase().replace(/=+$/, '')` -/
def foldCase (input : List CodeUnit) : List CodeUnit :=
  ((toUpperCase input).reverse.dropWhile (· = 0x3d)).reverse

/-- The variables of the loop of `base32Decode`. -/
structure DecodeState where
  buffer : BitVec 32 := 0
  bitsLeft : ℕ := 0
  next : ℕ := 0
  result : List UInt8

/-- The body of the loop; `none` where it throws.  A write past the end of a typed array has no
effect. -/
def decodeUnit (s : DecodeState) (unit : CodeUnit) : Option DecodeState := do
  let val ← ALPHABET.idxOf? unit
  let buffer := s.buffer <<< 5 ||| BitVec.ofNat 32 val
  let bitsLeft := s.bitsLeft + 5
  if 8 ≤ bitsLeft then
    let byte := (buffer.sshiftRight (bitsLeft - 8) &&& 0xff#32).setWidth 8
    return { buffer, bitsLeft := bitsLeft - 8, next := s.next + 1,
             result := s.result.set s.next (.ofBitVec byte) }
  else return { s with buffer, bitsLeft }

/-- The bytes of a text in base 32. -/
def base32Decode (input : List CodeUnit) : Option (List UInt8) :=
  let upper := foldCase input
  let count := upper.length * 5 / 8
  (upper.foldlM decodeUnit { result := List.replicate count 0 }).map DecodeState.result

/-- The body of the loop of `crc16`. -/
def crcByte (crc : BitVec 32) (byte : UInt8) : BitVec 32 :=
  let code := crc >>> 8 &&& 0xff#32
  let code := code ^^^ byte.toBitVec.setWidth 32
  let code := code ^^^ code >>> 4
  (crc <<< 8 ^^^ code <<< 12 ^^^ code <<< 5 ^^^ code) &&& 0xffff#32

/-- The checksum of some bytes. -/
def crc16 (data : List UInt8) : BitVec 32 := data.foldl crcByte 0

/-- The two validators: a first letter and a version byte. -/
def checkAddress (first : CodeUnit) (version : UInt8) (address : List CodeUnit) : Bool :=
  if address.length ≠ 56 then false
  else if address[0]? ≠ some first then false
  else match base32Decode address with
    | none => false
    | some decoded =>
      if decoded.length ≠ 35 then false
      else if decoded[0]? ≠ some version then false
      else
        let payload := (decoded.take 33).drop 1
        let checksum := (decoded.take 35).drop 33
        let calculatedCrc := crc16 (version :: payload)
        let expectedCrc := (checksum.getD 0 0).toBitVec.setWidth 32 |||
          (checksum.getD 1 0).toBitVec.setWidth 32 <<< 8
        calculatedCrc = expectedCrc

/-- The address of an account. -/
def isValidStellarAddress (address : List CodeUnit) : Bool := checkAddress 0x47 0x30 address

/-- The address of a contract. -/
def isValidContractAddress (address : List CodeUnit) : Bool := checkAddress 0x43 0x10 address

/-! ### The addresses of the network -/

/-- The letter of a base32 digit. -/
def letter (d : ℕ) : CodeUnit := ALPHABET.getD d 0

/-- The bytes that an address encodes: the version, the payload and the checksum, low byte first. -/
def keyBytes (version : UInt8) (payload : List UInt8) : List UInt8 :=
  let checksum := Crc16.xmodem (version :: payload)
  version :: payload ++ [.ofBitVec (checksum.setWidth 8), .ofBitVec ((checksum >>> 8).setWidth 8)]

/-- The letters of 35 bytes. -/
def lettersOf (bytes : List UInt8) : List CodeUnit :=
  (digits 32 56 (value 256 (bytes.map UInt8.toNat))).map letter

/-- The address with a version byte and a payload of 32 bytes. -/
def strKey (version : UInt8) (payload : List UInt8) : List CodeUnit :=
  lettersOf (keyBytes version payload)

/-- The address is the text of 32 bytes, of the version that is asked for. -/
def IsStrKey (version : UInt8) (address : List CodeUnit) : Prop :=
  ∃ payload : List UInt8, payload.length = 32 ∧ address = strKey version payload

/-! ### The checksum -/

theorem crcTable (h : BitVec 8) :
    ((h.setWidth 32 ^^^ h.setWidth 32 >>> 4) <<< 12 ^^^
      (h.setWidth 32 ^^^ h.setWidth 32 >>> 4) <<< 5 ^^^
      (h.setWidth 32 ^^^ h.setWidth 32 >>> 4)).setWidth 16 =
      Crc16.shifts 8 (h.setWidth 16 <<< 8) := by
  revert h
  decide +kernel

theorem getLsbD_ones (w k i : ℕ) :
    (BitVec.ofNat w (2 ^ k - 1)).getLsbD i = (decide (i < w) && decide (i < k)) := by
  rw [BitVec.getLsbD_ofNat, Nat.testBit_two_pow_sub_one]

/-- One round of the unrolled loop is eight shifts. -/
theorem crcByte_eq (crc : BitVec 16) (byte : UInt8) :
    crcByte (crc.setWidth 32) byte = (Crc16.step crc byte).setWidth 32 := by
  have hmask (i : ℕ) : (0xff#32).getLsbD i = (decide (i < 32) && decide (i < 8)) :=
    getLsbD_ones 32 8 i
  have hmask' (i : ℕ) : (0xffff#32).getLsbD i = (decide (i < 32) && decide (i < 16)) :=
    getLsbD_ones 32 16 i
  -- the index into the table: the upper byte of the register against the new one
  have hcode : (crc.setWidth 32 >>> 8 &&& 0xff#32) ^^^ byte.toBitVec.setWidth 32 =
      ((crc >>> 8).setWidth 8 ^^^ byte.toBitVec).setWidth 32 := by
    apply BitVec.eq_of_getLsbD_eq
    intro i hi
    simp only [BitVec.getLsbD_xor, BitVec.getLsbD_and, BitVec.getLsbD_setWidth,
      BitVec.getLsbD_ushiftRight, hmask]
    by_cases h : i < 8
    · have hsum : 8 + i < 32 := by omega
      simp [h, hi, hsum]
    · simp [h, hi]
  -- the same byte, as the register sees it once the new byte is added on the left
  have hupper : ((crc ^^^ byte.toBitVec.setWidth 16 <<< 8) >>> 8).setWidth 8 =
      (crc >>> 8).setWidth 8 ^^^ byte.toBitVec := by
    apply BitVec.eq_of_getLsbD_eq
    intro i hi
    have hsum : 8 + i < 16 := by omega
    have hwidth : i < 16 := by omega
    simp [hi, hsum, hwidth]
  have hlower : (crc ^^^ byte.toBitVec.setWidth 16 <<< 8) <<< 8 = crc <<< 8 := by
    apply BitVec.eq_of_getLsbD_eq
    intro i hi
    have hshort : i - 8 < 8 := by omega
    simp [hi, hshort]
  -- the mask of the source cuts a word of 32 bits back to the 16 of the register
  have hcut (t : BitVec 32) : (crc.setWidth 32 <<< 8 ^^^ t) &&& 0xffff#32 =
      (t.setWidth 16 ^^^ crc <<< 8).setWidth 32 := by
    apply BitVec.eq_of_getLsbD_eq
    intro i hi
    simp only [BitVec.getLsbD_xor, BitVec.getLsbD_and, BitVec.getLsbD_setWidth,
      BitVec.getLsbD_shiftLeft, hmask']
    by_cases h : i < 16
    · have hwidth : i - 8 < 32 := by omega
      simp [h, hi, hwidth, Bool.xor_comm]
    · simp [h, hi]
  rw [Crc16.step, Crc16.shifts_eight, hupper, hlower, ← crcTable, ← hcut, crcByte]
  simp only [hcode, BitVec.xor_assoc]

/-- The unrolled checksum is CRC-16/XMODEM. -/
theorem crc16_eq (data : List UInt8) : crc16 data = (Crc16.xmodem data).setWidth 32 := by
  have hfold (crc : BitVec 16) : data.foldl crcByte (crc.setWidth 32) =
      (data.foldl Crc16.step crc).setWidth 32 := by
    induction data generalizing crc with
    | nil => rfl
    | cons byte data ih => rw [List.foldl_cons, List.foldl_cons, crcByte_eq, ih]
  exact hfold 0#16

/-! ### Decoding -/

variable {s s' : DecodeState} {unit first : CodeUnit} {version : UInt8}
  {input address text : List CodeUnit} {d bits pending count : ℕ} {ds es : List ℕ}

/-- The digit of a letter. -/
def symbol (unit : CodeUnit) : ℕ := ALPHABET.idxOf unit

theorem symbol_lt (h : unit ∈ ALPHABET) : symbol unit < 32 := List.idxOf_lt_length_of_mem h

theorem letter_symbol (h : unit ∈ ALPHABET) : letter (symbol unit) = unit := by
  rw [letter, symbol, List.getD_eq_getElem?_getD, List.getElem?_idxOf h, Option.getD_some]

theorem letter_mem (h : d < 32) : letter d ∈ ALPHABET := by
  have hlt : d < ALPHABET.length := h
  rw [letter, List.getD_eq_getElem?_getD, List.getElem?_eq_getElem hlt, Option.getD_some]
  exact List.getElem_mem hlt

theorem symbol_letter : ∀ d < 32, symbol (letter d) = d := by decide

theorem idxOf?_of_mem (h : unit ∈ ALPHABET) : ALPHABET.idxOf? unit = some (symbol unit) := by
  obtain ⟨d, hd⟩ := Option.isSome_iff_exists.mp (List.isSome_idxOf?.mpr h)
  rw [hd, symbol, List.idxOf_eq_getD_idxOf?, hd, Option.getD_some]

/-- The letters behind `ds` have been read, and the bytes `es` of the `count` written; the buffer
ends with the bits that are pending. -/
structure Decoding (count : ℕ) (ds es : List ℕ) (s : DecodeState) : Prop where
  regrouped : Regrouped 5 8 ds es s.bitsLeft (s.buffer.toNat % 2 ^ s.bitsLeft)
  bitsLeft_lt : s.bitsLeft < 8
  next : s.next = es.length
  result : s.result = es.map UInt8.ofNat ++ List.replicate (count - es.length) 0

/-- The buffer overflows, but not into the bits that are still needed. -/
theorem buffer_mod (b : BitVec 32) (hd : d < 32) (hbits : bits < 8) :
    (b <<< 5 ||| BitVec.ofNat 32 d).toNat % 2 ^ (bits + 5) = b.toNat % 2 ^ bits * 2 ^ 5 + d := by
  have hd32 : d % 2 ^ 32 = d := Nat.mod_eq_of_lt (by omega)
  have hdvd : 2 ^ (bits + 5) ∣ 2 ^ 32 := Nat.pow_dvd_pow 2 (by omega)
  have hsmall : d < 2 ^ (bits + 5) := by
    have : 2 ^ 5 ≤ 2 ^ (bits + 5) := Nat.pow_le_pow_right (by decide) (by omega)
    omega
  rw [BitVec.toNat_or, BitVec.toNat_shiftLeft, BitVec.toNat_ofNat, hd32, Nat.or_mod_two_pow,
    Nat.mod_mod_of_dvd _ hdvd, Nat.mod_eq_of_lt hsmall, Nat.shiftLeft_eq, pow_add,
    Nat.mul_mod_mul_right, ← Nat.shiftLeft_eq, ← Nat.shiftLeft_add_eq_or_of_lt (by omega)]

/-- The byte that is written: the first of the pending bits. -/
theorem written_byte (b : BitVec 32) (h8 : 8 ≤ bits) (hbits : bits < 13) :
    ((b.sshiftRight (bits - 8) &&& 0xff#32).setWidth 8).toNat =
      b.toNat % 2 ^ bits / 2 ^ (bits - 8) := by
  have hbit : (b.sshiftRight (bits - 8) &&& 0xff#32).setWidth 8 =
      (b >>> (bits - 8)).setWidth 8 := by
    apply BitVec.eq_of_getLsbD_eq
    intro i hi
    have hmask : (0xff#32).getLsbD i = (decide (i < 32) && decide (i < 8)) := getLsbD_ones 32 8 i
    have hlow : bits - 8 + i < 32 := by omega
    have hwidth : i < 32 := by omega
    simp only [BitVec.getLsbD_setWidth, BitVec.getLsbD_and, BitVec.getLsbD_sshiftRight,
      BitVec.getLsbD_ushiftRight, hmask]
    simp [hi, hlow, hwidth]
  have hsplit : 2 ^ bits = 2 ^ (bits - 8) * 2 ^ 8 := by
    rw [← pow_add, Nat.sub_add_cancel h8]
  rw [hbit, BitVec.toNat_setWidth, BitVec.toNat_ushiftRight, Nat.shiftRight_eq_div_pow, hsplit,
    Nat.mod_mul_right_div_self]

/-- One letter is decoded. -/
theorem Decoding.step (h : Decoding count ds es s) (hroom : (5 * (ds.length + 1)) / 8 ≤ count)
    (hunit : unit ∈ ALPHABET) :
    ∃ s' es', decodeUnit s unit = some s' ∧ Decoding count (ds ++ [symbol unit]) es' s' := by
  have hd : symbol unit < 2 ^ 5 := symbol_lt hunit
  have hbits : s.bitsLeft < 8 := h.bitsLeft_lt
  have hread := h.regrouped.read hd
  rw [← buffer_mod s.buffer hd hbits] at hread
  unfold decodeUnit
  rw [idxOf?_of_mem hunit]
  show ∃ s' es', (if 8 ≤ s.bitsLeft + 5 then _ else _) = some s' ∧ _
  set buffer := s.buffer <<< 5 ||| BitVec.ofNat 32 (symbol unit)
  by_cases hfull : 8 ≤ s.bitsLeft + 5
  case neg =>
    refine ⟨_, es, if_neg hfull, hread, ?_, h.next, h.result⟩
    show s.bitsLeft + 5 < 8
    omega
  have hwrite := hread.write hfull
  have hdvd : 2 ^ (s.bitsLeft + 5 - 8) ∣ 2 ^ (s.bitsLeft + 5) :=
    Nat.pow_dvd_pow 2 (Nat.sub_le ..)
  rw [Nat.mod_mod_of_dvd _ hdvd] at hwrite
  -- the array has room for the byte
  have hlength := hread.length
  rw [List.length_append, List.length_singleton] at hlength
  obtain ⟨rest, hrest⟩ : ∃ rest, count - es.length = rest + 1 :=
    ⟨count - es.length - 1, by omega⟩
  refine ⟨_, es ++ [buffer.toNat % 2 ^ (s.bitsLeft + 5) / 2 ^ (s.bitsLeft + 5 - 8)], if_pos hfull,
    hwrite, ?_, ?_, ?_⟩
  · show s.bitsLeft + 5 - 8 < 8
    omega
  · show s.next + 1 = _
    rw [h.next, List.length_append, List.length_singleton]
  · have hlen : (es.map UInt8.ofNat).length = es.length := List.length_map _
    have hleft : count - (es.length + 1) = rest := by omega
    have hbyte : UInt8.ofBitVec ((buffer.sshiftRight (s.bitsLeft + 5 - 8) &&& 0xff#32).setWidth 8) =
        UInt8.ofNat (buffer.toNat % 2 ^ (s.bitsLeft + 5) / 2 ^ (s.bitsLeft + 5 - 8)) := by
      rw [← written_byte _ hfull (by omega)]
      exact (UInt8.ofNat_bitVecToNat _).symm
    show s.result.set s.next _ = _
    rw [h.result, h.next, hrest, List.replicate_succ, List.set_append_right _ _ (by omega), hlen,
      Nat.sub_self, List.set_cons_zero, hbyte, List.map_append, List.map_singleton,
      List.append_assoc, List.singleton_append, List.length_append, List.length_singleton, hleft]

theorem Decoding.nil (count : ℕ) : Decoding count [] [] { result := List.replicate count 0 } :=
  ⟨.nil, Nat.zero_lt_succ 7, rfl, rfl⟩

/-- The letters are decoded one after the other. -/
theorem Decoding.run (h : Decoding count ds es s)
    (hroom : 5 * (ds.length + text.length) / 8 ≤ count) (htext : ∀ u ∈ text, u ∈ ALPHABET) :
    ∃ s' es', text.foldlM decodeUnit s = some s' ∧ Decoding count (ds ++ text.map symbol) es' s' := by
  induction text generalizing ds es s with
  | nil => exact ⟨s, es, rfl, by rwa [List.map_nil, List.append_nil]⟩
  | cons u text ih =>
    rw [List.length_cons] at hroom
    obtain ⟨s₁, es₁, hstep, h₁⟩ := h.step (by omega) (htext u List.mem_cons_self)
    have hroom₁ : 5 * ((ds ++ [symbol u]).length + text.length) / 8 ≤ count := by
      rw [List.length_append, List.length_singleton]
      omega
    obtain ⟨s', es', hrun, h'⟩ := ih h₁ hroom₁ fun v hv => htext v (List.mem_cons_of_mem _ hv)
    refine ⟨s', es', ?_, ?_⟩
    · rw [List.foldlM_cons, hstep]
      exact hrun
    · rwa [List.append_assoc, List.singleton_append] at h'

/-- Letters of the alphabet are decoded to the bytes that have the same bits. -/
theorem base32Decode_spec (h : ∀ u ∈ foldCase input, u ∈ ALPHABET) :
    ∃ bytes bits pending, base32Decode input = some bytes ∧ bits < 8 ∧
      Regrouped 5 8 ((foldCase input).map symbol) (bytes.map UInt8.toNat) bits pending := by
  obtain ⟨s, es, hrun, hs⟩ := (Decoding.nil ((foldCase input).length * 5 / 8)).run
    (by rw [List.length_nil]; omega) h
  rw [List.nil_append] at hs
  have hlength := hs.regrouped.length
  rw [List.length_map] at hlength
  have hbits := hs.bitsLeft_lt
  -- the array is full in the end
  have hcount : (foldCase input).length * 5 / 8 - es.length = 0 := by omega
  have hresult : s.result = es.map UInt8.ofNat := by
    rw [hs.result, hcount, List.replicate_zero, List.append_nil]
  have hbytes : (es.map UInt8.ofNat).map UInt8.toNat = es := by
    rw [List.map_map]
    have hbyte : ∀ d ∈ es, (UInt8.toNat ∘ UInt8.ofNat) d = id d := by
      intro d hd
      have hlt : d < 2 ^ 8 := hs.regrouped.written_lt d hd
      exact UInt8.toNat_ofNat_of_lt' hlt
    rw [List.map_congr_left hbyte, List.map_id]
  refine ⟨es.map UInt8.ofNat, s.bitsLeft, s.buffer.toNat % 2 ^ s.bitsLeft, ?_, hbits, ?_⟩
  · show Option.map DecodeState.result (List.foldlM _ _ _) = _
    rw [hrun, Option.map_some, hresult]
  · rw [hbytes]
    exact hs.regrouped

/-- Any other character is an error. -/
theorem base32Decode_eq_none (h : ¬ ∀ u ∈ foldCase input, u ∈ ALPHABET) :
    base32Decode input = none := by
  -- the fold stops at the first character that is not in the alphabet
  have hfold (text : List CodeUnit) (s : DecodeState) (h : ¬ ∀ u ∈ text, u ∈ ALPHABET) :
      text.foldlM decodeUnit s = none := by
    induction text generalizing s with
    | nil => exact absurd (List.forall_mem_nil _) h
    | cons u text ih =>
      rw [List.foldlM_cons]
      by_cases hu : u ∈ ALPHABET
      · have hrest : ¬ ∀ v ∈ text, v ∈ ALPHABET := by
          intro hall
          exact h (List.forall_mem_cons.mpr ⟨hu, hall⟩)
        cases hstep : decodeUnit s u with
        | none => rfl
        | some s' => exact ih s' hrest
      · have hnone : ALPHABET.idxOf? u = none := List.idxOf?_eq_none_iff.mpr hu
        rw [decodeUnit, hnone]
        rfl
  show Option.map DecodeState.result (List.foldlM _ _ _) = none
  rw [hfold _ _ h, Option.map_none]

/-- The first `len` digits of a number that has been regrouped into whole digits, and the rest. -/
theorem value_take_of_regrouped (h : Regrouped 5 8 ds es bits pending) (hbits : bits < 8)
    (hds : ∀ d ∈ ds, d < 32) (hes : es.length = 35) :
    (ds.drop 56).length ≤ 1 ∧ (ds.take 56).length = 56 ∧ value 32 (ds.take 56) = value 256 es := by
  have hlength := h.length
  rw [hes] at hlength
  have htake : (ds.take 56).length = 56 := by
    rw [List.length_take]
    omega
  have hdrop : 5 * (ds.drop 56).length = bits := by
    rw [List.length_drop]
    omega
  have hsplit : value 32 ds = value 32 (ds.take 56) * 32 ^ (ds.drop 56).length +
      value 32 (ds.drop 56) := by
    rw [← value_append, List.take_append_drop]
  have hpow : 2 ^ bits = 32 ^ (ds.drop 56).length := by
    rw [← hdrop, pow_mul]
    norm_num
  have hlow : value 32 (ds.drop 56) < 32 ^ (ds.drop 56).length :=
    value_lt fun d hd => hds d (List.mem_of_mem_drop hd)
  have hvalue : value 32 ds = value 256 es * 2 ^ bits + pending := h.value
  have hpending := h.pending_lt
  rw [hpow] at hvalue hpending
  refine ⟨by omega, htake, ?_⟩
  -- both are the quotient by the weight of the rest
  have hquot (a b : ℕ) (hb : b < 32 ^ (ds.drop 56).length) :
      (a * 32 ^ (ds.drop 56).length + b) / 32 ^ (ds.drop 56).length = a := by
    rw [Nat.mul_comm, Nat.mul_add_div (by positivity), Nat.div_eq_of_lt hb, Nat.add_zero]
  rw [← hquot (value 32 (ds.take 56)) _ hlow, ← hsplit, hvalue, hquot _ _ hpending]

/-- The bytes of an address fit into its characters. -/
theorem value_bytes_lt {bytes : List UInt8} (h : bytes.length = 35) :
    value 256 (bytes.map UInt8.toNat) < 32 ^ 56 := by
  have hlt : value 256 (bytes.map UInt8.toNat) < 256 ^ (bytes.map UInt8.toNat).length := by
    apply value_lt
    intro d hd
    obtain ⟨byte, -, rfl⟩ := List.mem_map.mp hd
    exact byte.toNat_lt
  rw [List.length_map, h] at hlt
  calc value 256 (bytes.map UInt8.toNat) < 256 ^ 35 := hlt
    _ = 32 ^ 56 := by norm_num

/-- Bytes of one length are told by their value. -/
theorem bytes_of_value {bytes bytes' : List UInt8} (h : bytes.length = bytes'.length)
    (hvalue : value 256 (bytes.map UInt8.toNat) = value 256 (bytes'.map UInt8.toNat)) :
    bytes = bytes' := by
  have hdigits (bs : List UInt8) :
      digits 256 bs.length (value 256 (bs.map UInt8.toNat)) = bs.map UInt8.toNat := by
    have hlt : ∀ d ∈ bs.map UInt8.toNat, d < 256 := by
      intro d hd
      obtain ⟨byte, -, rfl⟩ := List.mem_map.mp hd
      exact byte.toNat_lt
    have hback := digits_value hlt
    rwa [List.length_map] at hback
  have hmap : bytes.map UInt8.toNat = bytes'.map UInt8.toNat := by
    rw [← hdigits bytes, ← hdigits bytes', h, hvalue]
  exact List.map_injective_iff.mpr (fun _ _ => UInt8.toNat_inj.mp) hmap

theorem length_lettersOf (bytes : List UInt8) : (lettersOf bytes).length = 56 := by
  rw [lettersOf, List.length_map, length_digits]

theorem mem_lettersOf {bytes : List UInt8} (h : unit ∈ lettersOf bytes) : unit ∈ ALPHABET := by
  obtain ⟨d, hd, rfl⟩ := List.mem_map.mp h
  exact letter_mem (lt_of_mem_digits (by decide) hd)

theorem map_symbol_lettersOf (bytes : List UInt8) :
    (lettersOf bytes).map symbol = digits 32 56 (value 256 (bytes.map UInt8.toNat)) := by
  have hback : ∀ d ∈ digits 32 56 (value 256 (bytes.map UInt8.toNat)), (symbol ∘ letter) d = id d :=
    fun d hd => symbol_letter d (lt_of_mem_digits (by decide) hd)
  rw [lettersOf, List.map_map, List.map_congr_left hback, List.map_id]

/-- What is decoded to 35 bytes: their letters, and at most one more. -/
theorem base32Decode_eq_some {bytes : List UInt8} (hlen : bytes.length = 35) :
    base32Decode input = some bytes ↔ ∃ rest, foldCase input = lettersOf bytes ++ rest ∧
      rest.length ≤ 1 ∧ ∀ u ∈ rest, u ∈ ALPHABET := by
  -- a character outside the alphabet ends the decoding, and no text of that form has one
  by_cases hall : ∀ u ∈ foldCase input, u ∈ ALPHABET
  case neg =>
    rw [base32Decode_eq_none hall]
    constructor
    · intro h
      cases h
    · rintro ⟨rest, hrest, -, hmem⟩
      refine absurd (fun u hu => ?_) hall
      rw [hrest, List.mem_append] at hu
      rcases hu with hu | hu
      · exact mem_lettersOf hu
      · exact hmem u hu
  obtain ⟨decoded, bits, pending, hdecoded, hbits, hregrouped⟩ := base32Decode_spec hall
  -- all symbols are digits of base 32, so both texts are numbers of one value
  have hds : ∀ d ∈ (foldCase input).map symbol, d < 32 := by
    intro d hd
    obtain ⟨u, hu, rfl⟩ := List.mem_map.mp hd
    exact symbol_lt (hall u hu)
  rw [hdecoded, Option.some_inj]
  constructor
  · rintro rfl
    have hes : (decoded.map UInt8.toNat).length = 35 := by rwa [List.length_map]
    obtain ⟨hdrop, htake, hvalue⟩ := value_take_of_regrouped hregrouped hbits hds hes
    rw [← List.map_drop, List.length_map] at hdrop
    refine ⟨(foldCase input).drop 56, ?_, hdrop, fun u hu => hall u (List.mem_of_mem_drop hu)⟩
    have hletters : lettersOf decoded = (foldCase input).take 56 := by
      have hback : ∀ u ∈ (foldCase input).take 56, (letter ∘ symbol) u = id u :=
        fun u hu => letter_symbol (hall u (List.mem_of_mem_take hu))
      have hlt : ∀ d ∈ ((foldCase input).map symbol).take 56, d < 32 :=
        fun d hd => hds d (List.mem_of_mem_take hd)
      have hdigits := digits_value hlt
      rw [htake, hvalue] at hdigits
      rw [lettersOf, hdigits, ← List.map_take, List.map_map, List.map_congr_left hback, List.map_id]
    rw [hletters, List.take_append_drop]
  · rintro ⟨rest, hrest, hone, -⟩
    -- 35 bytes take 56 letters; a single letter over does not make a byte
    have hlength := hregrouped.length
    have htake : ((foldCase input).map symbol).take 56 =
        digits 32 56 (value 256 (bytes.map UInt8.toNat)) := by
      rw [hrest, List.map_append, List.take_left' (by rw [List.length_map, length_lettersOf]),
        map_symbol_lettersOf]
    rw [List.length_map, List.length_map, hrest, List.length_append, length_lettersOf] at hlength
    have hdecodedLen : decoded.length = 35 := by omega
    have hes : (decoded.map UInt8.toNat).length = 35 := by rwa [List.length_map]
    obtain ⟨-, -, hvalue⟩ := value_take_of_regrouped hregrouped hbits hds hes
    rw [htake, value_digits (value_bytes_lt hlen)] at hvalue
    exact bytes_of_value (hdecodedLen.trans hlen.symm) hvalue.symm

/-! ### The verdicts -/

theorem length_keyBytes {payload : List UInt8} (h : payload.length = 32) :
    (keyBytes version payload).length = 35 := by
  rw [keyBytes, List.length_append, List.length_cons, h, List.length_cons, List.length_singleton]

/-- The checksum is compared with its two bytes, the low one first. -/
theorem checksum_eq_iff (crc : BitVec 16) (low high : UInt8) :
    crc.setWidth 32 = low.toBitVec.setWidth 32 ||| high.toBitVec.setWidth 32 <<< 8 ↔
      low = .ofBitVec (crc.setWidth 8) ∧ high = .ofBitVec ((crc >>> 8).setWidth 8) := by
  -- a bit of the word is a bit of the low byte, or one of the high byte eight places up
  have hbit (i : ℕ) : (low.toBitVec.setWidth 32 ||| high.toBitVec.setWidth 32 <<< 8).getLsbD i =
      (low.toBitVec.getLsbD i || (decide (8 ≤ i) && high.toBitVec.getLsbD (i - 8))) := by
    have hlow (hi : ¬ i < 32) : low.toBitVec.getLsbD i = false :=
      BitVec.getLsbD_of_ge _ _ (by omega)
    have hhigh (hi : ¬ i < 32) : high.toBitVec.getLsbD (i - 8) = false :=
      BitVec.getLsbD_of_ge _ _ (by omega)
    simp only [BitVec.getLsbD_or, BitVec.getLsbD_setWidth, BitVec.getLsbD_shiftLeft]
    by_cases hi : i < 32
    · have hsub : i - 8 < 32 := by omega
      by_cases h8 : i < 8
      · simp [hi, h8, Nat.not_le.mpr h8]
      · simp [hi, hsub, h8, Nat.not_lt.mp h8]
    · simp [hi, hlow hi, hhigh hi]
  constructor
  · intro h
    have hat (i : ℕ) : (crc.setWidth 32).getLsbD i =
        (low.toBitVec.getLsbD i || (decide (8 ≤ i) && high.toBitVec.getLsbD (i - 8))) := by
      rw [h, hbit]
    constructor
    · apply UInt8.toBitVec_inj.mp
      apply BitVec.eq_of_getLsbD_eq
      intro i hi
      have hi8 : ¬ 8 ≤ i := by omega
      have hi32 : i < 32 := by omega
      have hbits := hat i
      rw [BitVec.getLsbD_setWidth] at hbits
      simpa [hi, hi8, hi32] using hbits.symm
    · apply UInt8.toBitVec_inj.mp
      apply BitVec.eq_of_getLsbD_eq
      intro i hi
      have hlow : low.toBitVec.getLsbD (8 + i) = false := BitVec.getLsbD_of_ge _ _ (by omega)
      have hi32 : 8 + i < 32 := by omega
      have hbits := hat (8 + i)
      rw [BitVec.getLsbD_setWidth, hlow] at hbits
      simpa [hi, hi32] using hbits.symm
  · -- the two bytes were cut from `crc`, which has no bit above 16
    rintro ⟨rfl, rfl⟩
    apply BitVec.eq_of_getLsbD_eq
    intro i hi
    rw [hbit, BitVec.getLsbD_setWidth]
    by_cases h8 : i < 8
    · simp [hi, h8, Nat.not_le.mpr h8]
    · have hsum : 8 + (i - 8) = i := by omega
      by_cases h16 : i - 8 < 8
      · simp [hi, Nat.not_lt.mp h8, h16, hsum]
      · have hcrc : crc.getLsbD i = false := BitVec.getLsbD_of_ge _ _ (by omega)
        simp [hi, h8, h16, hcrc]

/-- What the checks on the decoded bytes amount to. -/
theorem checks_iff {decoded : List UInt8} (hlen : decoded.length = 35) :
    decoded[0]? = some version ∧ crc16 (version :: (decoded.take 33).drop 1) =
      ((((decoded.take 35).drop 33).getD 0 0).toBitVec.setWidth 32 |||
        (((decoded.take 35).drop 33).getD 1 0).toBitVec.setWidth 32 <<< 8) ↔
      ∃ payload : List UInt8, payload.length = 32 ∧ decoded = keyBytes version payload := by
  constructor
  · rintro ⟨hversion, hcrc⟩
    have htail : (decoded.drop 33).length = 2 := by
      rw [List.length_drop, hlen]
    -- the last two bytes hold the checksum, low byte first
    obtain ⟨low, high, hpair⟩ := List.length_eq_two.mp htail
    have htake : decoded.take 35 = decoded := List.take_of_length_le hlen.le
    rw [htake, hpair, crc16_eq] at hcrc
    obtain ⟨hlow, hhigh⟩ := (checksum_eq_iff _ low high).mp hcrc
    refine ⟨(decoded.take 33).drop 1, ?_, ?_⟩
    · rw [List.length_drop, List.length_take, hlen]
      omega
    · -- the version that was compared is the byte the text starts with
      have hhead : version :: (decoded.take 33).drop 1 = decoded.take 33 := by
        cases hd : decoded with
        | nil =>
          rw [hd] at hlen
          cases hlen
        | cons byte rest =>
          rw [hd, List.getElem?_cons_zero, Option.some_inj] at hversion
          rw [hversion]
          rfl
      have hbytes : keyBytes version ((decoded.take 33).drop 1) = decoded.take 33 ++ [low, high] := by
        show (version :: (decoded.take 33).drop 1) ++ [_, _] = _
        rw [hhead, hlow, hhigh, hhead]
      rw [hbytes, ← hpair, List.take_append_drop]
  · rintro ⟨payload, hpayload, rfl⟩
    -- here the bytes are given, so each slice of the source is computed
    have hfront : (version :: payload).length = 33 := by
      rw [List.length_cons, hpayload]
    have htake : (keyBytes version payload).take 35 = keyBytes version payload :=
      List.take_of_length_le hlen.le
    have hcut : (keyBytes version payload).take 33 = version :: payload :=
      List.take_left' hfront
    have hdrop : (keyBytes version payload).drop 33 =
        [.ofBitVec ((Crc16.xmodem (version :: payload)).setWidth 8),
          .ofBitVec ((Crc16.xmodem (version :: payload) >>> 8).setWidth 8)] :=
      List.drop_left' hfront
    refine ⟨rfl, ?_⟩
    rw [htake, hcut, hdrop, crc16_eq]
    exact (checksum_eq_iff _ _ _).mpr ⟨rfl, rfl⟩

/-- The upper case of a string, without its padding, is an address, and one more letter may follow;
the first letter is the one of the address as it stands. -/
def FoldsToKey (first : CodeUnit) (version : UInt8) (address : List CodeUnit) : Prop :=
  address.length = 56 ∧ address[0]? = some first ∧ ∃ payload rest : List _, payload.length = 32 ∧
    foldCase address = strKey version payload ++ rest ∧ rest.length ≤ 1 ∧ ∀ u ∈ rest, u ∈ ALPHABET

/-- What the validators accept. -/
theorem checkAddress_iff :
    checkAddress first version address = true ↔ FoldsToKey first version address := by
  unfold checkAddress FoldsToKey
  split_ifs with hlen hfirst
  · -- the two early returns, on the length and on the first letter
    exact ⟨fun h => absurd h (by decide), fun h => absurd h.1 hlen⟩
  · exact ⟨fun h => absurd h (by decide), fun h => absurd h.2.1 hfirst⟩
  rw [not_not] at hlen hfirst
  constructor
  · intro h
    cases hdecoded : base32Decode address with
    | none =>
      rw [hdecoded] at h
      cases h
    | some decoded =>
      rw [hdecoded] at h
      dsimp only at h
      split_ifs at h with h35 hversion
      rw [not_not] at h35 hversion
      rw [decide_eq_true_eq] at h
      obtain ⟨payload, hpayload, rfl⟩ := (checks_iff h35).mp ⟨hversion, h⟩
      obtain ⟨rest, hrest, hone, hmem⟩ := (base32Decode_eq_some h35).mp hdecoded
      exact ⟨hlen, hfirst, payload, rest, hpayload, hrest, hone, hmem⟩
  · -- a text that folds to the key decodes to its bytes, and these pass both checks
    rintro ⟨-, -, payload, rest, hpayload, hrest, hone, hmem⟩
    have h35 : (keyBytes version payload).length = 35 := length_keyBytes hpayload
    have hdecoded := (base32Decode_eq_some h35).mpr ⟨rest, hrest, hone, hmem⟩
    obtain ⟨hversion, hcrc⟩ := (checks_iff h35).mpr ⟨payload, hpayload, rfl⟩
    rw [hdecoded]
    dsimp only
    rw [if_neg (not_not.mpr h35), if_neg (not_not.mpr hversion), decide_eq_true_eq]
    exact hcrc

/-! ### Canonical addresses -/

theorem upperUnit_letter (h : unit ∈ ALPHABET) : upperUnit unit = [unit] := by
  have hall : ALPHABET.all (fun u => upperUnit u = [u]) = true := by decide
  exact of_decide_eq_true (List.all_eq_true.mp hall unit h)

theorem ne_padding_of_mem (h : unit ∈ ALPHABET) : unit ≠ 0x3d := by
  rintro rfl
  revert h
  decide

/-- A string of letters of the alphabet stays as it is. -/
theorem foldCase_letters (h : ∀ u ∈ address, u ∈ ALPHABET) : foldCase address = address := by
  have hupper : toUpperCase address = address := by
    rw [toUpperCase, List.flatMap_congr fun u hu => upperUnit_letter (h u hu)]
    exact List.flatMap_singleton' address
  have hkeep : address.reverse.dropWhile (· = 0x3d) = address.reverse := by
    cases hrev : address.reverse with
    | nil => rfl
    | cons u rest =>
      have hu : u ∈ address := by
        rw [← List.mem_reverse, hrev]
        exact List.mem_cons_self
      exact List.dropWhile_cons_of_neg (by simpa using ne_padding_of_mem (h u hu))
  rw [foldCase, hupper, hkeep, List.reverse_reverse]

/-- The first letter stands for the upper five bits of the version. -/
theorem head?_strKey {payload : List UInt8} (h : payload.length = 32) :
    (strKey version payload)[0]? = some (letter (version.toNat / 8)) := by
  have hlen : (keyBytes version payload).length = 35 := length_keyBytes h
  have hlt := value_bytes_lt hlen
  obtain ⟨rest, hkey⟩ : ∃ rest, keyBytes version payload = version :: rest := ⟨_, rfl⟩
  have hrest : rest.length = 34 := by
    rw [hkey, List.length_cons] at hlen
    omega
  -- the first letter is the upper five bits of the version: all other bytes fall away in the quotient
  have htail : value 256 (rest.map UInt8.toNat) < 256 ^ 34 := by
    have hbytes : ∀ d ∈ rest.map UInt8.toNat, d < 256 := by
      intro d hd
      obtain ⟨byte, -, rfl⟩ := List.mem_map.mp hd
      exact byte.toNat_lt
    have hbound := value_lt hbytes
    rwa [List.length_map, hrest] at hbound
  have hvalue : value 256 ((keyBytes version payload).map UInt8.toNat) =
      version.toNat * 256 ^ 34 + value 256 (rest.map UInt8.toNat) := by
    have hone : value 256 [version.toNat] = version.toNat := by
      show 256 * 0 + version.toNat = version.toNat
      omega
    rw [hkey, List.map_cons, ← List.singleton_append, value_append, List.length_map, hrest, hone]
  have hquot : value 256 ((keyBytes version payload).map UInt8.toNat) / 32 ^ 55 =
      version.toNat / 8 := by
    have hsplit : (32 : ℕ) ^ 55 = 256 ^ 34 * 8 := by norm_num
    rw [hsplit, ← Nat.div_div_eq_div_mul, hvalue, Nat.mul_comm, Nat.mul_add_div (by positivity),
      Nat.div_eq_of_lt htail, Nat.add_zero]
  rw [strKey, lettersOf, List.getElem?_map, ← List.head?_eq_getElem?, head?_digits hlt, hquot,
    Option.map_some]

theorem foldCase_strKey (version : UInt8) (payload : List UInt8) :
    foldCase (strKey version payload) = strKey version payload :=
  foldCase_letters fun _ hu => mem_lettersOf hu

/-- An address is accepted. -/
theorem foldsToKey_strKey {payload : List UInt8} (hfirst : letter (version.toNat / 8) = first)
    (h : payload.length = 32) : FoldsToKey first version (strKey version payload) := by
  have hlen : (strKey version payload).length = 56 := length_lettersOf _
  have hhead : (strKey version payload)[0]? = some first := by
    rw [head?_strKey h, hfirst]
  have hfolds : foldCase (strKey version payload) = strKey version payload ++ [] := by
    rw [foldCase_strKey, List.append_nil]
  unfold FoldsToKey
  refine ⟨hlen, hhead, payload, [], h, hfolds, ?_, ?_⟩
  · simp
  · simp

theorem foldCase_of_isStrKey (h : IsStrKey version address) : foldCase address = address := by
  cases h with
  | intro payload h => rw [h.2, foldCase_strKey]

/-- An accepted string in that form is an address: no letter follows. -/
theorem isStrKey_of_foldsToKey (h : FoldsToKey first version address)
    (hfold : foldCase address = address) : IsStrKey version address := by
  obtain ⟨hlen, -, payload, rest, hpayload, hrest, -, -⟩ := h
  rw [hfold] at hrest
  have hlength := congrArg List.length hrest
  have hkey : (strKey version payload).length = 56 := length_lettersOf _
  rw [hlen, List.length_append, hkey] at hlength
  have hnil : rest = [] := List.length_eq_zero_iff.mp (by omega)
  rw [hnil, List.append_nil] at hrest
  exact ⟨payload, hpayload, hrest⟩

/-- A validator agrees with the network about a string unless it takes the string for another one. -/
theorem checkAddress_agrees_iff (hfirst : letter (version.toNat / 8) = first) :
    (checkAddress first version address = true ↔ IsStrKey version address) ↔
      (FoldsToKey first version address → foldCase address = address) := by
  rw [checkAddress_iff]
  constructor
  · intro h hfolds
    exact foldCase_of_isStrKey (h.mp hfolds)
  · intro h
    constructor
    · intro hfolds
      exact isStrKey_of_foldsToKey hfolds (h hfolds)
    · rintro ⟨payload, hpayload, hkey⟩
      rw [hkey]
      exact foldsToKey_strKey hfirst hpayload

/-- **The validators accept exactly the addresses among the strings that are addresses as they stand
or that are not made into one by upper case letters and by the loss of their padding.** -/
theorem validators_iff (address : List CodeUnit) :
    ((isValidStellarAddress address = true ↔ IsStrKey 0x30 address) ↔
      (FoldsToKey 0x47 0x30 address → foldCase address = address)) ∧
    ((isValidContractAddress address = true ↔ IsStrKey 0x10 address) ↔
      (FoldsToKey 0x43 0x10 address → foldCase address = address)) :=
  ⟨checkAddress_agrees_iff (by decide), checkAddress_agrees_iff (by decide)⟩

/-- The account with the payload zero, in small letters but for the first. -/
def lowerCaseAccount : List CodeUnit :=
  units "Gaaaaaaaaaaaaaaaaaaaaaaaaaaaaaaaaaaaaaaaaaaaaaaaaaaaawhf"

/-- It is accepted, and it is no address. -/
theorem not_validators_lowerCase :
    ¬ (isValidStellarAddress lowerCaseAccount = true ↔ IsStrKey 0x30 lowerCaseAccount) := by
  have haccepted : isValidStellarAddress lowerCaseAccount = true := by decide +kernel
  intro h
  obtain ⟨payload, -, hpayload⟩ := h.mp haccepted
  have hmem : (0x61 : CodeUnit) ∈ lowerCaseAccount := by decide
  rw [hpayload] at hmem
  exact absurd (mem_lettersOf hmem) (by decide)

end StellarForge.Frontend
