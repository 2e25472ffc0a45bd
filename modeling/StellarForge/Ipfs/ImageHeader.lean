import Mathlib.Logic.Relation
import StellarForge.Collections.Text

/-!
# Image headers

`validateFileMagicBytes` accepts an upload by its first bytes: the signature of its format and the
dimensions in its header, which for a JPEG are found by walking along its segments.  A read outside of
the buffer is a `Fault` here: the read methods of a `Buffer` throw a `RangeError` there, and an index
gives `undefined`.

* `jpegSegment_spec`: what one round of the walk reads and where it goes on;
* `probeJpeg_spec`: the walk ends without a fault, at the first frame header;
* `validateFileMagicBytes_sound`: **no fault for any upload, and what is known of an accepted one**.
-/

namespace StellarForge.Ipfs

open Text Relation

/-! ### Reading bytes -/

/-- The bytes of a file. -/
abbrev Buffer := List UInt8

/-- What reading beyond the end does. -/
inductive Fault
  | rangeError
  | undefinedByte
  deriving DecidableEq, Repr

/-- A read that may throw. -/
abbrev Read := Except Fault

/-- `buffer[i]` -/
def byteAt (buffer : Buffer) (i : ℕ) : Read UInt8 :=
  match buffer[i]? with
  | some b => .ok b
  | none => .error .undefinedByte

/-- The bytes from `offset` on, as a read method of that many bytes finds them. -/
def readBytes (buffer : Buffer) (offset n : ℕ) : Read (List UInt8) :=
  if offset + n ≤ buffer.length then .ok ((buffer.drop offset).take n) else .error .rangeError

/-- The number with the given digits in base 256, the most significant first. -/
def bigEndian (bytes : List UInt8) : ℕ := bytes.foldl (fun n b => 256 * n + b.toNat) 0

/-- Two bytes, the higher one first. -/
def readUInt16BE (buffer : Buffer) (offset : ℕ) : Read ℕ := (readBytes buffer offset 2).map bigEndian

/-- Four bytes, the highest one first. -/
def readUInt32BE (buffer : Buffer) (offset : ℕ) : Read ℕ := (readBytes buffer offset 4).map bigEndian

/-- Two bytes, the lower one first. -/
def readUInt16LE (buffer : Buffer) (offset : ℕ) : Read ℕ :=
  (readBytes buffer offset 2).map fun bytes => bigEndian bytes.reverse

/-- `buffer.toString('ascii', first, last)`, as codes: the highest bit of a byte is unset. -/
def asciiCodes (buffer : Buffer) (first last : ℕ) : List UInt8 :=
  ((buffer.drop first).take (last - first)).map (· &&& 0x7f)

/-! ### Signatures -/

/-- The types of an image. -/
inductive AllowedImageMimeType
  | png
  | jpeg
  | gif
  deriving DecidableEq, Repr

/-- The text of a type. -/
def AllowedImageMimeType.name : AllowedImageMimeType → String
  | .png => "image/png"
  | .jpeg => "image/jpeg"
  | .gif => "image/gif"

/-- The bytes that a file of a type begins with. -/
structure FileSignature where
  mimeType : AllowedImageMimeType
  bytes : List UInt8

/-- The signatures, of which a type may have several. -/
def FILE_SIGNATURES : List FileSignature := [
  ⟨.png, [0x89, 0x50, 0x4e, 0x47, 0x0d, 0x0a, 0x1a, 0x0a]⟩,
  ⟨.jpeg, [0xff, 0xd8, 0xff]⟩,
  -- `GIF87a` and `GIF89a`
  ⟨.gif, [0x47, 0x49, 0x46, 0x38, 0x37, 0x61]⟩,
  ⟨.gif, [0x47, 0x49, 0x46, 0x38, 0x39, 0x61]⟩]

/-- The bound of each side. -/
def MAX_IMAGE_DIMENSION : ℕ := 8192

/-- The bound of the area. -/
def MAX_IMAGE_PIXELS : ℕ := 16777216

/-- A shorter file is no image. -/
def MIN_HEADER_BYTES : ℕ := 12

/-- The sides of an image. -/
structure ImageDimensions where
  width : ℕ
  height : ℕ
  deriving DecidableEq, Repr

/-- The type that the content is of. -/
def sniffImageMimeType (buffer : Buffer) : Option AllowedImageMimeType :=
  (FILE_SIGNATURES.find? fun sig =>
    sig.bytes.length ≤ buffer.length && buffer.take sig.bytes.length == sig.bytes).map
      FileSignature.mimeType

/-! ### Dimensions -/

/-- The sides in the header of a PNG. -/
def probePng (buffer : Buffer) : Read (Option ImageDimensions) := do
  if buffer.length < 24 then return none
  -- the codes of `IHDR`
  else if asciiCodes buffer 12 16 ≠ [0x49, 0x48, 0x44, 0x52] then return none
  else
    let width ← readUInt32BE buffer 16
    let height ← readUInt32BE buffer 20
    return some { width, height }

/-- The sides in the header of a GIF. -/
def probeGif (buffer : Buffer) : Read (Option ImageDimensions) := do
  if buffer.length < 10 then return none
  else
    let width ← readUInt16LE buffer 6
    let height ← readUInt16LE buffer 8
    return some { width, height }

/-- The loop over fill bytes: the offset before the marker, and the marker. -/
def skipFill (buffer : Buffer) (offset : ℕ) : Read (ℕ × UInt8) := do
  let marker ← byteAt buffer (offset + 1)
  if marker = 0xff ∧ offset + 2 < buffer.length then skipFill buffer (offset + 1)
  else return (offset, marker)
termination_by buffer.length - offset

/-- Markers without a length field. -/
def isStandalone (marker : UInt8) : Bool :=
  marker == 0xd8 || (0xd0 ≤ marker && marker ≤ 0xd7) || marker == 0x01

/-- The end of the image, and the start of a scan. -/
def endsHeader (marker : UInt8) : Bool := marker == 0xd9 || marker == 0xda

/-- The marker begins a frame of a JPEG, where its sides stand. -/
def isSof (marker : UInt8) : Bool :=
  0xc0 ≤ marker && marker ≤ 0xcf && marker != 0xc4 && marker != 0xc8 && marker != 0xcc

/-- How a round of the walk ends. -/
inductive JpegStep
  | next (offset : ℕ)
  | done (dimensions : Option ImageDimensions)

/-- One round of the loop of `probeJpeg`. -/
def jpegSegment (buffer : Buffer) (offset : ℕ) : Read JpegStep := do
  let sync ← byteAt buffer offset
  if sync ≠ 0xff then return .done none
  else
    let (offset, marker) ← skipFill buffer offset
    if isStandalone marker then return .next (offset + 2)
    else if endsHeader marker then return .done none
    else if buffer.length < offset + 4 then return .done none
    else
      let segmentLength ← readUInt16BE buffer (offset + 2)
      if segmentLength < 2 then return .done none
      else if isSof marker then
        if buffer.length < offset + 9 then return .done none
        else
          let width ← readUInt16BE buffer (offset + 7)
          let height ← readUInt16BE buffer (offset + 5)
          return .done (some { width, height })
      else return .next (offset + 2 + segmentLength)

/-! ### The structure of a JPEG -/

variable {buffer : Buffer} {offset p o : ℕ} {marker : UInt8} {dims : ImageDimensions}

/-- From `offset` on there are only fill bytes up to position `p`, and then the marker. -/
structure MarkerAt (buffer : Buffer) (offset p : ℕ) (marker : UInt8) : Prop where
  le : offset ≤ p
  fill : ∀ i, offset ≤ i → i ≤ p → buffer[i]? = some 0xff
  after : buffer[p + 1]? = some marker
  marker_ne : marker ≠ 0xff

/-- The segment after the one at `offset`, if that one is no frame header. -/
inductive Follows (buffer : Buffer) (offset : ℕ) : ℕ → Prop
  | standalone {p : ℕ} {marker : UInt8} (h : MarkerAt buffer offset p marker)
    (hm : isStandalone marker = true) : Follows buffer offset (p + 2)
  | segment {p : ℕ} {marker : UInt8} {length : ℕ} (h : MarkerAt buffer offset p marker)
    (hs : isStandalone marker = false) (he : endsHeader marker = false) (hf : isSof marker = false)
    (hlength : readUInt16BE buffer (p + 2) = .ok length) (hmin : 2 ≤ length) :
    Follows buffer offset (p + 2 + length)

/-- The segment at `offset` is a frame header with these dimensions. -/
def FrameAt (buffer : Buffer) (offset : ℕ) (dims : ImageDimensions) : Prop :=
  ∃ p marker, MarkerAt buffer offset p marker ∧ isSof marker = true ∧
    readUInt16BE buffer (p + 5) = .ok dims.height ∧ readUInt16BE buffer (p + 7) = .ok dims.width

theorem Follows.lt (h : Follows buffer offset o) : offset + 2 ≤ o := by
  cases h with
  | standalone h _ =>
    have hle := h.le
    omega
  | segment h _ _ _ _ hmin =>
    have hle := h.le
    omega

/-! ### Reads inside of the buffer -/

theorem byteAt_of_lt (h : offset < buffer.length) :
    ∃ b, buffer[offset]? = some b ∧ byteAt buffer offset = .ok b := by
  have hget : buffer[offset]? = some buffer[offset] := List.getElem?_eq_getElem h
  refine ⟨_, hget, ?_⟩
  rw [byteAt, hget]

theorem readUInt16BE_of_le (h : offset + 2 ≤ buffer.length) :
    ∃ n, readUInt16BE buffer offset = .ok n := by
  rw [readUInt16BE, readBytes, if_pos h]
  exact ⟨_, rfl⟩

/-- The loop over fill bytes stays inside of the buffer. -/
theorem skipFill_spec {offset : ℕ} (hlt : offset + 1 < buffer.length) (hsync : buffer[offset]? = some 0xff) :
    ∃ p marker, skipFill buffer offset = .ok (p, marker) ∧ offset ≤ p ∧
      (∀ i, offset ≤ i → i ≤ p → buffer[i]? = some 0xff) ∧ buffer[p + 1]? = some marker ∧
      (marker = 0xff → buffer.length ≤ p + 2) := by
  obtain ⟨marker, hget, hread⟩ := byteAt_of_lt hlt
  rw [skipFill, hread]
  by_cases hfill : marker = 0xff ∧ offset + 2 < buffer.length
  · rw [hfill.1] at hget
    obtain ⟨p, m, hskip, hle, hbytes, hmarker, hend⟩ :=
      skipFill_spec hfill.2 hget
    refine ⟨p, m, ?_, Nat.le_of_succ_le hle, fun i hi hip => ?_, hmarker, hend⟩
    · show (if _ then skipFill buffer (offset + 1) else _) = _
      rw [if_pos hfill, hskip]
    · rcases Nat.eq_or_lt_of_le hi with rfl | hi
      · exact hsync
      · exact hbytes i hi hip
  · refine ⟨offset, marker, if_neg hfill, le_rfl, fun i hi hip => ?_, hget, fun hm => ?_⟩
    · rw [Nat.le_antisymm hip hi]
      exact hsync
    · by_contra hshort
      exact hfill ⟨hm, by omega⟩
termination_by buffer.length - offset

/-- What a round of the walk has found. -/
def JpegStep.Found (buffer : Buffer) (offset : ℕ) : JpegStep → Prop
  | .next o => Follows buffer offset o
  | .done none => True
  | .done (some dims) => FrameAt buffer offset dims

/-- A round of the walk reads inside of the buffer, and follows the segment it has found. -/
theorem jpegSegment_spec (hlt : offset + 3 < buffer.length) :
    ∃ step, jpegSegment buffer offset = .ok step ∧ step.Found buffer offset := by
  obtain ⟨sync, hget, hsync⟩ := byteAt_of_lt (show offset < buffer.length by omega)
  unfold jpegSegment
  rw [hsync]
  by_cases hff : sync = 0xff
  case neg => exact ⟨.done none, if_pos hff, trivial⟩
  rw [hff] at hget
  obtain ⟨p, marker, hskip, hle, hfill, hafter, hend⟩ := skipFill_spec (by omega) hget
  show ∃ step, (if ¬ sync = 0xff then _ else _) = _ ∧ _
  rw [if_neg (not_not.mpr hff), hskip]
  show ∃ step, (if isStandalone marker = true then _ else _) = _ ∧ _
  have hmarkerAt (hne : marker ≠ 0xff) : MarkerAt buffer offset p marker :=
    ⟨hle, hfill, hafter, hne⟩
  by_cases hs : isStandalone marker = true
  · have hne : marker ≠ 0xff := by
      rintro rfl
      revert hs
      decide
    exact ⟨.next (p + 2), if_pos hs, .standalone (hmarkerAt hne) hs⟩
  rw [if_neg hs]
  by_cases he : endsHeader marker = true
  · exact ⟨.done none, if_pos he, trivial⟩
  rw [if_neg he]
  by_cases hshort : buffer.length < p + 4
  · exact ⟨.done none, if_pos hshort, trivial⟩
  -- the marker is followed by two more bytes, so the loop over fill bytes has ended before it
  have hne : marker ≠ 0xff := by
    intro hm
    have hlast := hend hm
    omega
  obtain ⟨length, hlength⟩ : ∃ n, readUInt16BE buffer (p + 2) = .ok n :=
    readUInt16BE_of_le (by omega)
  rw [if_neg hshort, hlength]
  show ∃ step, (if length < 2 then _ else _) = _ ∧ _
  by_cases hmin : length < 2
  · exact ⟨.done none, if_pos hmin, trivial⟩
  rw [if_neg hmin]
  by_cases hf : isSof marker = true
  case neg =>
    refine ⟨.next (p + 2 + length), if_neg hf, ?_⟩
    exact .segment (hmarkerAt hne) (Bool.eq_false_iff.mpr hs) (Bool.eq_false_iff.mpr he)
      (Bool.eq_false_iff.mpr hf) hlength (not_lt.mp hmin)
  rw [if_pos hf]
  by_cases hframe : buffer.length < p + 9
  · exact ⟨.done none, if_pos hframe, trivial⟩
  obtain ⟨width, hwidth⟩ : ∃ n, readUInt16BE buffer (p + 7) = .ok n :=
    readUInt16BE_of_le (by omega)
  obtain ⟨height, hheight⟩ : ∃ n, readUInt16BE buffer (p + 5) = .ok n :=
    readUInt16BE_of_le (by omega)
  rw [if_neg hframe, hwidth, hheight]
  exact ⟨.done (some ⟨width, height⟩), rfl, p, marker, hmarkerAt hne, hf, hheight, hwidth⟩

/-- A round that goes on goes forward. -/
theorem jpegSegment_lt (hlt : offset + 3 < buffer.length)
    (h : jpegSegment buffer offset = .ok (.next o)) : offset < o := by
  obtain ⟨step, hstep, hfound⟩ := jpegSegment_spec hlt
  rw [h, Except.ok.injEq] at hstep
  rw [← hstep] at hfound
  have hforward : offset + 2 ≤ o := Follows.lt hfound
  omega

/-! ### The walk -/

/-- The loop of `probeJpeg`, from `offset` on. -/
def probeJpegFrom (buffer : Buffer) (offset : ℕ) : Read (Option ImageDimensions) :=
  if hlt : offset + 3 < buffer.length then
    match hstep : jpegSegment buffer offset with
    | .error fault => .error fault
    | .ok (.done dimensions) => .ok dimensions
    | .ok (.next o) => probeJpegFrom buffer o
  else .ok none
termination_by buffer.length - offset
decreasing_by
  have hforward := jpegSegment_lt hlt hstep
  omega

/-- `probeJpeg`: the walk starts after SOI. -/
def probeJpeg (buffer : Buffer) : Read (Option ImageDimensions) := probeJpegFrom buffer 2

/-- The offsets at which the rounds of the walk start. -/
def jpegOffsets (buffer : Buffer) (offset : ℕ) : List ℕ :=
  if hlt : offset + 3 < buffer.length then
    offset :: match hstep : jpegSegment buffer offset with
      | .ok (.next o) => jpegOffsets buffer o
      | _ => []
  else []
termination_by buffer.length - offset
decreasing_by
  have hforward := jpegSegment_lt hlt hstep
  omega

/-- The offsets of the walk increase, from the first one on. -/
theorem jpegOffsets_increasing (buffer : Buffer) (offset : ℕ) :
    (jpegOffsets buffer offset).Pairwise (· < ·) ∧ ∀ o ∈ jpegOffsets buffer offset, offset ≤ o := by
  rw [jpegOffsets]
  split_ifs with hlt
  case neg => exact ⟨.nil, List.forall_mem_nil _⟩
  split
  case h_1 o hstep =>
    have hforward := jpegSegment_lt hlt hstep
    obtain ⟨hsorted, hfrom⟩ := jpegOffsets_increasing buffer o
    refine ⟨List.pairwise_cons.mpr ⟨fun x hx => hforward.trans_le (hfrom x hx), hsorted⟩, ?_⟩
    intro x hx
    rcases List.mem_cons.mp hx with rfl | hx
    · exact le_rfl
    · exact hforward.le.trans (hfrom x hx)
  case h_2 =>
    refine ⟨List.pairwise_singleton _ _, fun x hx => ?_⟩
    rw [List.mem_singleton.mp hx]
termination_by buffer.length - offset

/-- The first frame header on the way along the segments. -/
def FirstFrame (buffer : Buffer) (offset : ℕ) (dims : ImageDimensions) : Prop :=
  ∃ o, ReflTransGen (Follows buffer) offset o ∧ FrameAt buffer o dims

/-- The walk ends without a fault, and with the dimensions of the first frame header. -/
theorem probeJpegFrom_spec (buffer : Buffer) (offset : ℕ) :
    ∃ result, probeJpegFrom buffer offset = .ok result ∧
      ∀ dims ∈ result, FirstFrame buffer offset dims := by
  rw [probeJpegFrom]
  split_ifs with hlt
  case neg => exact ⟨none, rfl, fun dims hdims => absurd hdims (Option.not_mem_none dims)⟩
  -- one segment: a fault is excluded by its specification
  obtain ⟨step, hstep, hfound⟩ := jpegSegment_spec hlt
  split
  case h_1 fault hfault =>
    rw [hfault] at hstep
    cases hstep
  case h_2 dimensions hdone =>
    rw [hdone, Except.ok.injEq] at hstep
    rw [← hstep] at hfound
    refine ⟨dimensions, rfl, fun dims hdims => ⟨offset, .refl, ?_⟩⟩
    rw [Option.mem_def.mp hdims] at hfound
    exact hfound
  -- the next segment is further on, which is what the recursion needs
  case h_3 o hnext =>
    have hforward := jpegSegment_lt hlt hnext
    rw [hnext, Except.ok.injEq] at hstep
    rw [← hstep] at hfound
    obtain ⟨result, hresult, hframe⟩ := probeJpegFrom_spec buffer o
    refine ⟨result, hresult, fun dims hdims => ?_⟩
    obtain ⟨o', hreach, hat⟩ := hframe dims hdims
    exact ⟨o', .head hfound hreach, hat⟩
termination_by buffer.length - offset

/-! ### Validation -/

/-- The sides in the header of a file. -/
def probeImageDimensions (buffer : Buffer) : AllowedImageMimeType → Read (Option ImageDimensions)
  | .png => probePng buffer
  | .gif => probeGif buffer
  | .jpeg => probeJpeg buffer

/-- `validateFileMagicBytes`: the type of the content, or why the upload is refused. -/
def validateFileMagicBytes (buffer : Buffer) (clientMimeType : String) :
    Read (Except String AllowedImageMimeType) := do
  if buffer.length < MIN_HEADER_BYTES then return .error "File is too small to determine type."
  else match sniffImageMimeType buffer with
    | none => return .error "File format not recognized. Only JPEG, PNG, and GIF are allowed."
    | some sniffedType =>
      if sniffedType.name ≠ toLowerCase clientMimeType then
        return .error ("Declared type \"" ++ clientMimeType ++
          "\" does not match the file's actual content (" ++ sniffedType.name ++ ").")
      else
        match ← probeImageDimensions buffer sniffedType with
        | none => return .error "Image header is malformed or missing dimensions."
        | some dimensions =>
          if dimensions.width = 0 ∨ dimensions.height = 0 then
            return .error "Image header is malformed or missing dimensions."
          else if MAX_IMAGE_DIMENSION < dimensions.width ∨ MAX_IMAGE_DIMENSION < dimensions.height ∨
              MAX_IMAGE_PIXELS < dimensions.width * dimensions.height then
            return .error ("Image dimensions " ++ toString dimensions.width ++ "x" ++
              toString dimensions.height ++ " exceed the allowed limits (max " ++
              toString MAX_IMAGE_DIMENSION ++ "px per side, " ++ toString MAX_IMAGE_PIXELS ++
              " total pixels).")
          else return .ok sniffedType

/-- The dimensions that the header of the format gives. -/
def HeaderDimensions (buffer : Buffer) (dims : ImageDimensions) : AllowedImageMimeType → Prop
  | .png => asciiCodes buffer 12 16 = [0x49, 0x48, 0x44, 0x52] ∧
      readUInt32BE buffer 16 = .ok dims.width ∧ readUInt32BE buffer 20 = .ok dims.height
  | .gif => readUInt16LE buffer 6 = .ok dims.width ∧ readUInt16LE buffer 8 = .ok dims.height
  | .jpeg => FirstFrame buffer 2 dims

theorem readBytes_of_le {n : ℕ} (h : offset + n ≤ buffer.length) :
    ∃ bytes, readBytes buffer offset n = .ok bytes := ⟨_, if_pos h⟩

theorem probePng_spec (buffer : Buffer) : ∃ result, probePng buffer = .ok result ∧
    ∀ dims ∈ result, HeaderDimensions buffer dims .png := by
  unfold probePng
  by_cases hshort : buffer.length < 24
  · exact ⟨none, if_pos hshort, fun dims hdims => absurd hdims (Option.not_mem_none dims)⟩
  rw [if_neg hshort]
  by_cases hchunk : asciiCodes buffer 12 16 ≠ [0x49, 0x48, 0x44, 0x52]
  · exact ⟨none, if_pos hchunk, fun dims hdims => absurd hdims (Option.not_mem_none dims)⟩
  obtain ⟨width, hwidth⟩ : ∃ bytes, readBytes buffer 16 4 = .ok bytes :=
    readBytes_of_le (by omega)
  obtain ⟨height, hheight⟩ : ∃ bytes, readBytes buffer 20 4 = .ok bytes :=
    readBytes_of_le (by omega)
  have hw : readUInt32BE buffer 16 = .ok (bigEndian width) := by rw [readUInt32BE, hwidth]; rfl
  have hh : readUInt32BE buffer 20 = .ok (bigEndian height) := by rw [readUInt32BE, hheight]; rfl
  rw [if_neg hchunk, hw, hh]
  refine ⟨some ⟨bigEndian width, bigEndian height⟩, rfl, fun dims hdims => ?_⟩
  rw [← Option.some.inj hdims]
  exact ⟨not_not.mp hchunk, hw, hh⟩

theorem probeGif_spec (buffer : Buffer) : ∃ result, probeGif buffer = .ok result ∧
    ∀ dims ∈ result, HeaderDimensions buffer dims .gif := by
  unfold probeGif
  by_cases hshort : buffer.length < 10
  · exact ⟨none, if_pos hshort, fun dims hdims => absurd hdims (Option.not_mem_none dims)⟩
  obtain ⟨width, hwidth⟩ : ∃ bytes, readBytes buffer 6 2 = .ok bytes :=
    readBytes_of_le (by omega)
  obtain ⟨height, hheight⟩ : ∃ bytes, readBytes buffer 8 2 = .ok bytes :=
    readBytes_of_le (by omega)
  have hw : readUInt16LE buffer 6 = .ok (bigEndian width.reverse) := by
    rw [readUInt16LE, hwidth]
    rfl
  have hh : readUInt16LE buffer 8 = .ok (bigEndian height.reverse) := by
    rw [readUInt16LE, hheight]
    rfl
  rw [if_neg hshort, hw, hh]
  refine ⟨some ⟨bigEndian width.reverse, bigEndian height.reverse⟩, rfl, fun dims hdims => ?_⟩
  rw [← Option.some.inj hdims]
  exact ⟨hw, hh⟩

/-- Every probe reads inside of the buffer. -/
theorem probeImageDimensions_spec (buffer : Buffer) (mimeType : AllowedImageMimeType) :
    ∃ result, probeImageDimensions buffer mimeType = .ok result ∧
      ∀ dims ∈ result, HeaderDimensions buffer dims mimeType := by
  cases mimeType with
  | png => exact probePng_spec buffer
  | gif => exact probeGif_spec buffer
  | jpeg => exact probeJpegFrom_spec buffer 2

/-- The content starts with a full signature of its type. -/
theorem sniffImageMimeType_spec {mimeType : AllowedImageMimeType}
    (h : sniffImageMimeType buffer = some mimeType) :
    ∃ sig ∈ FILE_SIGNATURES, sig.mimeType = mimeType ∧ sig.bytes <+: buffer := by
  obtain ⟨sig, hfind, hmime⟩ := Option.map_eq_some_iff.mp h
  have htest := List.find?_some hfind
  rw [Bool.and_eq_true, beq_iff_eq] at htest
  refine ⟨sig, List.mem_of_find?_eq_some hfind, hmime, ?_⟩
  rw [← htest.2]
  exact List.take_prefix ..

/-- What is known of an upload that is accepted as `mimeType`. -/
structure Accepted (buffer : Buffer) (clientMimeType : String) (mimeType : AllowedImageMimeType)
    (dims : ImageDimensions) : Prop where
  signature : ∃ sig ∈ FILE_SIGNATURES, sig.mimeType = mimeType ∧ sig.bytes <+: buffer
  declared : mimeType.name = toLowerCase clientMimeType
  header : HeaderDimensions buffer dims mimeType
  width : 1 ≤ dims.width ∧ dims.width ≤ 8192
  height : 1 ≤ dims.height ∧ dims.height ≤ 8192
  pixels : dims.width * dims.height ≤ 16777216

/-- For every upload there is an answer, no read leaves the buffer, an accepted upload has a signature and
a header that keep to the limits, and the walk along a JPEG goes forward. -/
theorem validateFileMagicBytes_sound (buffer : Buffer) (clientMimeType : String) :
    (∃ answer, validateFileMagicBytes buffer clientMimeType = .ok answer ∧
      ∀ mimeType, answer = .ok mimeType →
        ∃ dims, Accepted buffer clientMimeType mimeType dims) ∧
      (jpegOffsets buffer 2).Pairwise (· < ·) := by
  refine ⟨?_, (jpegOffsets_increasing buffer 2).1⟩
  -- a refusal accepts nothing, so there is nothing to show about it
  have refused {answer : Read (Except String AllowedImageMimeType)} {error : String}
      (h : answer = .ok (.error error)) : ∃ answer', answer = .ok answer' ∧
        ∀ mimeType, answer' = .ok mimeType →
          ∃ dims, Accepted buffer clientMimeType mimeType dims := by
    refine ⟨_, h, fun mimeType hok => ?_⟩
    cases hok
  unfold validateFileMagicBytes
  by_cases hsmall : buffer.length < MIN_HEADER_BYTES
  · exact refused (if_pos hsmall)
  rw [if_neg hsmall]
  cases hsniff : sniffImageMimeType buffer with
  | none => exact refused rfl
  | some sniffedType =>
    show ∃ answer, (if sniffedType.name ≠ toLowerCase clientMimeType then _ else _) = _ ∧ _
    by_cases hdeclared : sniffedType.name ≠ toLowerCase clientMimeType
    · exact refused (if_pos hdeclared)
    obtain ⟨result, hprobe, hheader⟩ := probeImageDimensions_spec buffer sniffedType
    rw [if_neg hdeclared, hprobe]
    cases result with
    | none => exact refused rfl
    | some dims =>
      show ∃ answer, (if dims.width = 0 ∨ dims.height = 0 then _ else _) = _ ∧ _
      by_cases hzero : dims.width = 0 ∨ dims.height = 0
      · exact refused (if_pos hzero)
      rw [if_neg hzero]
      by_cases hlarge : MAX_IMAGE_DIMENSION < dims.width ∨ MAX_IMAGE_DIMENSION < dims.height ∨
          MAX_IMAGE_PIXELS < dims.width * dims.height
      · exact refused (if_pos hlarge)
      rw [if_neg hlarge]
      refine ⟨_, rfl, fun mimeType hok => ⟨dims, ?_⟩⟩
      rw [← Except.ok.inj hok]
      unfold MAX_IMAGE_DIMENSION MAX_IMAGE_PIXELS at hlarge
      rw [not_or] at hzero
      rw [not_or, not_or, not_lt, not_lt, not_lt] at hlarge
      -- each check that was passed is one field
      exact {
        signature := sniffImageMimeType_spec hsniff
        declared := not_not.mp hdeclared
        header := hheader dims rfl
        width := ⟨Nat.pos_of_ne_zero hzero.1, hlarge.1⟩
        height := ⟨Nat.pos_of_ne_zero hzero.2, hlarge.2.1⟩
        pixels := hlarge.2.2 }

end StellarForge.Ipfs
