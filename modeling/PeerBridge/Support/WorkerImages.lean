import PeerBridge.Support.ClientImages

namespace PeerBridge.Edge
open Images

-- a byte array of the language runtime: its length is a safe integer
structure Uint8Array where
  bytes : Bytes
  bound : bytes.length < 2 ^ 53

def maxImageDimension : Nat := 32768

def maxImagePixels : Nat := 40000000

def isSafeInteger (n : Nat) : Bool := n < 2 ^ 53

-- payload[i], none for undefined
def at? (p : Bytes) (i : Nat) : Option Nat := if i < p.length then some (byteAt p i) else none

-- the bitwise operators read undefined as 0
def bits (v : Option Nat) : Nat := v.getD 0

def readUint16BE (p : Bytes) (i : Nat) : Nat := (bits (at? p i) <<< 8) ||| bits (at? p (i + 1))

def readUint16LE (p : Bytes) (i : Nat) : Nat := bits (at? p i) ||| (bits (at? p (i + 1)) <<< 8)

def readUint24LE (p : Bytes) (i : Nat) : Nat :=
  bits (at? p i) ||| (bits (at? p (i + 1)) <<< 8) ||| (bits (at? p (i + 2)) <<< 16)

-- an undefined factor or summand makes the sum NaN, and NaN >>> 0 is 0
def readUint32BE (p : Bytes) (i : Nat) : Nat :=
  match at? p i, at? p (i + 3) with
  | some a, some d =>
    (a * 0x1000000 + (bits (at? p (i + 1)) <<< 16) + (bits (at? p (i + 2)) <<< 8) + d) % 2 ^ 32
  | _, _ => 0

def readUint32LE (p : Bytes) (i : Nat) : Nat :=
  match at? p i, at? p (i + 3) with
  | some a, some d =>
    (a + (bits (at? p (i + 1)) <<< 8) + (bits (at? p (i + 2)) <<< 16) + d * 0x1000000) % 2 ^ 32
  | _, _ => 0

theorem at?_eq {p : Bytes} {i : Nat} (h : i < p.length) : at? p i = some (byteAt p i) := if_pos h

@[simp] theorem bits_at? (p : Bytes) (i : Nat) : bits (at? p i) = byteAt p i := by
  unfold at?
  split
  · rfl
  · next h => exact (byteAt_ge (Nat.le_of_not_lt h)).symm

theorem shift_or (a b n : Nat) (h : b < 2 ^ n) : (a <<< n) ||| b = a * 2 ^ n + b := by
  rw [← Nat.shiftLeft_add_eq_or_of_lt h, Nat.shiftLeft_eq]

theorem unpackU16BE_eq {p : Bytes} {i : Nat} (h : i + 2 ≤ p.length) :
    ImageValidation.unpackU16BE p i = some (readUint16BE p i) := by
  rw [ImageValidation.unpackU16BE, if_pos h, readUint16BE, bits_at?, bits_at?,
    shift_or _ _ 8 (byteAt_lt p _)]

theorem unpackU16LE_eq {p : Bytes} {i : Nat} (h : i + 2 ≤ p.length) :
    ImageValidation.unpackU16LE p i = some (readUint16LE p i) := by
  rw [ImageValidation.unpackU16LE, if_pos h, readUint16LE, bits_at?, bits_at?, Nat.or_comm,
    shift_or _ _ 8 (byteAt_lt p _), Nat.add_comm]

theorem unpackU32BE_eq {p : Bytes} {i : Nat} (h : i + 4 ≤ p.length) :
    ImageValidation.unpackU32BE p i = some (readUint32BE p i) := by
  have h0 := byteAt_lt p i
  have h1 := byteAt_lt p (i + 1)
  have h2 := byteAt_lt p (i + 2)
  have h3 := byteAt_lt p (i + 3)
  rw [ImageValidation.unpackU32BE, if_pos h, readUint32BE, at?_eq (by omega), at?_eq (by omega)]
  simp only [bits_at?, Nat.shiftLeft_eq]
  congr 1
  omega

theorem unpackU32LE_eq {p : Bytes} {i : Nat} (h : i + 4 ≤ p.length) :
    ImageValidation.unpackU32LE p i = some (readUint32LE p i) := by
  have h0 := byteAt_lt p i
  have h1 := byteAt_lt p (i + 1)
  have h2 := byteAt_lt p (i + 2)
  have h3 := byteAt_lt p (i + 3)
  rw [ImageValidation.unpackU32LE, if_pos h, readUint32LE, at?_eq (by omega), at?_eq (by omega)]
  simp only [bits_at?, Nat.shiftLeft_eq]
  congr 1
  omega

def safeImageDimensions (width height : Nat) : Bool :=
  isSafeInteger width && isSafeInteger height && 0 < width && 0 < height &&
    width ≤ maxImageDimension && height ≤ maxImageDimension && width * height ≤ maxImagePixels

theorem safeImageDimensions_eq (width height : Nat) :
    ImageValidation.dimensionsAreSafe width height = safeImageDimensions width height := by
  rw [Bool.eq_iff_iff]
  unfold ImageValidation.dimensionsAreSafe safeImageDimensions isSafeInteger
    ImageValidation.maxImageDimension ImageValidation.maxImagePixels maxImageDimension
    maxImagePixels
  simp only [Bool.and_eq_true, decide_eq_true_eq]
  constructor
  · rintro ⟨⟨⟨⟨hw, hwm⟩, hh⟩, hhm⟩, hpixels⟩
    exact ⟨⟨⟨⟨⟨⟨by omega, by omega⟩, hw⟩, hh⟩, hwm⟩, hhm⟩, hpixels⟩
  · rintro ⟨⟨⟨⟨⟨_, hw⟩, hh⟩, hwm⟩, hhm⟩, hpixels⟩
    exact ⟨⟨⟨⟨hw, hwm⟩, hh⟩, hhm⟩, hpixels⟩

def startsWithBytes (p : Bytes) (start : List UInt8) : Bool :=
  start.length ≤ p.length && (List.range start.length).all fun i => p.getD i 0 = start.getD i 0

def fromCharCode (p : Bytes) : String := String.ofList (p.map fun b => Char.ofNat b.toNat)

def crc32Table : List (BitVec 32) :=
  (List.range 256).map fun i => Crc.steps 0xedb88320#32 8 (BitVec.ofNat 32 i)

def crc32Byte (value : BitVec 32) (byte : UInt8) : BitVec 32 :=
  (value >>> 8) ^^^
    crc32Table.getD ((value ^^^ byte.toBitVec.setWidth 32) &&& 0xff#32).toNat 0

def crc32 (p : Bytes) : Nat := (p.foldl crc32Byte 0xffffffff#32 ^^^ 0xffffffff#32).toNat

-- a loop step either returns a value or goes on
abbrev Step (σ : Type) := Except Bool σ

def allowedDepths : Nat → Option (List Nat)
  | 0 => some [1, 2, 4, 8, 16]
  | 2 => some [8, 16]
  | 3 => some [1, 2, 4, 8]
  | 4 => some [8, 16]
  | 6 => some [8, 16]
  | _ => none

def headerIsAllowed (p : Bytes) (dataStart : Nat) : Bool :=
  safeImageDimensions (readUint32BE p dataStart) (readUint32BE p (dataStart + 4)) &&
    (((at? p (dataStart + 9)).bind allowedDepths).any fun depths =>
      (at? p (dataStart + 8)).any depths.contains) &&
    at? p (dataStart + 10) = some 0 && at? p (dataStart + 11) = some 0 &&
    (at? p (dataStart + 12) = some 0 || at? p (dataStart + 12) = some 1)

def pngData (p : Bytes) (s : PngState) (type : String) (length chunkEnd : Nat) : Step PngState :=
  if type = "IDAT" && s.dataEnded then .error false
  else
    let sawData := s.sawData || type = "IDAT"
    let dataEnded := s.dataEnded || (s.sawData && type ≠ "IDAT" && type ≠ "IEND")
    if type = "IEND" then
      .error (length = 0 && s.sawHeader && sawData && chunkEnd = p.length)
    else .ok { s with offset := chunkEnd, sawData, dataEnded }

def pngChunk (p : Bytes) (s : PngState) : Step PngState :=
  if p.length - s.offset < 12 then .error false
  else
    let length := readUint32BE p s.offset
    let chunkEnd := s.offset + 12 + length
    if !isSafeInteger chunkEnd || p.length < chunkEnd then .error false
    else
      let typeStart := s.offset + 4
      let dataStart := s.offset + 8
      let dataEnd := dataStart + length
      let type := fromCharCode (slice p typeStart (typeStart + 4))
      if readUint32BE p dataEnd ≠ crc32 (slice p typeStart dataEnd) then .error false
      else if !s.sawHeader then
        if type ≠ "IHDR" || length ≠ 13 then .error false
        else if !headerIsAllowed p dataStart then .error false
        else pngData p { s with sawHeader := true } type length chunkEnd
      else if type = "IHDR" then .error false
      else pngData p s type length chunkEnd

theorem pngData_ok {p : Bytes} {s t : PngState} {type : String} {length chunkEnd : Nat}
    (h : pngData p s type length chunkEnd = .ok t) : t.offset = chunkEnd := by
  simp only [pngData] at h
  split at h
  · cases h
  · split at h
    · cases h
    · cases h
      rfl

theorem pngChunk_advances {p : Bytes} {s t : PngState} (h : pngChunk p s = .ok t) :
    s.offset < t.offset := by
  have hend {length : Nat} : s.offset < s.offset + 12 + length := by omega
  simp only [pngChunk] at h
  split at h
  · cases h
  · split at h
    · cases h
    · split at h
      · cases h
      · split at h
        · split at h
          · cases h
          · split at h
            · cases h
            · exact pngData_ok h ▸ hend
        · split at h
          · cases h
          · exact pngData_ok h ▸ hend

def pngChunks (p : Bytes) : Scan PngState Bool where
  limit := p.length
  pos := PngState.offset
  step := pngChunk p
  finish _ := false
  advances _ _ _ h := pngChunk_advances h

def validatePngPayload (p : Bytes) : Bool :=
  if !startsWithBytes p [0x89, 0x50, 0x4e, 0x47, 0x0d, 0x0a, 0x1a, 0x0a] then false
  else (pngChunks p).run ⟨8, false, false, false⟩

def jpegSofMarkers : List Nat :=
  [0xc0, 0xc1, 0xc2, 0xc3, 0xc5, 0xc6, 0xc7, 0xc9, 0xca, 0xcb, 0xcd, 0xce, 0xcf]

def fillBytes (p : Bytes) : Scan Nat Nat where
  limit := p.length
  pos := id
  step offset := if at? p offset = some 0xff then .ok (offset + 1) else .error offset
  finish offset := offset
  advances s t _ h := by
    split at h
    · cases h
      exact Nat.lt_succ_self _
    · cases h

def entropyStep (p : Bytes) (offset : Nat) : Except (Option Nat) Nat :=
  match findByte p 0xff offset with
  | none => .error none
  | some markerOffset =>
    if p.length ≤ markerOffset + 1 then .error none
    else
      let nextByte := bits (at? p (markerOffset + 1))
      if nextByte = 0x00 || (0xd0 ≤ nextByte && nextByte ≤ 0xd7) then .ok (markerOffset + 2)
      else if nextByte = 0xff then .ok (markerOffset + 1)
      else .error (some markerOffset)

theorem entropyStep_eq (p : Bytes) (i : Nat) :
    entropyStep p i = ImageValidation.entropyStep p i := by
  unfold entropyStep ImageValidation.entropyStep
  cases findByte p 0xff i with
  | none => rfl
  | some j => simp only [bits_at?]

def entropyCoded (p : Bytes) : Scan Nat (Option Nat) where
  limit := p.length
  pos := id
  step := entropyStep p
  finish offset := some offset
  advances _ _ _ h := ImageValidation.entropyStep_advances (entropyStep_eq p _ ▸ h)

theorem entropyCoded_run (p : Bytes) (i : Nat) :
    (ImageValidation.entropyCoded p).run i = (entropyCoded p).run i := by
  refine Scan.run_map (S := entropyCoded p) (T := ImageValidation.entropyCoded p) id rfl rfl (fun j _ => ?_) (fun _ => rfl) i
  show ImageValidation.entropyStep p j = (entropyStep p j).mapError id
  rw [entropyStep_eq]
  cases ImageValidation.entropyStep p j <;> rfl

theorem fillBytes_run (p : Bytes) (i : Nat) :
    (ImageValidation.fillBytes p).run i = (fillBytes p).run i := by
  refine Scan.run_map (S := fillBytes p) (T := ImageValidation.fillBytes p) id rfl rfl (fun j hj => ?_) (fun _ => rfl) i
  have hj : j < p.length := hj
  simp only [ImageValidation.fillBytes, fillBytes, at?_eq hj, Option.some.injEq]
  split <;> rfl

def jpegScan (p : Bytes) (s : JpegState) (marker segmentEnd : Nat) : Step JpegState :=
  if marker ≠ 0xda then .ok { s with offset := segmentEnd }
  else match (entropyCoded p).run segmentEnd with
    | none => .error false
    | some offset => .ok { s with offset, sawScan := true }

def jpegFrame (p : Bytes) (s : JpegState) (marker offset segmentLength : Nat) : Step JpegState :=
  let segmentEnd := offset + segmentLength
  if segmentLength < 2 || p.length < segmentEnd then .error false
  else if jpegSofMarkers.contains marker then
    if segmentLength < 8 then .error false
    else
      let height := readUint16BE p (offset + 3)
      let width := readUint16BE p (offset + 5)
      if !safeImageDimensions width height then .error false
      else jpegScan p { s with sawFrame := true } marker segmentEnd
  else jpegScan p s marker segmentEnd

def jpegSegment (p : Bytes) (s : JpegState) : Step JpegState :=
  if at? p s.offset ≠ some 0xff then .error false
  else
    let offset := (fillBytes p).run s.offset
    match at? p offset with
    | none => .error false
    | some marker =>
      let offset := offset + 1
      if marker = 0xd9 then .error (s.sawFrame && s.sawScan && offset = p.length)
      else if marker = 0x00 || marker = 0xd8 || marker = 0x01 ||
          (0xd0 ≤ marker && marker ≤ 0xd7) then .error false
      else if p.length < offset + 2 then .error false
      else jpegFrame p s marker offset (readUint16BE p offset)

theorem jpegScan_agree (p : Bytes) (s : JpegState) (marker segmentEnd : Nat) :
    ImageValidation.jpegScan p s marker segmentEnd =
      (jpegScan p s marker segmentEnd).mapError some := by
  unfold ImageValidation.jpegScan jpegScan
  rw [entropyCoded_run]
  split
  · rfl
  · cases (entropyCoded p).run segmentEnd <;> rfl

theorem jpegFrame_agree (p : Bytes) (s : JpegState) (marker offset segmentLength : Nat) :
    ImageValidation.jpegFrame p s marker offset segmentLength =
      (jpegFrame p s marker offset segmentLength).mapError some := by
  unfold ImageValidation.jpegFrame jpegFrame
  by_cases h2 : segmentLength < 2
  · simp only [h2, if_true, decide_true, Bool.true_or]
    rfl
  · by_cases hend : p.length < offset + segmentLength
    · simp only [h2, hend, if_false, if_true, decide_true, Bool.or_true]
      rfl
    · simp only [h2, hend, if_false, decide_false, Bool.or_false, Bool.false_eq_true]
      by_cases hsof : jpegSofMarkers.contains marker = true
      · have hsof' : ImageValidation.jpegSofMarkers.contains marker = true := hsof
        by_cases h8 : segmentLength < 8
        · simp only [hsof, hsof', h8, if_true]
          rfl
        · simp only [hsof, hsof', h8, if_true, if_false]
          rw [unpackU16BE_eq (i := offset + 3) (by omega),
            unpackU16BE_eq (i := offset + 5) (by omega)]
          simp only [safeImageDimensions_eq]
          split
          · rfl
          · exact jpegScan_agree p _ marker _
      · have hsof' : ¬ ImageValidation.jpegSofMarkers.contains marker = true := hsof
        simp only [hsof, hsof', if_false, Bool.false_eq_true]
        exact jpegScan_agree p s marker _

theorem jpegSegment_agree {p : Bytes} {s : JpegState} (h : s.offset < p.length) :
    ImageValidation.jpegSegment p s = (jpegSegment p s).mapError some := by
  unfold ImageValidation.jpegSegment jpegSegment
  rw [show ImageValidation.index p s.offset = some (byteAt p s.offset) from if_pos h, at?_eq h,
    fillBytes_run]
  simp only [Option.some.injEq, ne_eq]
  split
  · rfl
  · cases hm : at? p ((fillBytes p).run s.offset) with
    | none =>
      have hm : ImageValidation.index p ((fillBytes p).run s.offset) = none := hm
      simp only [hm]
      rfl
    | some marker =>
      have hm : ImageValidation.index p ((fillBytes p).run s.offset) = some marker := hm
      have hstray : (decide (marker = 0x00) || decide (marker = 0xd8) ||
          (decide (0xd0 ≤ marker) && decide (marker ≤ 0xd7)) || decide (marker = 0x01)) =
          (decide (marker = 0x00) || decide (marker = 0xd8) || decide (marker = 0x01) ||
            (decide (0xd0 ≤ marker) && decide (marker ≤ 0xd7))) := by
        rw [Bool.or_assoc, Bool.or_assoc, Bool.or_assoc, Bool.or_assoc,
          Bool.or_comm (decide (marker = 0x01))]
      simp only [hm, hstray]
      split
      · rfl
      · split
        · rfl
        · split
          · rfl
          · next hfit =>
            rw [unpackU16BE_eq (Nat.le_of_not_lt hfit)]
            exact jpegFrame_agree p s marker _ _

def jpegSegments (p : Bytes) : Scan JpegState Bool where
  limit := p.length
  pos := JpegState.offset
  step := jpegSegment p
  finish _ := false
  advances s t hs h := ImageValidation.jpegSegment_advances (p := p) (by
    rw [jpegSegment_agree hs, h]
    rfl)

def validateJpegPayload (p : Bytes) : Bool :=
  if p.length < 4 || at? p 0 ≠ some 0xff || at? p 1 ≠ some 0xd8 then false
  else (jpegSegments p).run ⟨2, false, false⟩

theorem jpegStart_iff {p : Bytes} (h : ¬ p.length < 4) :
    slice p 0 2 = [0xff, 0xd8] ↔ at? p 0 = some 0xff ∧ at? p 1 = some 0xd8 := by
  match p, h with
  | a :: b :: rest, _ =>
    rw [at?_eq (by simp), at?_eq (by simp)]
    simp [slice, byteAt, ← UInt8.toNat_inj]
  | [_], h => simp at h
  | [], h => simp at h

theorem validateJpeg_agree (p : Bytes) :
    ImageValidation.validateJpeg p = some (validateJpegPayload p) := by
  unfold ImageValidation.validateJpeg validateJpegPayload
  by_cases h4 : p.length < 4
  · simp only [h4, decide_true, Bool.true_or, if_true]
  · have hstart := jpegStart_iff h4
    by_cases hs : slice p 0 2 = [0xff, 0xd8]
    · have hs' := hstart.mp hs
      simp only [h4, hs, hs'.1, hs'.2, decide_false, Bool.false_or, ne_eq, not_true_eq_false,
        Bool.false_eq_true, if_false]
      exact Scan.run_map (S := jpegSegments p) (T := ImageValidation.jpegSegments p) some rfl rfl
        (fun _ h => jpegSegment_agree h) (fun _ => rfl) _
    · have hs' : (decide (at? p 0 ≠ some 0xff) || decide (at? p 1 ≠ some 0xd8)) = true := by
        rw [hstart, not_and_or] at hs
        simpa using hs
      simp only [h4, hs, decide_false, Bool.false_or, ne_eq, not_false_eq_true, decide_true,
        if_true]
      rw [if_pos (by simpa using hs')]

theorem startsWithBytes_eq (p : Bytes) (start : List UInt8) :
    startsWithBytes p start = start.isPrefixOf p := by
  unfold startsWithBytes
  induction start generalizing p with
  | nil => simp
  | cons a start ih =>
    cases p with
    | nil => simp
    | cons b p =>
      have hab : decide (b = a) = (a == b) := by
        rw [Bool.eq_iff_iff, decide_eq_true_eq, beq_iff_eq, eq_comm]
      rw [List.isPrefixOf_cons_cons, ← ih p, List.length_cons, List.length_cons,
        List.range_succ_eq_map, List.all_cons, List.all_map]
      simp [Bool.and_left_comm, Function.comp_def, hab]

theorem byteChar_toNat (b : UInt8) : (Char.ofNat b.toNat).toNat = b.toNat := by
  have hvalid : b.toNat.isValidChar := Or.inl (Nat.lt_trans b.toNat_lt (by decide))
  rw [Char.ofNat, dif_pos hvalid]
  rfl

theorem fromCharCode_inj {a b : Bytes} (h : fromCharCode a = fromCharCode b) : a = b := by
  unfold fromCharCode at h
  have h := String.ofList_injective h
  refine List.map_injective_iff.mpr ?_ h
  intro x y hxy
  have h := congrArg Char.toNat hxy
  simp only [byteChar_toNat] at h
  exact UInt8.toNat_inj.mp h

theorem fromCharCode_eq_iff {a b : Bytes} {t : String} (h : fromCharCode b = t) :
    fromCharCode a = t ↔ a = b :=
  ⟨fun ha => fromCharCode_inj (ha.trans h.symm), fun ha => ha ▸ h⟩

theorem ihdr_iff {a : Bytes} : fromCharCode a = "IHDR" ↔ a = ImageValidation.ihdr :=
  fromCharCode_eq_iff rfl

theorem idat_iff {a : Bytes} : fromCharCode a = "IDAT" ↔ a = ImageValidation.idat :=
  fromCharCode_eq_iff rfl

theorem iend_iff {a : Bytes} : fromCharCode a = "IEND" ↔ a = ImageValidation.iend :=
  fromCharCode_eq_iff rfl

theorem crc32Table_get (v : BitVec 32) :
    crc32Table.getD (v &&& 0xff#32).toNat 0 = Crc.steps 0xedb88320#32 8 (v &&& Crc.mask 32 8) := by
  have hlt : (v &&& 0xff#32).toNat < 256 := by
    rw [BitVec.toNat_and]
    exact Nat.lt_succ_of_le Nat.and_le_right
  have hmask : Crc.mask 32 8 = 0xff#32 := rfl
  rw [crc32Table, List.getD_eq_getElem?_getD, List.getElem?_map, List.getElem?_range hlt, hmask]
  simp

theorem crc32_eq (p : Bytes) : ImageValidation.crc32 p = crc32 p := by
  have hbyte : crc32Byte = Crc.absorb 0xedb88320#32 := by
    funext v byte
    rw [crc32Byte, crc32Table_get, Crc.absorb_table]
  rw [ImageValidation.crc32, Crc.bitwise, crc32, hbyte]

theorem at?_slice {p : Bytes} {i j k : Nat} (hj : j ≤ p.length) (h : i + k < j) :
    at? (slice p i j) k = at? p (i + k) := by
  rw [at?_eq (by rw [slice_length hj]; omega), at?_eq (by omega), byteAt_slice h]

theorem readUint32BE_slice {p : Bytes} {i j k : Nat} (hj : j ≤ p.length) (h : i + k + 4 ≤ j) :
    readUint32BE (slice p i j) k = readUint32BE p (i + k) := by
  simp only [readUint32BE, at?_slice hj (show i + k < j by omega),
    at?_slice hj (show i + (k + 1) < j by omega), at?_slice hj (show i + (k + 2) < j by omega),
    at?_slice hj (show i + (k + 3) < j by omega), Nat.add_assoc]

theorem allowedDepths_eq (color depth : Nat) :
    (ImageValidation.allowedDepths color).contains depth =
      (allowedDepths color).any fun depths => depths.contains depth := by
  unfold ImageValidation.allowedDepths
  split
  · rfl
  · rfl
  · rfl
  · rfl
  · rfl
  · next h0 h2 h3 h4 h6 =>
    have hnone : allowedDepths color = none := by
      unfold allowedDepths
      split <;> first | rfl | contradiction
    rw [hnone]
    rfl

theorem headerIsAllowed_eq {p : Bytes} {i : Nat} (h : i + 13 ≤ p.length) :
    ImageValidation.headerIsAllowed (slice p i (i + 13)) = some (headerIsAllowed p i) := by
  have hlen : (slice p i (i + 13)).length = 13 := by rw [slice_length h]; omega
  have hbyte (k : Nat) (hk : k < 13) : byteAt (slice p i (i + 13)) k = byteAt p (i + k) :=
    byteAt_slice (by omega)
  have hat (k : Nat) (hk : k < 13) : at? p (i + k) = some (byteAt p (i + k)) := at?_eq (by omega)
  unfold ImageValidation.headerIsAllowed headerIsAllowed
  rw [unpackU32BE_eq (i := 0) (by omega), unpackU32BE_eq (i := 4) (by omega),
    readUint32BE_slice h (by omega), readUint32BE_slice h (by omega), hbyte 8 (by omega),
    hbyte 9 (by omega), hbyte 10 (by omega), hbyte 11 (by omega), hbyte 12 (by omega),
    hat 8 (by omega), hat 9 (by omega), hat 10 (by omega), hat 11 (by omega), hat 12 (by omega)]
  simp only [Option.bind_eq_bind, Option.bind_some]
  rw [allowedDepths_eq]
  simp [hlen, safeImageDimensions_eq]

theorem pngData_agree (p : Bytes) (s : PngState) (a : Bytes) (length chunkEnd : Nat) :
    ImageValidation.pngData p s a length chunkEnd =
      (pngData p s (fromCharCode a) length chunkEnd).mapError some := by
  unfold ImageValidation.pngData pngData
  simp only [idat_iff, iend_iff, ne_eq]
  split
  · rfl
  · split <;> rfl

theorem pngChunk_agree {p : Bytes} (hbound : p.length < 2 ^ 53) {s : PngState}
    (h : s.offset < p.length) :
    ImageValidation.pngChunk p s = (pngChunk p s).mapError some := by
  unfold ImageValidation.pngChunk pngChunk
  by_cases hshort : p.length - s.offset < 12
  · rw [if_pos hshort, if_pos hshort]
    rfl
  · rw [if_neg hshort, if_neg hshort, unpackU32BE_eq (by omega)]
    generalize readUint32BE p s.offset = length
    simp only
    by_cases hend : p.length < s.offset + 12 + length
    · rw [if_pos hend, if_pos (by simp [hend])]
      rfl
    · have hsafe : isSafeInteger (s.offset + 12 + length) = true := by
        simp only [isSafeInteger, decide_eq_true_eq]
        omega
      have hguard : ¬ (!isSafeInteger (s.offset + 12 + length) ||
          decide (p.length < s.offset + 12 + length)) = true := by simp [hend, hsafe]
      rw [if_neg hend, if_neg hguard, unpackU32BE_eq (by omega),
        slice_append (by omega) (by omega), crc32_eq]
      simp only
      rw [show s.offset + 4 + 4 = s.offset + 8 from rfl]
      split
      · rfl
      · split
        · simp only [ihdr_iff, ne_eq]
          split
          · rfl
          · next hihdr =>
            have hlength : length = 13 := by
              simp only [Bool.or_eq_true, decide_eq_true_eq, not_or, not_not] at hihdr
              exact hihdr.2
            subst hlength
            rw [headerIsAllowed_eq (by omega)]
            cases headerIsAllowed p (s.offset + 8) with
            | false => rfl
            | true => exact pngData_agree p _ _ _ _
        · simp only [ihdr_iff]
          split
          · rfl
          · exact pngData_agree p _ _ _ _

theorem validatePng_agree {p : Bytes} (hbound : p.length < 2 ^ 53) :
    ImageValidation.validatePng p = some (validatePngPayload p) := by
  unfold ImageValidation.validatePng validatePngPayload
  rw [startsWithBytes_eq]
  by_cases hs : ImageValidation.pngSignature.isPrefixOf p = true
  · simp only [ImageValidation.pngSignature] at hs
    simp only [ImageValidation.pngSignature, hs, Bool.not_true, Bool.false_eq_true, if_false]
    exact Scan.run_map (S := pngChunks p) (T := ImageValidation.pngChunks p) some rfl rfl
      (fun _ h => pngChunk_agree hbound h) (fun _ => rfl) _
  · simp only [ImageValidation.pngSignature] at hs
    simp only [ImageValidation.pngSignature, hs, Bool.not_false, if_true]

-- none is the -1 the source returns
def subBlocks (p : Bytes) : Scan Nat (Option Nat) where
  limit := p.length
  pos := id
  step offset :=
    let length := bits (at? p offset)
    if length = 0 then .error (some (offset + 1))
    else if p.length < offset + 1 + length then .error none
    else .ok (offset + 1 + length)
  finish _ := none
  advances s t hs h := (ImageValidation.subBlocks p).advances s t hs (by
    simp only [bits_at?] at h
    exact h)

def skipGifSubBlocks (p : Bytes) (start : Nat) : Option Nat := (subBlocks p).run start

theorem skipGifSubBlocks_eq (p : Bytes) (i : Nat) :
    ImageValidation.skipGifSubBlocks p i = skipGifSubBlocks p i := by
  refine Scan.run_map (S := subBlocks p) (T := ImageValidation.subBlocks p) id rfl rfl
    (fun j _ => ?_) (fun _ => rfl) i
  simp only [ImageValidation.subBlocks, subBlocks, bits_at?]
  split
  · rfl
  · split <;> rfl

def colorTable (packed : Nat) : Nat :=
  if packed &&& 0x80 ≠ 0 then 3 * 2 ^ ((packed &&& 0x07) + 1) else 0

def gifImage (p : Bytes) (offset : Nat) : Step GifState :=
  if !safeImageDimensions (readUint16LE p (offset + 4)) (readUint16LE p (offset + 6)) then
    .error false
  else
    let offset := offset + 9 + colorTable (bits (at? p (offset + 8)))
    if p.length ≤ offset then .error false
    else match skipGifSubBlocks p (offset + 1) with
      | none => .error false
      | some offset => .ok ⟨offset, true⟩

def gifBlock (p : Bytes) (s : GifState) : Step GifState :=
  let introducer := at? p s.offset
  let offset := s.offset + 1
  if introducer = some 0x3b then .error (s.sawImage && offset = p.length)
  else if introducer = some 0x21 then
    if p.length ≤ offset then .error false
    else match skipGifSubBlocks p (offset + 1) with
      | none => .error false
      | some offset => .ok { s with offset }
  else if introducer ≠ some 0x2c || p.length < offset + 9 then .error false
  else gifImage p offset

theorem gifImage_agree {p : Bytes} {offset : Nat} (h : offset + 9 ≤ p.length) :
    ImageValidation.gifImage p offset = (gifImage p offset).mapError some := by
  have hpacked : ImageValidation.index p (offset + 8) = some (byteAt p (offset + 8)) :=
    if_pos (by omega)
  unfold ImageValidation.gifImage gifImage
  rw [unpackU16LE_eq (by omega), unpackU16LE_eq (by omega), hpacked]
  simp only [safeImageDimensions_eq, bits_at?, skipGifSubBlocks_eq]
  split
  · rfl
  · rw [show ImageValidation.colorTable = colorTable from rfl]
    split
    · rfl
    · cases skipGifSubBlocks p _ <;> rfl

theorem gifBlock_agree {p : Bytes} {s : GifState} (h : s.offset < p.length) :
    ImageValidation.gifBlock p s = (gifBlock p s).mapError some := by
  unfold ImageValidation.gifBlock gifBlock
  rw [show ImageValidation.index p s.offset = some (byteAt p s.offset) from if_pos h, at?_eq h]
  simp only [Option.some.injEq, ne_eq, skipGifSubBlocks_eq]
  split
  · rfl
  · split
    · split
      · rfl
      · cases skipGifSubBlocks p _ <;> rfl
    · split
      · rfl
      · next hblock =>
        refine gifImage_agree ?_
        simp only [Bool.or_eq_true, decide_eq_true_eq, not_or] at hblock
        omega

def gifBlocks (p : Bytes) : Scan GifState Bool where
  limit := p.length
  pos := GifState.offset
  step := gifBlock p
  finish _ := false
  advances s t hs h := ImageValidation.gifBlock_advances (p := p) (by
    rw [gifBlock_agree hs, h]
    rfl)

def validateGifPayload (p : Bytes) : Bool :=
  if !(startsWithBytes p [0x47, 0x49, 0x46, 0x38, 0x37, 0x61] ||
      startsWithBytes p [0x47, 0x49, 0x46, 0x38, 0x39, 0x61]) || p.length < 14 then false
  else if !safeImageDimensions (readUint16LE p 6) (readUint16LE p 8) then false
  else (gifBlocks p).run ⟨13 + colorTable (bits (at? p 10)), false⟩

theorem startsWith_slice {p start : Bytes} {n : Nat} (hn : start.length = n) :
    startsWithBytes p start = decide (slice p 0 n = start) := by
  subst hn
  rw [startsWithBytes_eq, Bool.eq_iff_iff, List.isPrefixOf_iff_prefix, decide_eq_true_eq,
    List.prefix_iff_eq_take, eq_comm]
  rfl

theorem validateGif_agree (p : Bytes) :
    ImageValidation.validateGif p = some (validateGifPayload p) := by
  unfold ImageValidation.validateGif validateGifPayload
  rw [startsWith_slice (n := 6) rfl, startsWith_slice (n := 6) rfl]
  have hheader : (decide (p.length < 14) ||
      (decide (slice p 0 6 ≠ ImageValidation.gif87a) &&
        decide (slice p 0 6 ≠ ImageValidation.gif89a))) =
      (!(decide (slice p 0 6 = [0x47, 0x49, 0x46, 0x38, 0x37, 0x61]) ||
        decide (slice p 0 6 = [0x47, 0x49, 0x46, 0x38, 0x39, 0x61])) || decide (p.length < 14)) := by
    rw [Bool.not_or, Bool.or_comm, ← decide_not, ← decide_not]
    rfl
  rw [hheader]
  split
  · rfl
  · next h =>
    have hlen : ¬ p.length < 14 := by
      simp only [Bool.or_eq_true, decide_eq_true_eq, not_or] at h
      exact h.2
    have hpacked : ImageValidation.index p 10 = some (byteAt p 10) := if_pos (by omega)
    rw [unpackU16LE_eq (by omega), unpackU16LE_eq (by omega), hpacked, bits_at?]
    simp only [safeImageDimensions_eq]
    split
    · rfl
    · exact Scan.run_map (S := gifBlocks p) (T := ImageValidation.gifBlocks p) some rfl rfl
        (fun _ h => gifBlock_agree h) (fun _ => rfl) _

def webpData (p : Bytes) (s : WebpState) (type : String) (length dataStart : Nat) :
    Step WebpState :=
  if type = "VP8X" then
    if length ≠ 10 then .error false
    else .ok { s with
      dimensions := some (readUint24LE p (dataStart + 4) + 1, readUint24LE p (dataStart + 7) + 1) }
  else if type = "VP8 " then
    if length < 10 || at? p (dataStart + 3) ≠ some 0x9d || at? p (dataStart + 4) ≠ some 0x01 ||
        at? p (dataStart + 5) ≠ some 0x2a then .error false
    else .ok { s with
      dimensions :=
        some (readUint16LE p (dataStart + 6) &&& 0x3fff, readUint16LE p (dataStart + 8) &&& 0x3fff)
      sawImageData := true }
  else if type = "VP8L" then
    if length < 5 || at? p dataStart ≠ some 0x2f then .error false
    else
      let bits := readUint32LE p (dataStart + 1)
      .ok { s with
        dimensions := some ((bits &&& 0x3fff) + 1, ((bits >>> 14) &&& 0x3fff) + 1)
        sawImageData := true }
  else if type = "ANMF" then
    if length < 16 then .error false
    else if !safeImageDimensions (readUint24LE p (dataStart + 6) + 1)
        (readUint24LE p (dataStart + 9) + 1) then .error false
    else .ok { s with sawImageData := true }
  else .ok s

def webpChunk (p : Bytes) (s : WebpState) : Step WebpState :=
  if p.length < s.offset + 8 then .error false
  else
    let type := fromCharCode (slice p s.offset (s.offset + 4))
    let length := readUint32LE p (s.offset + 4)
    let dataStart := s.offset + 8
    let dataEnd := dataStart + length
    let paddedEnd := dataEnd + (length &&& 1)
    if !isSafeInteger paddedEnd || p.length < paddedEnd then .error false
    else match webpData p s type length dataStart with
      | .error r => .error r
      | .ok t => .ok { t with offset := paddedEnd }

theorem vp8x_iff {a : Bytes} : fromCharCode a = "VP8X" ↔ a = ImageValidation.vp8x :=
  fromCharCode_eq_iff rfl

theorem vp8_iff {a : Bytes} : fromCharCode a = "VP8 " ↔ a = ImageValidation.vp8 :=
  fromCharCode_eq_iff rfl

theorem vp8l_iff {a : Bytes} : fromCharCode a = "VP8L" ↔ a = ImageValidation.vp8l :=
  fromCharCode_eq_iff rfl

theorem anmf_iff {a : Bytes} : fromCharCode a = "ANMF" ↔ a = ImageValidation.anmf :=
  fromCharCode_eq_iff rfl

theorem readUint16LE_slice {p : Bytes} {i j k : Nat} (hj : j ≤ p.length) (h : i + k + 2 ≤ j) :
    readUint16LE (slice p i j) k = readUint16LE p (i + k) := by
  simp only [readUint16LE, at?_slice hj (show i + k < j by omega),
    at?_slice hj (show i + (k + 1) < j by omega), Nat.add_assoc]

theorem readUint32LE_slice {p : Bytes} {i j k : Nat} (hj : j ≤ p.length) (h : i + k + 4 ≤ j) :
    readUint32LE (slice p i j) k = readUint32LE p (i + k) := by
  simp only [readUint32LE, at?_slice hj (show i + k < j by omega),
    at?_slice hj (show i + (k + 1) < j by omega), at?_slice hj (show i + (k + 2) < j by omega),
    at?_slice hj (show i + (k + 3) < j by omega), Nat.add_assoc]

theorem uint24LE_slice {p : Bytes} {i j k : Nat} (hj : j ≤ p.length) (h : i + k + 3 ≤ j) :
    ImageValidation.uint24LE (slice (slice p i j) k (k + 3)) = some (readUint24LE p (i + k)) := by
  rw [slice_slice (by omega)]
  have hlen : (slice p (i + k) (i + (k + 3))).length = 3 := by
    rw [slice_length (by omega)]
    omega
  simp only [ImageValidation.uint24LE, hlen, ne_eq, not_true_eq_false, if_false, readUint24LE,
    bits_at?]
  rw [byteAt_slice (by omega), byteAt_slice (by omega), byteAt_slice (by omega)]
  rfl

theorem at?_getElem {p : Bytes} {i : Nat} (h : i < p.length) : at? p i = some p[i].toNat := by
  rw [at?_eq h, byteAt, List.getD_eq_getElem?_getD, List.getElem?_eq_getElem h]
  rfl

theorem slice_three {p : Bytes} {i : Nat} (h : i + 3 ≤ p.length) (a b c : UInt8) :
    slice p i (i + 3) = [a, b, c] ↔ at? p i = some a.toNat ∧ at? p (i + 1) = some b.toNat ∧
      at? p (i + 2) = some c.toNat := by
  have hslice : slice p i (i + 3) = [p[i], p[i + 1], p[i + 2]] := by
    rw [slice, List.drop_eq_getElem_cons (by omega), List.drop_eq_getElem_cons (by omega),
      List.drop_eq_getElem_cons (by omega), show i + 3 - i = 3 by omega]
    rfl
  rw [hslice, at?_getElem (by omega), at?_getElem (by omega), at?_getElem (by omega)]
  simp only [List.cons.injEq, and_true, Option.some.injEq, UInt8.toNat_inj]

theorem vp8Start_iff {p : Bytes} {i j : Nat} (hj : j ≤ p.length) (h : i + 10 ≤ j) :
    slice (slice p i j) 3 6 = [0x9d, 0x01, 0x2a] ↔
      at? p (i + 3) = some 0x9d ∧ at? p (i + 4) = some 0x01 ∧ at? p (i + 5) = some 0x2a := by
  rw [slice_slice (by omega)]
  exact slice_three (i := i + 3) (by omega) 0x9d 0x01 0x2a

theorem webpData_agree {p : Bytes} (s : WebpState) (a : Bytes) {i length : Nat}
    (h : i + length ≤ p.length) :
    ImageValidation.webpData s a (slice p i (i + length)) =
      (webpData p s (fromCharCode a) length i).mapError some := by
  have hlen : (slice p i (i + length)).length = length := by rw [slice_length h]; omega
  unfold ImageValidation.webpData webpData
  simp only [vp8x_iff, vp8_iff, vp8l_iff, anmf_iff, hlen]
  split
  · split
    · rfl
    · next h10 =>
      have h10 : length = 10 := not_not.mp h10
      rw [uint24LE_slice (k := 4) h (by omega), uint24LE_slice (k := 7) h (by omega)]
      rfl
  · split
    · by_cases h10 : length < 10
      · simp only [h10, decide_true, Bool.true_or, if_true]
        rfl
      · simp only [h10, decide_false, Bool.false_or]
        have hstart := vp8Start_iff h (show i + 10 ≤ i + length by omega)
        by_cases hs : slice (slice p i (i + length)) 3 6 = [0x9d, 0x01, 0x2a]
        · have hs' := hstart.mp hs
          simp only [hs, hs'.1, hs'.2.1, hs'.2.2, ne_eq, not_true_eq_false, decide_false,
            Bool.or_false, Bool.false_eq_true, if_false]
          rw [unpackU16LE_eq (by omega), unpackU16LE_eq (by omega),
            readUint16LE_slice h (by omega), readUint16LE_slice h (by omega)]
          rfl
        · have hs' : (decide (at? p (i + 3) ≠ some 0x9d) || decide (at? p (i + 4) ≠ some 0x01) ||
              decide (at? p (i + 5) ≠ some 0x2a)) = true := by
            rw [hstart, not_and_or, not_and_or, ← or_assoc] at hs
            simpa using hs
          rw [if_pos (by simpa using hs), if_pos hs']
          rfl
    · split
      · by_cases h5 : length < 5
        · simp only [h5, decide_true, Bool.true_or, if_true]
          rfl
        · have hfirst : ImageValidation.index (slice p i (i + length)) 0 = at? p i :=
            at?_slice h (by omega)
          simp only [h5, decide_false, Bool.false_or, hfirst]
          split
          · rfl
          · rw [unpackU32LE_eq (by omega), readUint32LE_slice h (by omega)]
            rfl
      · split
        · split
          · rfl
          · next h16 =>
            rw [uint24LE_slice (k := 6) h (by omega), uint24LE_slice (k := 9) h (by omega)]
            simp only [safeImageDimensions_eq]
            split <;> rfl
        · rfl

theorem webpChunk_agree {p : Bytes} (hbound : p.length < 2 ^ 53) (s : WebpState) :
    ImageValidation.webpChunk p s = (webpChunk p s).mapError some := by
  unfold ImageValidation.webpChunk webpChunk
  by_cases hshort : p.length < s.offset + 8
  · rw [if_pos hshort, if_pos hshort]
    rfl
  · rw [if_neg hshort, if_neg hshort, unpackU32LE_eq (by omega)]
    generalize readUint32LE p (s.offset + 4) = length
    simp only
    by_cases hend : p.length < s.offset + 8 + length + (length &&& 1)
    · rw [if_pos (by simp only [hend, decide_true, Bool.or_true]),
        if_pos (by simp only [hend, decide_true, Bool.or_true])]
      rfl
    · have hdata : ¬ p.length < s.offset + 8 + length := by omega
      have hsafe : isSafeInteger (s.offset + 8 + length + (length &&& 1)) = true := by
        simp only [isSafeInteger, decide_eq_true_eq]
        omega
      rw [if_neg (by simp only [hend, hdata, decide_false, Bool.or_false]; decide),
        if_neg (by simp only [hend, hsafe, decide_false, Bool.not_true, Bool.or_false]; decide),
        webpData_agree s _ (by omega)]
      cases webpData p s _ length (s.offset + 8) <;> rfl

def webpChunks (p : Uint8Array) : Scan WebpState Bool where
  limit := p.bytes.length
  pos := WebpState.offset
  step := webpChunk p.bytes
  finish s := s.offset = p.bytes.length &&
    s.dimensions.any (fun d => safeImageDimensions d.1 d.2) && s.sawImageData
  advances s t _ h := ImageValidation.webpChunk_advances (p := p.bytes) (by
    rw [webpChunk_agree p.bound, h]
    rfl)

def validateWebpPayload (p : Uint8Array) : Bool :=
  if p.bytes.length < 20 || !startsWithBytes p.bytes [0x52, 0x49, 0x46, 0x46] ||
      fromCharCode (slice p.bytes 8 12) ≠ "WEBP" ||
      readUint32LE p.bytes 4 + 8 ≠ p.bytes.length then false
  else (webpChunks p).run ⟨12, none, false⟩

theorem webp_iff {a : Bytes} : fromCharCode a = "WEBP" ↔ a = ImageValidation.webp :=
  fromCharCode_eq_iff rfl

theorem validateWebp_agree (p : Uint8Array) :
    ImageValidation.validateWebp p.bytes = some (validateWebpPayload p) := by
  unfold ImageValidation.validateWebp validateWebpPayload
  rw [startsWith_slice (n := 4) rfl]
  by_cases hstart : p.bytes.length < 20 ∨ slice p.bytes 0 4 ≠ ImageValidation.riff ∨
      slice p.bytes 8 12 ≠ ImageValidation.webp
  · have hclient : (decide (p.bytes.length < 20) ||
        decide (slice p.bytes 0 4 ≠ ImageValidation.riff) ||
        decide (slice p.bytes 8 12 ≠ ImageValidation.webp)) = true := by
      simpa [or_assoc] using hstart
    have hworker : (decide (p.bytes.length < 20) ||
        !decide (slice p.bytes 0 4 = [0x52, 0x49, 0x46, 0x46]) ||
        decide (fromCharCode (slice p.bytes 8 12) ≠ "WEBP") ||
        decide (readUint32LE p.bytes 4 + 8 ≠ p.bytes.length)) = true := by
      rw [Bool.or_eq_true]
      refine .inl ?_
      simpa [webp_iff, or_assoc, ImageValidation.riff] using hstart
    rw [if_pos hclient, if_pos hworker]
  · simp only [not_or, ne_eq, not_not] at hstart
    obtain ⟨hlen, hriff, hwebp⟩ := hstart
    have hsize := unpackU32LE_eq (p := p.bytes) (i := 4) (by omega)
    simp only [hlen, hriff, hwebp, webp_iff, hsize, ImageValidation.riff, ne_eq,
      not_true_eq_false, decide_false, decide_true, Bool.not_true, Bool.or_false, Bool.false_or,
      Bool.false_eq_true, if_false, decide_eq_true_eq]
    split
    · rfl
    · exact Scan.run_map (S := webpChunks p) (T := ImageValidation.webpChunks p.bytes) some rfl rfl
        (fun s _ => webpChunk_agree p.bound s) (fun s => by
          simp only [ImageValidation.webpChunks, webpChunks, ImageValidation.webpResult,
            safeImageDimensions_eq]) _

def endsWith (name ending : String) : Bool := ending.toList.isSuffixOf name.toList

variable (decodes : String → Bytes → Bool)

-- decodes is decodeTextAttachment, which the names of images never reach
def attachmentPayloadIsValid (name : String) (p : Uint8Array) : Bool :=
  if endsWith name ".png" then validatePngPayload p.bytes
  else if endsWith name ".jpg" || endsWith name ".jpeg" then validateJpegPayload p.bytes
  else if endsWith name ".gif" then validateGifPayload p.bytes
  else if endsWith name ".webp" then validateWebpPayload p
  else (endsWith name ".json" || endsWith name ".log" || endsWith name ".txt") &&
    decodes name p.bytes

inductive ImageSuffix where
  | png | jpg | jpeg | gif | webp
deriving DecidableEq

def ImageSuffix.text : ImageSuffix → String
  | .png => ".png"
  | .jpg => ".jpg"
  | .jpeg => ".jpeg"
  | .gif => ".gif"
  | .webp => ".webp"

def ImageSuffix.client (k : ImageSuffix) (p : Bytes) : Option Bool :=
  match k with
  | .png => ImageValidation.validatePng p
  | .jpg => ImageValidation.validateJpeg p
  | .jpeg => ImageValidation.validateJpeg p
  | .gif => ImageValidation.validateGif p
  | .webp => ImageValidation.validateWebp p

theorem client_eq (k : ImageSuffix) (p : Bytes) :
    ImageValidation.imagePayloadIsValid k.text p = k.client p := by
  have hlower : lower k.text = k.text := by cases k <;> decide +kernel
  unfold ImageValidation.imagePayloadIsValid
  rw [hlower]
  cases k <;> rfl

theorem endsWith_append (stem ending suffix : String) (h : ending.length ≤ suffix.length) :
    endsWith (stem ++ suffix) ending = endsWith suffix ending := by
  unfold endsWith
  rw [Bool.eq_iff_iff, List.isSuffixOf_iff_suffix, List.isSuffixOf_iff_suffix,
    String.toList_append]
  constructor
  · intro hs
    exact List.suffix_of_suffix_length_le hs (List.suffix_append _ _)
      (by rwa [String.length_toList, String.length_toList])
  · exact fun hs => hs.trans (List.suffix_append _ _)

theorem endsWith_last {stem ending suffix : String} {c d : Char}
    (hs : suffix.toList.getLast? = some c) (he : ending.toList.getLast? = some d) (hcd : c ≠ d) :
    endsWith (stem ++ suffix) ending = false := by
  refine Bool.eq_false_iff.mpr fun h => ?_
  unfold endsWith at h
  rw [List.isSuffixOf_iff_suffix, String.toList_append] at h
  obtain ⟨front, hfront⟩ := h
  have hlast := congrArg List.getLast? hfront
  rw [List.getLast?_append, List.getLast?_append, hs, he] at hlast
  exact hcd (Option.some.inj hlast).symm

theorem worker_eq (k : ImageSuffix) (stem : String) (p : Uint8Array) :
    k.client p.bytes = some (attachmentPayloadIsValid decodes (stem ++ k.text) p) := by
  unfold attachmentPayloadIsValid
  cases k with
  | png =>
    simp only [ImageSuffix.text, endsWith_append stem ".png" ".png" (by decide)]
    rw [if_pos (by decide)]
    exact validatePng_agree p.bound
  | jpg =>
    simp only [ImageSuffix.text, endsWith_append stem ".png" ".jpg" (by decide),
      endsWith_append stem ".jpg" ".jpg" (by decide)]
    rw [if_neg (by decide), if_pos (Bool.or_eq_true_iff.mpr (.inl (by decide)))]
    exact validateJpeg_agree p.bytes
  | jpeg =>
    simp only [ImageSuffix.text, endsWith_append stem ".png" ".jpeg" (by decide),
      endsWith_append stem ".jpeg" ".jpeg" (by decide)]
    rw [if_neg (by decide), if_pos (Bool.or_eq_true_iff.mpr (.inr (by decide)))]
    exact validateJpeg_agree p.bytes
  | gif =>
    have hlast : ".gif".toList.getLast? = some 'f' := by decide
    simp only [ImageSuffix.text, endsWith_append stem ".gif" ".gif" (by decide),
      @endsWith_last _ ".png" _ _ 'g' hlast (by decide) (by decide),
      @endsWith_last _ ".jpg" _ _ 'g' hlast (by decide) (by decide),
      @endsWith_last _ ".jpeg" _ _ 'g' hlast (by decide) (by decide)]
    exact validateGif_agree p.bytes
  | webp =>
    have hlast : ".webp".toList.getLast? = some 'p' := by decide
    simp only [ImageSuffix.text, endsWith_append stem ".webp" ".webp" (by decide),
      @endsWith_last _ ".png" _ _ 'g' hlast (by decide) (by decide),
      @endsWith_last _ ".jpg" _ _ 'g' hlast (by decide) (by decide),
      @endsWith_last _ ".jpeg" _ _ 'g' hlast (by decide) (by decide),
      @endsWith_last _ ".gif" _ _ 'f' hlast (by decide) (by decide)]
    exact validateWebp_agree p

-- the client's validator never raises and answers as the worker's does
theorem image_validators_agree (k : ImageSuffix) (stem : String) (p : Uint8Array) :
    ImageValidation.imagePayloadIsValid k.text p.bytes =
      some (attachmentPayloadIsValid decodes (stem ++ k.text) p) := by
  rw [client_eq, worker_eq]

end PeerBridge.Edge
