import PeerBridge.Lib.Crc
import PeerBridge.Lib.Scan
import PeerBridge.Text

namespace PeerBridge.Images

abbrev Bytes := List UInt8

-- the byte at an offset, 0 past the end
def byteAt (p : Bytes) (i : Nat) : Nat := (p.getD i 0).toNat

def slice (p : Bytes) (i j : Nat) : Bytes := (p.drop i).take (j - i)

def findByte (p : Bytes) (b : UInt8) (i : Nat) : Option Nat :=
  ((p.drop i).findIdx? (· = b)).map (i + ·)

theorem byteAt_lt (p : Bytes) (i : Nat) : byteAt p i < 256 := UInt8.toNat_lt _

theorem byteAt_ge {p : Bytes} {i : Nat} (h : p.length ≤ i) : byteAt p i = 0 := by
  rw [byteAt, List.getD_eq_getElem?_getD, List.getElem?_eq_none h]
  rfl

theorem slice_length {p : Bytes} {i j : Nat} (h : j ≤ p.length) :
    (slice p i j).length = j - i := by
  rw [slice, List.length_take, List.length_drop]
  omega

theorem byteAt_slice {p : Bytes} {i j k : Nat} (h : i + k < j) :
    byteAt (slice p i j) k = byteAt p (i + k) := by
  unfold byteAt slice
  rw [List.getD_eq_getElem?_getD, List.getD_eq_getElem?_getD,
    List.getElem?_take_of_lt (by omega), List.getElem?_drop]

theorem slice_append {p : Bytes} {i j k : Nat} (hij : i ≤ j) (hjk : j ≤ k) :
    slice p i j ++ slice p j k = slice p i k := by
  unfold slice
  have hj : p.drop j = (p.drop i).drop (j - i) := by rw [List.drop_drop]; congr 1; omega
  have hk : k - i = (j - i) + (k - j) := by omega
  rw [hj, hk, List.take_add]

theorem slice_slice {p : Bytes} {i j a b : Nat} (h : i + b ≤ j) :
    slice (slice p i j) a b = slice p (i + a) (i + b) := by
  unfold slice
  rw [List.drop_take, List.drop_drop, List.take_take]
  congr 1
  omega

-- the variables of the four loops, the same in both programs
structure PngState where
  offset : Nat
  sawHeader : Bool
  sawData : Bool
  dataEnded : Bool

structure JpegState where
  offset : Nat
  sawFrame : Bool
  sawScan : Bool

structure GifState where
  offset : Nat
  sawImage : Bool

structure WebpState where
  offset : Nat
  dimensions : Option (Nat × Nat)
  sawImageData : Bool

theorem findByte_ge {p : Bytes} {b : UInt8} {i j : Nat} (h : findByte p b i = some j) :
    i ≤ j := by
  unfold findByte at h
  obtain ⟨k, _, rfl⟩ := Option.map_eq_some_iff.mp h
  exact Nat.le_add_right _ _

end PeerBridge.Images

namespace PeerBridge.ImageValidation
open Images

def maxImageDimension : Nat := 32768

def maxImagePixels : Nat := 40000000

def dimensionsAreSafe (width height : Nat) : Bool :=
  0 < width && width ≤ maxImageDimension && 0 < height && height ≤ maxImageDimension &&
    width * height ≤ maxImagePixels

-- a loop step either returns a value, raises (none), or goes on
abbrev Step (σ : Type) := Except (Option Bool) σ

variable {σ : Type}

def give (b : Bool) : Step σ := .error (some b)

def raise : Step σ := .error none

-- struct.unpack_from raises when the payload is too short, indexing past the end raises too
def index (p : Bytes) (i : Nat) : Option Nat := if i < p.length then some (byteAt p i) else none

def unpackU32BE (p : Bytes) (i : Nat) : Option Nat :=
  if i + 4 ≤ p.length then
    some (byteAt p i * 2 ^ 24 + byteAt p (i + 1) * 2 ^ 16 + byteAt p (i + 2) * 2 ^ 8 +
      byteAt p (i + 3))
  else none

def unpackU32LE (p : Bytes) (i : Nat) : Option Nat :=
  if i + 4 ≤ p.length then
    some (byteAt p i + byteAt p (i + 1) * 2 ^ 8 + byteAt p (i + 2) * 2 ^ 16 +
      byteAt p (i + 3) * 2 ^ 24)
  else none

def unpackU16BE (p : Bytes) (i : Nat) : Option Nat :=
  if i + 2 ≤ p.length then some (byteAt p i * 2 ^ 8 + byteAt p (i + 1)) else none

def unpackU16LE (p : Bytes) (i : Nat) : Option Nat :=
  if i + 2 ≤ p.length then some (byteAt p i + byteAt p (i + 1) * 2 ^ 8) else none

def crc32 (data : Bytes) : Nat :=
  (Crc.bitwise (0xedb88320#32) (0xffffffff#32) data ^^^ 0xffffffff#32).toNat

def allowedDepths : Nat → List Nat
  | 0 => [1, 2, 4, 8, 16]
  | 2 => [8, 16]
  | 3 => [1, 2, 4, 8]
  | 4 => [8, 16]
  | 6 => [8, 16]
  | _ => []

def ihdr : Bytes := [73, 72, 68, 82]

def idat : Bytes := [73, 68, 65, 84]

def iend : Bytes := [73, 69, 78, 68]

-- struct.unpack(">IIBBBBB", chunk_data)
def headerIsAllowed (data : Bytes) : Option Bool :=
  if data.length ≠ 13 then none
  else do
    let width ← unpackU32BE data 0
    let height ← unpackU32BE data 4
    some (dimensionsAreSafe width height &&
      (allowedDepths (byteAt data 9)).contains (byteAt data 8) &&
      byteAt data 10 = 0 && byteAt data 11 = 0 && (byteAt data 12 = 0 || byteAt data 12 = 1))

def pngData (p : Bytes) (s : PngState) (chunkType : Bytes) (length chunkEnd : Nat) :
    Step PngState :=
  if chunkType = idat && s.dataEnded then give false
  else
    let sawData := s.sawData || chunkType = idat
    let dataEnded := s.dataEnded || (s.sawData && chunkType ≠ idat && chunkType ≠ iend)
    if chunkType = iend then
      give (length = 0 && s.sawHeader && sawData && chunkEnd = p.length)
    else .ok { s with offset := chunkEnd, sawData, dataEnded }

def pngChunk (p : Bytes) (s : PngState) : Step PngState :=
  if p.length - s.offset < 12 then give false
  else match unpackU32BE p s.offset with
    | none => raise
    | some length =>
      let chunkEnd := s.offset + 12 + length
      if p.length < chunkEnd then give false
      else
        let chunkType := slice p (s.offset + 4) (s.offset + 8)
        let chunkData := slice p (s.offset + 8) (s.offset + 8 + length)
        match unpackU32BE p (s.offset + 8 + length) with
        | none => raise
        | some expectedCrc =>
          if expectedCrc ≠ crc32 (chunkType ++ chunkData) then give false
          else if !s.sawHeader then
            if chunkType ≠ ihdr || length ≠ 13 then give false
            else match headerIsAllowed chunkData with
              | none => raise
              | some false => give false
              | some true => pngData p { s with sawHeader := true } chunkType length chunkEnd
          else if chunkType = ihdr then give false
          else pngData p s chunkType length chunkEnd

theorem pngData_ok {p : Bytes} {s t : PngState} {chunkType : Bytes} {length chunkEnd : Nat}
    (h : pngData p s chunkType length chunkEnd = .ok t) : t.offset = chunkEnd := by
  simp only [pngData] at h
  split at h
  · cases h
  · split at h
    · cases h
    · cases h
      rfl

theorem pngChunk_advances {p : Bytes} {s t : PngState} (h : pngChunk p s = .ok t) :
    s.offset < t.offset := by
  have hend {length : Nat} : s.offset < s.offset + 12 + length := by omega
  simp only [pngChunk] at h
  split at h
  · cases h
  · split at h
    · cases h
    · split at h
      · cases h
      · split at h
        · cases h
        · split at h
          · cases h
          · split at h
            · split at h
              · cases h
              · split at h
                · cases h
                · cases h
                · exact pngData_ok h ▸ hend
            · split at h
              · cases h
              · exact pngData_ok h ▸ hend

def pngChunks (p : Bytes) : Scan PngState (Option Bool) where
  limit := p.length
  pos := PngState.offset
  step := pngChunk p
  finish _ := some false
  advances _ _ _ h := pngChunk_advances h

def pngSignature : Bytes := [0x89, 0x50, 0x4e, 0x47, 0x0d, 0x0a, 0x1a, 0x0a]

def validatePng (p : Bytes) : Option Bool :=
  if !pngSignature.isPrefixOf p then some false
  else (pngChunks p).run ⟨8, false, false, false⟩

def jpegSofMarkers : List Nat :=
  [0xc0, 0xc1, 0xc2, 0xc3, 0xc5, 0xc6, 0xc7, 0xc9, 0xca, 0xcb, 0xcd, 0xce, 0xcf]

def fillBytes (p : Bytes) : Scan Nat Nat where
  limit := p.length
  pos := id
  step offset := if byteAt p offset = 0xff then .ok (offset + 1) else .error offset
  finish offset := offset
  advances s t _ h := by
    split at h
    · cases h
      exact Nat.lt_succ_self _
    · cases h

-- entropy coded data: ends at a marker, or fails when no marker follows
def entropyStep (p : Bytes) (offset : Nat) : Except (Option Nat) Nat :=
  match findByte p 0xff offset with
  | none => .error none
  | some markerOffset =>
    if p.length ≤ markerOffset + 1 then .error none
    else
      let nextByte := byteAt p (markerOffset + 1)
      if nextByte = 0x00 || (0xd0 ≤ nextByte && nextByte ≤ 0xd7) then .ok (markerOffset + 2)
      else if nextByte = 0xff then .ok (markerOffset + 1)
      else .error (some markerOffset)

theorem entropyStep_advances {p : Bytes} {i j : Nat} (h : entropyStep p i = .ok j) : i < j := by
  unfold entropyStep at h
  split at h
  · cases h
  · next k hk =>
    have hge := findByte_ge hk
    split at h
    · cases h
    · simp only at h
      split at h
      · cases h
        omega
      · split at h
        · cases h
          omega
        · cases h

def entropyCoded (p : Bytes) : Scan Nat (Option Nat) where
  limit := p.length
  pos := id
  step := entropyStep p
  finish offset := some offset
  advances _ _ _ h := entropyStep_advances h

def jpegScan (p : Bytes) (s : JpegState) (marker segmentEnd : Nat) : Step JpegState :=
  if marker ≠ 0xda then .ok { s with offset := segmentEnd }
  else match (entropyCoded p).run segmentEnd with
    | none => give false
    | some offset => .ok { s with offset, sawScan := true }

def jpegFrame (p : Bytes) (s : JpegState) (marker offset segmentLength : Nat) : Step JpegState :=
  if segmentLength < 2 then give false
  else if p.length < offset + segmentLength then give false
  else if jpegSofMarkers.contains marker then
    if segmentLength < 8 then give false
    else match unpackU16BE p (offset + 3), unpackU16BE p (offset + 5) with
      | some height, some width =>
        if !dimensionsAreSafe width height then give false
        else jpegScan p { s with sawFrame := true } marker (offset + segmentLength)
      | _, _ => raise
  else jpegScan p s marker (offset + segmentLength)

def jpegSegment (p : Bytes) (s : JpegState) : Step JpegState :=
  match index p s.offset with
  | none => raise
  | some first =>
    if first ≠ 0xff then give false
    else
      let offset := (fillBytes p).run s.offset
      match index p offset with
      | none => give false
      | some marker =>
        let offset := offset + 1
        if marker = 0xd9 then give (s.sawFrame && s.sawScan && offset = p.length)
        else if marker = 0x00 || marker = 0xd8 || (0xd0 ≤ marker && marker ≤ 0xd7) ||
            marker = 0x01 then give false
        else if p.length < offset + 2 then give false
        else match unpackU16BE p offset with
          | none => raise
          | some segmentLength => jpegFrame p s marker offset segmentLength

theorem fillBytes_ge {p : Bytes} (i : Nat) : i ≤ (fillBytes p).run i := by
  induction i using Scan.run.induct (fillBytes p) with
  | case1 i h r hs =>
    rw [Scan.run_error h hs]
    have hs : (if byteAt p i = 0xff then .ok (i + 1) else .error i : Except Nat Nat) = .error r := hs
    split at hs
    · cases hs
    · exact (Except.error.inj hs).le
  | case2 i h j hs ih =>
    rw [Scan.run_next h hs]
    exact Nat.le_trans ((fillBytes p).advances i j h hs).le ih
  | case3 i h =>
    rw [Scan.run_end h]
    exact Nat.le_refl _

theorem entropyCoded_ge {p : Bytes} {i j : Nat} (h : (entropyCoded p).run i = some j) : i ≤ j := by
  induction i using Scan.run.induct (entropyCoded p) with
  | case1 i hi r hs =>
    rw [Scan.run_error hi hs] at h
    subst h
    have hs : entropyStep p i = .error (some j) := hs
    unfold entropyStep at hs
    split at hs
    · cases hs
    · next k hk =>
      have hge := findByte_ge hk
      split at hs
      · cases hs
      · simp only at hs
        split at hs
        · cases hs
        · split at hs
          · cases hs
          · cases hs
            exact hge
  | case2 i hi k hs ih =>
    rw [Scan.run_next hi hs] at h
    exact Nat.le_trans (entropyStep_advances hs).le (ih h)
  | case3 i hi =>
    rw [Scan.run_end hi] at h
    exact (Option.some.inj h).le

theorem jpegScan_advances {p : Bytes} {s t : JpegState} {marker segmentEnd : Nat}
    (h : jpegScan p s marker segmentEnd = .ok t) : segmentEnd ≤ t.offset := by
  unfold jpegScan at h
  split at h
  · cases h
    exact Nat.le_refl _
  · split at h
    · cases h
    · next hrun =>
      cases h
      exact entropyCoded_ge hrun

theorem jpegFrame_advances {p : Bytes} {s t : JpegState} {marker offset segmentLength : Nat}
    (h : jpegFrame p s marker offset segmentLength = .ok t) : offset ≤ t.offset := by
  have hle {u : JpegState} (h : jpegScan p u marker (offset + segmentLength) = .ok t) :
      offset ≤ t.offset := Nat.le_trans (Nat.le_add_right _ _) (jpegScan_advances h)
  unfold jpegFrame at h
  split at h
  · cases h
  · split at h
    · cases h
    · split at h
      · split at h
        · cases h
        · split at h
          · split at h
            · cases h
            · exact hle h
          · cases h
      · exact hle h

theorem jpegSegment_advances {p : Bytes} {s t : JpegState} (h : jpegSegment p s = .ok t) :
    s.offset < t.offset := by
  have hge := fillBytes_ge (p := p) s.offset
  unfold jpegSegment at h
  split at h
  · cases h
  · split at h
    · cases h
    · simp only at h
      split at h
      · cases h
      · split at h
        · cases h
        · split at h
          · cases h
          · split at h
            · cases h
            · split at h
              · cases h
              · have := jpegFrame_advances h
                omega

def jpegSegments (p : Bytes) : Scan JpegState (Option Bool) where
  limit := p.length
  pos := JpegState.offset
  step := jpegSegment p
  finish _ := some false
  advances _ _ _ h := jpegSegment_advances h

def validateJpeg (p : Bytes) : Option Bool :=
  if p.length < 4 || slice p 0 2 ≠ [0xff, 0xd8] then some false
  else (jpegSegments p).run ⟨2, false, false⟩

-- none is the _InvalidImage exception
def subBlocks (p : Bytes) : Scan Nat (Option Nat) where
  limit := p.length
  pos := id
  step offset :=
    let length := byteAt p offset
    if length = 0 then .error (some (offset + 1))
    else if p.length < offset + 1 + length then .error none
    else .ok (offset + 1 + length)
  finish _ := none
  advances s t _ h := by
    simp only at h
    split at h
    · cases h
    · split at h
      · cases h
      · cases h
        exact Nat.lt_of_lt_of_le (Nat.lt_succ_self _) (Nat.le_add_right _ _)

def skipGifSubBlocks (p : Bytes) (offset : Nat) : Option Nat := (subBlocks p).run offset

def colorTable (packed : Nat) : Nat :=
  if packed &&& 0x80 ≠ 0 then 3 * 2 ^ ((packed &&& 0x07) + 1) else 0

def gifImage (p : Bytes) (offset : Nat) : Step GifState :=
  match unpackU16LE p (offset + 4), unpackU16LE p (offset + 6), index p (offset + 8) with
  | some imageWidth, some imageHeight, some imagePacked =>
    if !dimensionsAreSafe imageWidth imageHeight then give false
    else
      let offset := offset + 9 + colorTable imagePacked
      if p.length ≤ offset then give false
      else match skipGifSubBlocks p (offset + 1) with
        | none => give false
        | some offset => .ok ⟨offset, true⟩
  | _, _, _ => give false

def gifBlock (p : Bytes) (s : GifState) : Step GifState :=
  match index p s.offset with
  | none => raise
  | some introducer =>
    let offset := s.offset + 1
    if introducer = 0x3b then give (s.sawImage && offset = p.length)
    else if introducer = 0x21 then
      if p.length ≤ offset then give false
      else match skipGifSubBlocks p (offset + 1) with
        | none => give false
        | some offset => .ok { s with offset }
    else if introducer ≠ 0x2c || p.length < offset + 9 then give false
    else gifImage p offset

theorem skipGifSubBlocks_ge {p : Bytes} {i j : Nat} (h : skipGifSubBlocks p i = some j) :
    i ≤ j := by
  unfold skipGifSubBlocks at h
  induction i using Scan.run.induct (subBlocks p) with
  | case1 i hi r hs =>
    rw [Scan.run_error hi hs] at h
    subst h
    simp only [subBlocks] at hs
    split at hs
    · cases hs
      exact Nat.le_succ _
    · split at hs <;> cases hs
  | case2 i hi k hs ih =>
    rw [Scan.run_next hi hs] at h
    exact Nat.le_trans ((subBlocks p).advances i k hi hs).le (ih h)
  | case3 i hi =>
    rw [Scan.run_end hi] at h
    cases h

theorem gifImage_advances {p : Bytes} {t : GifState} {offset : Nat}
    (h : gifImage p offset = .ok t) : offset < t.offset := by
  unfold gifImage at h
  split at h
  · split at h
    · cases h
    · simp only at h
      split at h
      · cases h
      · split at h
        · cases h
        · next hskip =>
          cases h
          have := skipGifSubBlocks_ge hskip
          simp only
          omega
  · cases h

theorem gifBlock_advances {p : Bytes} {s t : GifState} (h : gifBlock p s = .ok t) :
    s.offset < t.offset := by
  unfold gifBlock at h
  split at h
  · cases h
  · simp only at h
    split at h
    · cases h
    · split at h
      · split at h
        · cases h
        · split at h
          · cases h
          · next hskip =>
            cases h
            have := skipGifSubBlocks_ge hskip
            simp only
            omega
      · split at h
        · cases h
        · exact Nat.lt_of_succ_lt (gifImage_advances h)

def gifBlocks (p : Bytes) : Scan GifState (Option Bool) where
  limit := p.length
  pos := GifState.offset
  step := gifBlock p
  finish _ := some false
  advances _ _ _ h := gifBlock_advances h

def gif87a : Bytes := [0x47, 0x49, 0x46, 0x38, 0x37, 0x61]

def gif89a : Bytes := [0x47, 0x49, 0x46, 0x38, 0x39, 0x61]

def validateGif (p : Bytes) : Option Bool :=
  if p.length < 14 || (slice p 0 6 ≠ gif87a && slice p 0 6 ≠ gif89a) then some false
  else match unpackU16LE p 6, unpackU16LE p 8, index p 10 with
    | some width, some height, some packed =>
      if !dimensionsAreSafe width height then some false
      else (gifBlocks p).run ⟨13 + colorTable packed, false⟩
    | _, _, _ => none

-- raises _InvalidImage unless exactly three bytes are given
def uint24LE (value : Bytes) : Option Nat :=
  if value.length ≠ 3 then none
  else some (byteAt value 0 ||| (byteAt value 1 <<< 8) ||| (byteAt value 2 <<< 16))

def vp8x : Bytes := [0x56, 0x50, 0x38, 0x58]

def vp8 : Bytes := [0x56, 0x50, 0x38, 0x20]

def vp8l : Bytes := [0x56, 0x50, 0x38, 0x4c]

def anmf : Bytes := [0x41, 0x4e, 0x4d, 0x46]

def webpData (s : WebpState) (chunkType data : Bytes) : Step WebpState :=
  if chunkType = vp8x then
    if data.length ≠ 10 then give false
    else match uint24LE (slice data 4 7), uint24LE (slice data 7 10) with
      | some width, some height => .ok { s with dimensions := some (width + 1, height + 1) }
      | _, _ => give false
  else if chunkType = vp8 then
    if data.length < 10 || slice data 3 6 ≠ [0x9d, 0x01, 0x2a] then give false
    else match unpackU16LE data 6, unpackU16LE data 8 with
      | some width, some height =>
        .ok { s with
          dimensions := some (width &&& 0x3fff, height &&& 0x3fff), sawImageData := true }
      | _, _ => give false
  else if chunkType = vp8l then
    if data.length < 5 || index data 0 ≠ some 0x2f then give false
    else match unpackU32LE data 1 with
      | some bits =>
        .ok { s with
          dimensions := some ((bits &&& 0x3fff) + 1, ((bits >>> 14) &&& 0x3fff) + 1)
          sawImageData := true }
      | none => give false
  else if chunkType = anmf then
    if data.length < 16 then give false
    else match uint24LE (slice data 6 9), uint24LE (slice data 9 12) with
      | some width, some height =>
        if !dimensionsAreSafe (width + 1) (height + 1) then give false
        else .ok { s with sawImageData := true }
      | _, _ => give false
  else .ok s

def webpChunk (p : Bytes) (s : WebpState) : Step WebpState :=
  if p.length < s.offset + 8 then give false
  else
    let chunkType := slice p s.offset (s.offset + 4)
    match unpackU32LE p (s.offset + 4) with
    | none => give false
    | some chunkLength =>
      let dataStart := s.offset + 8
      let dataEnd := dataStart + chunkLength
      let paddedEnd := dataEnd + (chunkLength &&& 1)
      if p.length < dataEnd || p.length < paddedEnd then give false
      else match webpData s chunkType (slice p dataStart dataEnd) with
        | .error r => .error r
        | .ok t => .ok { t with offset := paddedEnd }

theorem webpChunk_advances {p : Bytes} {s t : WebpState} (h : webpChunk p s = .ok t) :
    s.offset < t.offset := by
  unfold webpChunk at h
  split at h
  · cases h
  · split at h
    · cases h
    · simp only at h
      split at h
      · cases h
      · split at h
        · cases h
        · cases h
          simp only
          omega

def webpResult (p : Bytes) (s : WebpState) : Bool :=
  s.offset = p.length && s.dimensions.any (fun d => dimensionsAreSafe d.1 d.2) && s.sawImageData

def webpChunks (p : Bytes) : Scan WebpState (Option Bool) where
  limit := p.length
  pos := WebpState.offset
  step := webpChunk p
  finish s := some (webpResult p s)
  advances _ _ _ h := webpChunk_advances h

def riff : Bytes := [0x52, 0x49, 0x46, 0x46]

def webp : Bytes := [0x57, 0x45, 0x42, 0x50]

def validateWebp (p : Bytes) : Option Bool :=
  if p.length < 20 || slice p 0 4 ≠ riff || slice p 8 12 ≠ webp then some false
  else match unpackU32LE p 4 with
    | none => none
    | some size =>
      if size + 8 ≠ p.length then some false
      else (webpChunks p).run ⟨12, none, false⟩

-- none means that the call raised
def imagePayloadIsValid (suffix : String) (p : Bytes) : Option Bool :=
  let normalized := lower suffix
  if normalized = ".png" then validatePng p
  else if normalized = ".jpg" || normalized = ".jpeg" then validateJpeg p
  else if normalized = ".gif" then validateGif p
  else if normalized = ".webp" then validateWebp p
  else some false

end PeerBridge.ImageValidation
