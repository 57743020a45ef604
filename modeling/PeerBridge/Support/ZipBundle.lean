import PeerBridge.Lib.Frames
import PeerBridge.Lib.Checked
import Mathlib.Data.List.Sort

namespace PeerBridge.Edge.Zip
open Frames Checked

def maxReportBytes : ℕ := 256 * 1024
def maxEncryptedCredentialBytes : ℕ := 64 * 1024
def maxAttachmentMemberBytes : ℕ := 8 * 1024 * 1024
def maxTotalAttachmentBytes : ℕ := 16 * 1024 * 1024
def maxExpandedBundleBytes : ℕ := 64 * 1024 * 1024
def maxCompressionRatio : ℕ := 250

def endSignature : ℕ := 0x06054b50
def centralSignature : ℕ := 0x02014b50
def localSignature : ℕ := 0x04034b50

section Reading
variable (bytes : Bytes)

def zipByte (offset : ℕ) : Except String ℕ :=
  match bytes[offset]? with
  | some b => .ok b.toNat
  | none => .error "feedback ZIP is truncated"

def zipUint16 (offset : ℕ) : Except String ℕ := do
  return (← zipByte bytes offset) + (← zipByte bytes (offset + 1)) * 0x100

def zipUint32 (offset : ℕ) : Except String ℕ := do
  return (← zipByte bytes offset) + (← zipByte bytes (offset + 1)) * 0x100 +
    (← zipByte bytes (offset + 2)) * 0x10000 + (← zipByte bytes (offset + 3)) * 0x1000000

def nameByte (offset index : ℕ) : Except String UInt8 := do
  let value ← zipByte bytes (offset + index)
  require (value ≠ 0 ∧ value ≠ 58 ∧ value ≠ 92) "feedback ZIP entry path is unsafe"
  return if value < 128 then UInt8.ofNat value else 63

def safeZipName (offset length : ℕ) : Except String Bytes := do
  require (1 ≤ length ∧ length ≤ 512 ∧ offset + length ≤ bytes.length)
    "feedback ZIP entry name is invalid"
  let name ← (List.range length).mapM (nameByte bytes offset)
  require (name.head? ≠ some 47 ∧ ascii ".." ∉ name.splitOn 47) "feedback ZIP entry path is unsafe"
  return name

end Reading

def extensions : List Bytes :=
  ["gif", "jpeg", "jpg", "json", "log", "png", "txt", "webp"].map ascii

def attachmentName (digit : UInt8) (extension : Bytes) : Bytes :=
  ascii "attachments/" ++ [48, digit] ++ 46 :: extension

-- the names that ATTACHMENT_MEMBER_PATTERN matches
def attachmentNames : List Bytes :=
  [49, 50, 51, 52, 53].flatMap (fun digit => extensions.map (attachmentName digit))

def attachmentMember (name : Bytes) : Bool := name ∈ attachmentNames

def allowedZipMember (name : Bytes) : Bool :=
  name == ascii "report.json" || name == ascii "encrypted-credential.json" || attachmentMember name

def zipMemberLimit (name : Bytes) : ℕ :=
  if name = ascii "report.json" then maxReportBytes
  else if name = ascii "encrypted-credential.json" then maxEncryptedCredentialBytes
  else if attachmentMember name then maxAttachmentMemberBytes
  else 0

structure EndRecord where
  eocd : ℕ
  disk : ℕ
  centralDisk : ℕ
  diskEntries : ℕ
  totalEntries : ℕ
  centralSize : ℕ
  centralOffset : ℕ
  commentLength : ℕ
  deriving DecidableEq, Repr

-- the offsets from minimum + count - 1 down to minimum
def findEnd (bytes : Bytes) (minimum : ℕ) : ℕ → Except String ℕ
  | 0 => .error "feedback ZIP end record is missing"
  | count + 1 => do
    if (← zipUint32 bytes (minimum + count)) = endSignature then return minimum + count
    findEnd bytes minimum count

def readEndRecord (bytes : Bytes) : Except String EndRecord := do
  require (22 ≤ bytes.length) "feedback bundle is not a ZIP archive"
  let minimum := bytes.length - 65557
  let eocd ← findEnd bytes minimum (bytes.length - 22 - minimum + 1)
  let disk ← zipUint16 bytes (eocd + 4)
  let centralDisk ← zipUint16 bytes (eocd + 6)
  let diskEntries ← zipUint16 bytes (eocd + 8)
  let totalEntries ← zipUint16 bytes (eocd + 10)
  let centralSize ← zipUint32 bytes (eocd + 12)
  let centralOffset ← zipUint32 bytes (eocd + 16)
  let commentLength ← zipUint16 bytes (eocd + 20)
  require (disk = 0 ∧ centralDisk = 0 ∧ diskEntries = totalEntries ∧ 1 ≤ totalEntries ∧
      totalEntries ≤ 64 ∧ centralOffset + centralSize = eocd ∧
      eocd + 22 + commentLength = bytes.length)
    "feedback ZIP structure is invalid"
  return { eocd, disk, centralDisk, diskEntries, totalEntries, centralSize, centralOffset
           commentLength }

structure Entry where
  name : Bytes
  method : ℕ
  crc32 : ℕ
  compressedSize : ℕ
  uncompressedSize : ℕ
  localOffset : ℕ
  dataOffset : ℕ
  dataEnd : ℕ
  deriving DecidableEq, Repr

structure Central where
  flags : ℕ
  method : ℕ
  entryCrc32 : ℕ
  compressedSize : ℕ
  uncompressedSize : ℕ
  nameLength : ℕ
  extraLength : ℕ
  entryCommentLength : ℕ
  externalAttributes : ℕ
  localOffset : ℕ

def readCentral (bytes : Bytes) (cursor : ℕ) : Except String Central := do
  let flags ← zipUint16 bytes (cursor + 8)
  let method ← zipUint16 bytes (cursor + 10)
  let entryCrc32 ← zipUint32 bytes (cursor + 16)
  let compressedSize ← zipUint32 bytes (cursor + 20)
  let uncompressedSize ← zipUint32 bytes (cursor + 24)
  let nameLength ← zipUint16 bytes (cursor + 28)
  let extraLength ← zipUint16 bytes (cursor + 30)
  let entryCommentLength ← zipUint16 bytes (cursor + 32)
  let externalAttributes ← zipUint32 bytes (cursor + 38)
  let localOffset ← zipUint32 bytes (cursor + 42)
  return { flags, method, entryCrc32, compressedSize, uncompressedSize, nameLength, extraLength
           entryCommentLength, externalAttributes, localOffset }

def Central.next (c : Central) (cursor : ℕ) : ℕ :=
  cursor + 46 + c.nameLength + c.extraLength + c.entryCommentLength

structure Local where
  flags : ℕ
  method : ℕ
  crc32 : ℕ
  compressedSize : ℕ
  uncompressedSize : ℕ
  nameLength : ℕ
  extraLength : ℕ

def readLocal (bytes : Bytes) (offset : ℕ) : Except String Local := do
  let flags ← zipUint16 bytes (offset + 6)
  let method ← zipUint16 bytes (offset + 8)
  let crc32 ← zipUint32 bytes (offset + 14)
  let compressedSize ← zipUint32 bytes (offset + 18)
  let uncompressedSize ← zipUint32 bytes (offset + 22)
  let nameLength ← zipUint16 bytes (offset + 26)
  let extraLength ← zipUint16 bytes (offset + 28)
  return { flags, method, crc32, compressedSize, uncompressedSize, nameLength, extraLength }

def sameName (bytes : Bytes) (left right index : ℕ) : Except String Unit := do
  let a ← zipByte bytes (left + index)
  let b ← zipByte bytes (right + index)
  require (a = b) "feedback ZIP entry names do not match"

structure Reader where
  cursor : ℕ
  totalUncompressed : ℕ
  totalAttachmentBytes : ℕ
  hasReport : Bool
  localOffsets : List ℕ
  names : List Bytes
  entries : List Entry

def Reader.start (r : EndRecord) : Reader := ⟨r.centralOffset, 0, 0, false, [], [], []⟩

def readEntry (bytes : Bytes) (r : EndRecord) (s : Reader) : Except String Reader := do
  require (s.cursor + 46 ≤ r.eocd) "feedback ZIP central directory is invalid"
  require ((← zipUint32 bytes s.cursor) = centralSignature)
    "feedback ZIP central directory is invalid"
  let c ← readCentral bytes s.cursor
  require (c.flags &&& 0xfffff7ff = 0 ∧ (c.method = 0 ∨ c.method = 8) ∧
      c.compressedSize ≠ 0xffffffff ∧ c.uncompressedSize ≠ 0xffffffff ∧
      c.next s.cursor ≤ r.eocd ∧ c.localOffset ∉ s.localOffsets ∧ c.extraLength = 0 ∧
      c.entryCommentLength = 0 ∧ (c.externalAttributes >>> 16) &&& 0xf000 ≠ 0xa000)
    "feedback ZIP entry is unsupported"
  let name ← safeZipName bytes (s.cursor + 46) c.nameLength
  require (allowedZipMember name ∧ name ∉ s.names)
    "feedback ZIP contains an unsupported or duplicate member"
  require (zipMemberLimit name ≠ 0 ∧ c.uncompressedSize ≤ zipMemberLimit name)
    "feedback ZIP member size is invalid"
  require (¬(c.method = 8 ∧ 0 < c.uncompressedSize ∧ (c.compressedSize = 0 ∨
      c.uncompressedSize > c.compressedSize * maxCompressionRatio)))
    "feedback ZIP compression ratio is unsafe"
  let totalAttachmentBytes :=
    if attachmentMember name then s.totalAttachmentBytes + c.uncompressedSize
    else s.totalAttachmentBytes
  require (attachmentMember name → totalAttachmentBytes ≤ maxTotalAttachmentBytes)
    "feedback ZIP attachments are too large"
  let totalUncompressed := s.totalUncompressed + c.uncompressedSize
  require (totalUncompressed ≤ maxExpandedBundleBytes) "feedback ZIP expansion is too large"
  require (c.localOffset + 30 ≤ r.centralOffset) "feedback ZIP local header is invalid"
  require ((← zipUint32 bytes c.localOffset) = localSignature)
    "feedback ZIP local header is invalid"
  let l ← readLocal bytes c.localOffset
  let dataOffset := c.localOffset + 30 + l.nameLength + l.extraLength
  require (l.flags = c.flags ∧ l.method = c.method ∧ l.nameLength = c.nameLength ∧
      l.extraLength = 0 ∧ l.crc32 = c.entryCrc32 ∧ l.compressedSize = c.compressedSize ∧
      l.uncompressedSize = c.uncompressedSize ∧ dataOffset + c.compressedSize ≤ r.centralOffset)
    "feedback ZIP local entry is inconsistent"
  (List.range c.nameLength).forM (sameName bytes (c.localOffset + 30) (s.cursor + 46))
  return {
    cursor := c.next s.cursor
    totalUncompressed
    totalAttachmentBytes
    hasReport := s.hasReport || name == ascii "report.json"
    localOffsets := s.localOffsets ++ [c.localOffset]
    names := s.names ++ [name]
    entries := s.entries ++ [{
      name, method := c.method, crc32 := c.entryCrc32, compressedSize := c.compressedSize
      uncompressedSize := c.uncompressedSize, localOffset := c.localOffset, dataOffset
      dataEnd := dataOffset + c.compressedSize }] }

def readEntries (bytes : Bytes) (r : EndRecord) : ℕ → Reader → Except String Reader
  | 0, s => .ok s
  | count + 1, s => do
    let s ← readEntry bytes r s
    readEntries bytes r count s

-- the offset after the last entry
def checkLayout : ℕ → List Entry → Except String ℕ
  | expected, [] => .ok expected
  | expected, e :: rest => do
    require (e.localOffset = expected)
      "feedback ZIP contains an unindexed or overlapping local entry"
    checkLayout e.dataEnd rest

def byLocalOffset (entries : List Entry) : List Entry :=
  entries.insertionSort (fun left right => left.localOffset ≤ right.localOffset)

def indexText (index : ℕ) : Bytes :=
  List.replicate (2 - (numeral 10 index).length) 48 ++ numeral 10 index

def expectedPrefix (index : ℕ) : Bytes := ascii "attachments/" ++ indexText index ++ [46]

def sortedAttachments (names : List Bytes) : List Bytes :=
  (names.filter attachmentMember).insertionSort (fun left right => left ≤ right)

def checkIndices : ℕ → List Bytes → Except String Unit
  | _, [] => .ok ()
  | index, name :: rest => do
    require (expectedPrefix (index + 1) <+: name)
      "feedback ZIP attachment indices are not canonical"
    checkIndices (index + 1) rest

def validateZipBundle (bytes : Bytes) : Except String (List Entry) := do
  let r ← readEndRecord bytes
  let s ← readEntries bytes r r.totalEntries (Reader.start r)
  require (s.cursor = r.eocd ∧ s.hasReport = true)
    "feedback ZIP does not contain the sealed report"
  let last ← checkLayout 0 (byLocalOffset s.entries)
  require (last = r.centralOffset) "feedback ZIP local data does not end at the central directory"
  checkIndices 0 (sortedAttachments s.names)
  return s.entries

end PeerBridge.Edge.Zip
