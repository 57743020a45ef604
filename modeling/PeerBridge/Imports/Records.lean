import PeerBridge.Imports.Export
import PeerBridge.CanonicalCode
import PeerBridge.Lib.JsonAscii

namespace PeerBridge
open Checked Rows

def Json.number? : Json → Option ℚ
  | .bool b => some (if b then 1 else 0)
  | .int n => some n
  | .real q => some q
  | _ => none

-- equality of Python values: dicts in any order, and booleans are numbers
mutual
def Json.same : Json → Json → Bool
  | .null, .null => true
  | .arr vs, .arr ws => sameItems vs ws
  | .obj fs, .obj gs => fs.length = gs.length && sameFields fs gs
  | .str t, w => w.text? = some t
  | .sha d, w => w.text? = some d.hex
  | .bool b, w => w.number? = some (if b then 1 else 0)
  | .int n, w => w.number? = some (n : ℚ)
  | .real q, w => w.number? = some q
  | _, _ => false
def sameItems : List Json → List Json → Bool
  | [], [] => true
  | v :: vs, w :: ws => v.same w && sameItems vs ws
  | _, _ => false
def sameFields : List (String × Json) → List (String × Json) → Bool
  | [], _ => true
  | (k, v) :: fs, gs =>
    (match (lookup Prod.fst k gs).map Prod.snd with
      | some w => v.same w
      | none => false) && sameFields fs gs
end

def withoutKeys (keys : List String) : Json → Json
  | .obj fields => .obj (fields.filter (fun f => f.1 ∉ keys))
  | v => v

def withMember (key : String) (value : Json) : Json → Json
  | .obj fields => .obj (fields ++ [(key, value)])
  | v => v

namespace ConversationImport

def importSchema : String := "peerbridge.conversation-history-import.v1"
def maxImportRecordBytes : Nat := 32 * 1024 * 1024
def maxImportRecords : Nat := 512
def maxImportStoreBytes : Nat := 256 * 1024 * 1024

structure ImportArgs where
  scope : String
  provider : String
  sourceName : String
  contentBase64 : String
  sourceSha256Override : Option String := none
  sourceBytesOverride : Option Int := none
  selectedConversationIds : Option (List String) := none

structure Record where
  importId : String
  scope : String
  provider : Provider
  sourceName : String
  sourceBytes : Int
  sourceSha256 : String
  sourceConversationId : String
  conversation : Conversation
  importedUtc : String

-- the record files of the import directory; their texts are ASCII
structure RecordFile where
  name : String
  text : List Char
  deriving DecidableEq

def RecordFile.size (f : RecordFile) : Nat := f.text.length

abbrev Store := List RecordFile

section Record
variable (T : Toolkit)

def Record.roomId (r : Record) : String := "history." ++ r.importId

def redactionCount (ms : List HistoryMessage) : Nat := ms.countP (·.secretRedacted)

-- the members that a repeated import may change
def volatileKeys : List String := ["source_name", "imported_utc", "record_sha256"]

def Record.fields (r : Record) (sha : List (String × Json)) : List (String × Json) :=
  [("ended_utc", .opt r.conversation.endedUtc), ("import_id", .str r.importId),
    ("imported_utc", .str r.importedUtc),
    ("message_count", .int r.conversation.messages.length),
    ("messages", .arr (r.conversation.messages.map (·.json T))),
    ("provider", .str r.provider.text), ("read_only", .bool true)] ++ sha ++
  [("room_id", .str r.roomId), ("schema", .str importSchema), ("scope", .str r.scope),
    ("secret_redaction_count", .int (redactionCount r.conversation.messages)),
    ("source_bytes", .int r.sourceBytes),
    ("source_conversation_id", .str r.sourceConversationId),
    ("source_name", .str r.sourceName), ("source_sha256", .str r.sourceSha256),
    ("started_utc", .opt r.conversation.startedUtc),
    ("timestamp_status", .str r.conversation.timestampStatus),
    ("title", .str r.conversation.title)]

def Record.sha (r : Record) : Sha256 := T.stableSha256 (.obj (r.fields T []))

def Record.json (r : Record) : Json :=
  .obj (r.fields T [("record_sha256", .str (r.sha T).hex)])

-- json.dumps(record, ensure_ascii=True, sort_keys=True) + "\n"
def encodedText (v : Json) : List Char :=
  JsonText.ascii (jsonChars T.forms v) ++ ['\n']

def invalid (text : String) : ImportError := .conversation ("history import " ++ text)

def verifyRecord (value : Json) (scope : String) : Except ImportError Json := do
  require (value.isObj ∧ (value.item "schema").is importSchema)
    (invalid "schema is invalid")
  let record := withoutKeys ["record_sha256"] value
  let claimed := ((value.get? "record_sha256").map T.str).getD ""
  require (claimed.length = 64 ∧ (T.stableSha256 record).hex = claimed)
    (invalid "SHA-256 does not match")
  require ((value.item "scope").is scope) (invalid "scope does not match")
  require ((value.item "read_only").truthy ∧ (value.item "messages").items?.isSome)
    (invalid "contract is invalid")
  pure (withMember "record_sha256" (.str claimed) record)

end Record

section Import
variable (T : Toolkit)

def sourceSha (a : ImportArgs) (sourceBytes : Bytes) : Except ImportError String :=
  match a.sourceSha256Override with
  | none => pure (T.sha256 sourceBytes).hex
  | some value => do
    let candidate := T.lower (strip value)
    require (isSha256 candidate = true) (.conversation "source SHA-256 override is invalid")
    pure candidate

def sourceSize (a : ImportArgs) (sourceBytes : Bytes) : Except ImportError Int :=
  match a.sourceBytesOverride with
  | none => pure sourceBytes.length
  | some value => do
    require (1 ≤ value) (.conversation "source byte count override is invalid")
    pure value

def selectConversations (selection : Option (List String)) (conversations : List Conversation) :
    Except ImportError (List Conversation) :=
  match selection with
  | none => pure conversations
  | some items => do
    let selectedOrder := ((items.map strip).filter (· ≠ "")).reverse.dedup.reverse
    require (selectedOrder ≠ [] ∧ selectedOrder.length ≤ 20)
      (.conversation "conversation selection is invalid")
    selectedOrder.mapM (fun item =>
      demand (lookup Conversation.sourceConversationId item conversations.reverse)
        (.conversation "conversation selection does not match the source export"))

def importId (scope : String) (p : Provider) (sourceSha256 : String) (c : Conversation) :
    String :=
  p.text ++ "-" ++ T.digest 32 (.obj [("conversation_id", .str c.sourceConversationId),
    ("scope", .str scope), ("source_sha256", .str sourceSha256)])

structure Export where
  provider : Provider
  sourceSha256 : String
  sourceBytes : Int
  conversations : List Conversation

def openExport (a : ImportArgs) : Except ImportError Export := do
  let provider ← safeProvider T a.provider
  let sourceBytes ← decodePayload T a.contentBase64
  let sourceSha256 ← sourceSha T a sourceBytes
  let count ← sourceSize a sourceBytes
  let parsed ← parseConversationExport T provider sourceBytes
  let conversations ← selectConversations a.selectedConversationIds parsed
  pure { provider, sourceSha256, sourceBytes := count, conversations }

def Export.record (x : Export) (a : ImportArgs) (importedUtc : String)
    (conversation : Conversation) : Record :=
  { importId := importId T a.scope x.provider x.sourceSha256 conversation
    scope := a.scope
    provider := x.provider
    sourceName := safeSourceName T a.sourceName
    sourceBytes := x.sourceBytes
    sourceSha256 := x.sourceSha256
    sourceConversationId := safeSourceIdentifier T conversation.sourceConversationId "conversation"
    conversation
    importedUtc }

def Record.fileName (r : Record) : String := r.importId ++ ".json"

def Record.file (r : Record) : RecordFile := ⟨r.fileName, encodedText T (r.json T)⟩

inductive Status where
  | created | existing
  deriving DecidableEq, Repr

structure ImportRow where
  status : Status
  importId : String
  roomId : Json
  provider : Provider
  title : Json
  messageCount : Json
  sourceSha256 : String
  recordSha256 : Json

def Record.row (r : Record) (status : Status) (record : Json) : ImportRow :=
  { status
    importId := r.importId
    roomId := record.item "room_id"
    provider := r.provider
    title := record.item "title"
    messageCount := record.item "message_count"
    sourceSha256 := r.sourceSha256
    recordSha256 := record.item "record_sha256" }

inductive Halt where
  | raised (e : ImportError)
  | cut

def readRecord (f : RecordFile) (scope : String) : Except ImportError Json := do
  let value ← T.read (String.ofList f.text)
  let record ← demand value .uncaught
  verifyRecord T record scope

def existingRecord (r : Record) (f : RecordFile) : Except ImportError Json := do
  let existing ← readRecord T f r.scope
  require ((withoutKeys volatileKeys existing).same (withoutKeys volatileKeys (r.json T)) = true)
    (.conversation "history import identity already exists with different content")
  pure existing

-- the loop over the directory stops at the first entry past a limit
def quotaExceeded (encoded : Nat) (count total : Nat) : Store → Bool
  | [] => false
  | f :: fs =>
    (maxImportRecords ≤ count + 1 || maxImportStoreBytes < total + f.size + encoded) ||
      quotaExceeded encoded (count + 1) (total + f.size) fs

-- `room` file system effects take place before the call is cut off: opening a file is one
-- and each character written is one
def createRecord (f : RecordFile) (room : Option Nat) (s : Store) :
    Store × Except Halt (Option Nat) :=
  match room with
  | none => (s ++ [f], .ok none)
  | some 0 => (s, .error .cut)
  | some (n + 1) =>
    if n < f.size then (s ++ [{ f with text := f.text.take n }], .error .cut)
    else (s ++ [f], .ok (some (n - f.size)))

def importRecord (r : Record) (room : Option Nat) (s : Store) :
    Store × Except Halt (ImportRow × Option Nat) :=
  let f := r.file T
  if maxImportRecordBytes < f.size then
    (s, .error (.raised (.conversation "normalized history record exceeds the output limit")))
  else
    match lookup RecordFile.name r.fileName s with
    | some held =>
      match existingRecord T r held with
      | .ok existing => (s, .ok (r.row .existing existing, room))
      | .error e => (s, .error (.raised e))
    | none =>
      if quotaExceeded f.size 0 0 s then
        (s, .error (.raised (.conversation "history import store quota exceeded")))
      else
        match createRecord f room s with
        | (t, .ok left) => (t, .ok (r.row .created (r.json T), left))
        | (t, .error e) => (t, .error e)

def importRecords : List Record → Option Nat → Store → Store × Except Halt (List ImportRow)
  | [], _, s => (s, .ok [])
  | r :: rs, room, s =>
    match importRecord T r room s with
    | (t, .error e) => (t, .error e)
    | (t, .ok (row, left)) =>
      match importRecords rs left t with
      | (u, .ok rows) => (u, .ok (row :: rows))
      | (u, .error e) => (u, .error e)

def importConversationExport (a : ImportArgs) (importedUtc : String) (room : Option Nat)
    (s : Store) : Store × Except Halt (List ImportRow) :=
  match openExport T a with
  | .error e => (s, .error (.raised e))
  | .ok x => importRecords T (x.conversations.map (x.record T a importedUtc)) room s

end Import

section Listing
variable (T : Toolkit)

-- a file that cannot be read as a record of the scope is passed over
def listedRecord (scope : String) (f : RecordFile) : Except ImportError (Option Json) :=
  if maxImportBytes < f.size then pure none
  else do
    let value ← T.read (String.ofList f.text)
    match value with
    | none => pure none
    | some v =>
      match verifyRecord T v scope with
      | .ok record => pure (some record)
      | .error _ => pure none

def sortKey (record : Json) : Except ImportError (String × String) := do
  let identifier ← demand (record.get? "import_id") .uncaught
  pure (T.field "imported_utc" record, T.str identifier)

def laterKey (a b : (String × String) × Json) : Bool :=
  a.1.1 > b.1.1 || (a.1.1 = b.1.1 && a.1.2 ≥ b.1.2)

def listConversationImports (scope : String) (s : Store) : Except ImportError (List Json) := do
  let found ← (s.mergeSort (fun a b => a.name ≤ b.name)).mapM (listedRecord T scope)
  let keyed ← found.reduceOption.mapM (fun record => do
    let key ← sortKey T record
    pure (key, record))
  pure (((keyed.mergeSort laterKey).map Prod.snd).take maxConversations)

end Listing

end ConversationImport

end PeerBridge
