import PeerBridge.Lib.JsonLayout
import PeerBridge.Canonical

namespace PeerBridge.Continuity
open Checked JsonDoc

def snapshotSchema : String := "peerbridge-continuity-snapshot/v1"
def maxChangedPaths : Nat := 200
def maxReceipts : Nat := 32
def maxRows : Nat := 100
def maxSnapshotBytes : Nat := 512 * 1024

inductive Failure where
  | snapshot (text : String)
  | operatingSystem
  deriving DecidableEq, Repr

section Sensitive

-- the characters outside ASCII that (?i) adds to the letters
def extraLetters : List Char := [0x130, 0x131, 0x17f, 0x212a].map Char.ofNat

-- the characters one character of the pattern matches
def variants (p : Char) : List Char :=
  p :: upperAscii p ::
    (if p = 'i' then [Char.ofNat 0x130, Char.ofNat 0x131]
    else if p = 's' then [Char.ofNat 0x17f]
    else if p = 'k' then [Char.ofNat 0x212a] else [])

def stripPrefix : List Char → List Char → Option (List Char)
  | [], cs => some cs
  | _ :: _, [] => none
  | p :: ps, c :: cs => if c ∈ variants p then stripPrefix ps cs else none

-- [A-Za-z0-9_.-] and [0-9A-Z]
def isKeyChar (c : Char) : Bool :=
  c.isAlphanum || c = '_' || c = '.' || c = '-' || c ∈ extraLetters
def isAccessChar (c : Char) : Bool := c.isAlphanum || c ∈ extraLetters

def keyFollows (cs : List Char) : Bool := 12 ≤ (cs.takeWhile isKeyChar).length

def bearerFollows (cs : List Char) : Bool :=
  cs.takeWhile isSpace ≠ [] && keyFollows (cs.dropWhile isSpace)

def accessFollows (cs : List Char) : Bool := 16 ≤ (cs.takeWhile isAccessChar).length

-- the alternatives of SENSITIVE_VALUE
def alternatives : List (List Char × (List Char → Bool)) :=
  [(['s', 'k', '-'], keyFollows), (['g', 'h', 'p', '_'], keyFollows),
    (['g', 'i', 't', 'h', 'u', 'b', '_', 'p', 'a', 't', '_'], keyFollows),
    (['b', 'e', 'a', 'r', 'e', 'r'], bearerFollows), (['a', 'k', 'i', 'a'], accessFollows)]

def matchesHere (cs : List Char) : Bool :=
  alternatives.any (fun a => (stripPrefix a.1 cs).any a.2)

def sensitive : List Char → Bool
  | [] => matchesHere []
  | c :: cs => matchesHere (c :: cs) || sensitive cs

end Sensitive

inductive Column where
  | null
  | int (n : Int)
  | text (t : String)

def Column.value : Column → Value
  | .null => .null
  | .int n => .int n
  | .text t => .str t

structure TaskLine where
  taskId : Column
  status : Column
  owner : Column
  claimedBy : Column
  updatedUtc : Column
  approvalMode : Column
  taskSha256 : Column

def TaskLine.value (t : TaskLine) : Value :=
  .obj [("task_id", t.taskId.value), ("status", t.status.value), ("owner", t.owner.value),
    ("claimed_by", t.claimedBy.value), ("updated_utc", t.updatedUtc.value),
    ("approval_mode", t.approvalMode.value), ("task_sha256", t.taskSha256.value)]

structure RoomLine where
  roomId : Column
  name : Column
  archived : Column
  updatedUtc : Column
  roomSha256 : Column

def RoomLine.value (r : RoomLine) : Value :=
  .obj [("room_id", r.roomId.value), ("name", r.name.value), ("archived", r.archived.value),
    ("updated_utc", r.updatedUtc.value), ("room_sha256", r.roomSha256.value)]

structure RouteLine where
  routeId : Column
  agentId : Column
  providerId : Column
  modelId : Column
  responseModelId : Column
  reasoningMode : Column
  routeClass : Column
  enabled : Column
  profileSha256 : Column

def RouteLine.value (r : RouteLine) : Value :=
  .obj [("route_id", r.routeId.value), ("agent_id", r.agentId.value),
    ("provider_id", r.providerId.value), ("model_id", r.modelId.value),
    ("response_model_id", r.responseModelId.value), ("reasoning_mode", r.reasoningMode.value),
    ("route_class", r.routeClass.value), ("enabled", r.enabled.value),
    ("profile_sha256", r.profileSha256.value)]

structure TableCounts where
  messages : Nat
  messageDispatches : Nat
  rooms : Nat
  tasks : Nat
  routeProfiles : Nat
  events : Nat
  memories : Option Nat

def TableCounts.value (t : TableCounts) : Value :=
  .obj ([("messages", .int t.messages), ("message_dispatches", .int t.messageDispatches),
    ("rooms", .int t.rooms), ("tasks", .int t.tasks), ("route_profiles", .int t.routeProfiles),
    ("events", .int t.events)] ++ t.memories.toList.map (fun n => ("memories", .int n)))

-- what the queries of `_database_snapshot` answer, in their order
structure Database where
  path : String
  bytes : Nat
  mtimeNs : Int
  schemaVersion : Option String
  tableCounts : TableCounts
  dispatchStatusCounts : List (String × Nat)
  statuses : (dispatchStatusCounts.map Prod.fst).Nodup
  messageHighwater : Int × Column
  eventHighwater : Int × Column × String
  tasks : List TaskLine
  rooms : List RoomLine
  routes : List RouteLine

def optional : Option String → Value
  | none => .null
  | some t => .str t

def Database.value (d : Database) : Value :=
  .obj [("path", .str d.path), ("bytes", .int d.bytes), ("mtime_ns", .int d.mtimeNs),
    ("schema_version", optional d.schemaVersion), ("table_counts", d.tableCounts.value),
    ("dispatch_status_counts", .obj (d.dispatchStatusCounts.map (fun c => (c.1, .int c.2)))),
    ("message_highwater", .obj [("sequence", .int d.messageHighwater.1),
      ("created_utc", d.messageHighwater.2.value)]),
    ("event_highwater", .obj [("sequence", .int d.eventHighwater.1),
      ("created_utc", d.eventHighwater.2.1.value),
      ("terminal_chain_sha256", .str d.eventHighwater.2.2)]),
    ("tasks", .arr ((d.tasks.take maxRows).map TaskLine.value)),
    ("rooms", .arr ((d.rooms.take maxRows).map RoomLine.value)),
    ("routes", .arr ((d.routes.take maxRows).map RouteLine.value))]

structure Receipt where
  path : String
  bytes : Nat
  sha256 : String

def Receipt.value (r : Receipt) : Value :=
  .obj [("path", .str r.path), ("bytes", .int r.bytes), ("sha256", .str r.sha256)]

-- what one build reads of the project
structure Observed where
  isDirectory : Bool
  scope : String
  generatedAtUtc : String
  root : String
  gitHead : Option String
  changed : List String
  database : Except Failure Database
  receipts : List Receipt

def contract : Value :=
  .obj [("raw_chat_history_embedded", .bool false), ("message_bodies_embedded", .bool false),
    ("credentials_embedded", .bool false), ("live_state_must_be_recomputed_before_write", .bool true)]

def body (o : Observed) (d : Database) : List (String × Value) :=
  [("schema", .str snapshotSchema), ("generated_at_utc", .str o.generatedAtUtc),
    ("scope", .str o.scope),
    ("project", .obj [("root", .str o.root), ("git_head", optional o.gitHead),
      ("changed_path_count", .int o.changed.length),
      ("changed_paths", .arr ((o.changed.take maxChangedPaths).map Value.str)),
      ("changed_paths_truncated", .bool (decide (maxChangedPaths < o.changed.length)))]),
    ("database", d.value),
    ("receipt_bindings", .arr ((o.receipts.take maxReceipts).map Receipt.value)),
    ("continuity_contract", contract)]

section Snapshots
variable (sha : List Char → String)

def signed (fields : List (String × Value)) : Value :=
  .obj (fields ++ [("snapshot_sha256", .str (sha (JsonDoc.dumps compact (.obj fields))))])

def buildSnapshot (o : Observed) : Except Failure Value := do
  require (o.isDirectory = true) (.snapshot "project root not found")
  require (o.scope ≠ "" ∧ o.scope.length ≤ 200) (.snapshot "scope is invalid")
  let d ← o.database
  let snapshot := signed sha (body o d)
  require (sensitive (JsonDoc.dumps spaced snapshot) = false)
    (.snapshot "snapshot contains a credential-like value")
  require (utf8Length (JsonDoc.dumps spaced snapshot) ≤ maxSnapshotBytes)
    (.snapshot "snapshot exceeds the bounded size limit")
  return snapshot

structure Report where
  status : String
  path : String
  bytes : Nat
  snapshotSha256 : String
  deriving DecidableEq, Repr

def isText (v : Option Value) (t : String) : Bool :=
  match v with
  | some (.str s) => s = t
  | _ => false

def isFalse (v : Option Value) : Bool :=
  match v with
  | some (.bool false) => true
  | _ => false

def boundedContract (v : Option Value) : Bool :=
  match v with
  | some (.obj fields) =>
    ["raw_chat_history_embedded", "message_bodies_embedded", "credentials_embedded"].all
      (fun key => isFalse (get key (.obj fields)))
  | _ => false

-- the file's text, none where it cannot be read
def verifySnapshot (path : String) (file : Option (List Char)) : Except Failure Report := do
  let raw ← demand file (.snapshot "snapshot is unreadable")
  let snapshot ← demand (loads raw) (.snapshot "snapshot is unreadable")
  require (utf8Length raw ≤ maxSnapshotBytes) (.snapshot "snapshot exceeds the bounded size limit")
  require (isText (get "schema" snapshot) snapshotSchema = true)
    (.snapshot "unsupported continuity snapshot schema")
  let actual := sha (JsonDoc.dumps compact (without "snapshot_sha256" snapshot))
  require (isText (get "snapshot_sha256" snapshot) actual = true)
    (.snapshot "snapshot SHA-256 mismatch")
  require (sensitive raw = false) (.snapshot "snapshot contains a credential-like value")
  require (boundedContract (get "continuity_contract" snapshot) = true)
    (.snapshot "snapshot violates the bounded continuity contract")
  return ⟨"PASS", path, utf8Length raw, actual⟩

def payload (snapshot : Value) : List Char := JsonDoc.dumps indented snapshot ++ ['\n']

-- whether the temporary file was written and put in place, and whether it can be read back
structure Io where
  replaces : Bool
  readsBack : Bool

-- the result, and the file at the output path afterwards
def writeSnapshot (path : String) (io : Io) (old : Option (List Char)) (snapshot : Value) :
    Except Failure Report × Option (List Char) :=
  if io.replaces then
    (verifySnapshot sha path (if io.readsBack then some (payload snapshot) else none),
      some (payload snapshot))
  else (.error .operatingSystem, old)

end Snapshots
end PeerBridge.Continuity
